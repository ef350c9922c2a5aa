import RecordStore.Proofs.GivenValues
import RecordStore.Proofs.Settled

namespace RecordStore

section Owner

variable {σ : Type}

inductive OwnerCall
  | asked (memory : Memory) (field : Nat) (value : Value)
  | told (memory : Memory) (field : Nat) (offset : UInt64) (value : Value)
deriving DecidableEq, Repr

def IndexOwner.recorded (owner : IndexOwner σ) : IndexOwner (σ × List OwnerCall) where
  isFree memory state field value :=
    ((owner.isFree memory state.1 field value).1, (owner.isFree memory state.1 field value).2,
      state.2 ++ [.asked memory field value])
  assigned memory state field offset value :=
    (owner.assigned memory state.1 field offset value,
      state.2 ++ [.told memory field offset value])
  remarks state := owner.remarks state.1

def Session.recorded (session : Session σ) (calls : List OwnerCall) :
    Session (σ × List OwnerCall) where
  cursor := session.cursor
  memory := session.memory
  owner := (session.owner, calls)
  notices := session.notices

end Owner

namespace Cursor

-- The checks of a write in their order, each with the fault that it ends in if it fails.
def checks (cursor : Cursor) (field : Nat) (value : Value) : List (Option Fault) :=
  let slot? := cursor.layout.fields[field]?
  [ if cursor.place.isSome then none else some (.unbound .write),
    if slot?.isSome then none else some .noSuchField,
    (slot?.filter fun slot => value.type != slot.type).map fun slot =>
      .typeMismatch slot.name slot.type value.type,
    (slot?.filter fun slot => slot.attrs.sequence).map fun slot => .writeToSequence slot.name,
    if cursor.place.all (·.buffer.isMutable) then none else some (.recordReadOnly .write),
    slot?.bind fun slot => (value.overflow? slot.length).map fun length =>
      .textTooLong .write length slot.name slot.length,
    (slot?.filter fun slot => slot.attrs.key && cursor.keyLocked).map fun slot =>
      .keyLocked .write slot.name ]

def paddedChecks (cursor : Cursor) (field : Nat) (text : Bytes) : List (Option Fault) :=
  let slot? := cursor.layout.fields[field]?
  [ if slot?.isSome then none else some .noSuchField,
    (slot?.filter fun slot => slot.type != .fixedString).map fun slot =>
      .typeMismatch slot.name slot.type .fixedString,
    slot?.bind fun slot => ((Value.text text).overflow? slot.length).map fun length =>
      .textTooLong .writePadded length slot.name slot.length ] ++ cursor.checks field (.text text)

end Cursor

def FieldWrite.checks (cursor : Cursor) (field : Nat) : FieldWrite → List (Option Fault)
  | plain value => cursor.checks field value
  | padded text => cursor.paddedChecks field text

def FieldWrite.firstFault (cursor : Cursor) (field : Nat) (write : FieldWrite) : Option Fault :=
  (write.checks cursor field).findSome? id

namespace Cursor

variable {σ : Type} {owner : IndexOwner σ} {cursor : Cursor} {memory after : Memory} {state : σ}
  {field : Nat} {value : Value} {text : Bytes} {place : Place} {slot : FieldSlot} {fault : Fault}

theorem check_write_known (placed : cursor.place = some place)
    (known : cursor.layout.fields[field]? = some slot) : cursor.checkWrite field value =
      match (cursor.checks field value).findSome? id with
      | some fault => .error fault
      | none => .ok (place, slot) := by
  have standing : cursor.requirePlace .write = .ok place := require_place_ok.mpr placed
  have found : cursor.layout.field field = .ok slot := field_ok.mpr known
  rw [checkWrite, checks, standing, found, known, placed, ok_then, ok_then]
  by_cases typed : value.type = slot.type
  · cases sequence : slot.attrs.sequence with
    | true => simp [typed, sequence, Option.filter, throw_error, error_then]
    | false =>
      cases writable : place.buffer.isMutable with
      | false =>
        simp [typed, sequence, writable, Option.filter, Place.requireMutable, error_then]
      | true =>
        cases long : value.overflow? slot.length with
        | some length =>
          simp [typed, sequence, writable, long, Option.filter, Place.requireMutable, ok_then,
            throw_error]
        | none =>
          cases locked : (slot.attrs.key && cursor.keyLocked) with
          | true =>
            simp [typed, sequence, writable, long, locked, Option.filter, Place.requireMutable,
              ok_then, throw_error]
          | false =>
            simp [typed, sequence, writable, long, locked, Option.filter, Place.requireMutable]
  · have differ : (value.type != slot.type) = true := bne_iff_ne.mpr typed
    simp [typed, differ, Option.filter, throw_error, error_then]

theorem check_write_first (cursor : Cursor) (field : Nat) (value : Value) :
    match (cursor.checks field value).findSome? id with
    | some fault => cursor.checkWrite field value = .error fault
    | none => ∃ place slot, cursor.Accepts field value place slot := by
  cases placed : cursor.place with
  | none =>
    have first : (cursor.checks field value).findSome? id = some (.unbound .write) := by
      simp [checks, placed]
    rw [first]
    dsimp only
    rw [checkWrite, requirePlace, placed, error_then]
  | some place =>
    cases known : cursor.layout.fields[field]? with
    | none =>
      have first : (cursor.checks field value).findSome? id = some .noSuchField := by
        simp [checks, placed, known]
      rw [first]
      dsimp only
      rw [checkWrite, requirePlace, placed, ok_then, Layout.field, known, error_then]
    | some slot =>
      have checked := @check_write_known _ _ value _ _ placed known
      cases first : (cursor.checks field value).findSome? id with
      | some fault =>
        rw [first] at checked
        exact checked
      | none =>
        rw [first] at checked
        exact ⟨place, slot, check_write_ok checked⟩

theorem write_fails_check (failed : cursor.checkWrite field value = .error fault) :
    cursor.write owner memory state field value = .error fault := by
  rw [write, failed, error_then]

theorem write_unindexed (accepts : cursor.Accepts field value place slot)
    (put : place.writeSlot memory slot value = .ok after)
    (unheard : (slot.attrs.indexed && cursor.reports) = false) :
    cursor.write owner memory state field value = .ok ⟨true, after, state, []⟩ := by
  rw [write, check_write_of_accepts accepts, ok_then]
  dsimp only
  rw [unheard, if_neg Bool.false_ne_true, put, ok_then]
  rfl

theorem write_refuses_taken (accepts : cursor.Accepts field value place slot)
    (heard : (slot.attrs.indexed && cursor.reports) = true) (unique : slot.attrs.unique = true)
    (taken : (owner.isFree memory state field value.stored).1 = false) :
    cursor.write owner memory state field value =
      .ok ⟨false, memory, (owner.isFree memory state field value.stored).2,
        [.uniqueViolation slot.name value.stored place.offset]⟩ := by
  rw [write, check_write_of_accepts accepts, ok_then]
  dsimp only
  rw [heard, if_pos rfl, unique, if_pos rfl, taken]
  rfl

def consulted (owner : IndexOwner σ) (memory : Memory) (state : σ) (field : Nat) (slot : FieldSlot)
    (held : Value) : σ :=
  if slot.attrs.unique then (owner.isFree memory state field held).2 else state

theorem write_reports_value (accepts : cursor.Accepts field value place slot)
    (put : place.writeSlot memory slot value = .ok after)
    (heard : (slot.attrs.indexed && cursor.reports) = true)
    (free : slot.attrs.unique = true → (owner.isFree memory state field value.stored).1 = true) :
    cursor.write owner memory state field value =
      .ok ⟨true, after,
        owner.assigned after (consulted owner memory state field slot value.stored) field
          place.offset value.stored,
        owner.remarks (consulted owner memory state field slot value.stored) field place.offset
          value.stored⟩ := by
  rw [write, check_write_of_accepts accepts, ok_then]
  dsimp only
  rw [heard, if_pos rfl, consulted]
  cases unique : slot.attrs.unique with
  | false =>
    simp only [Bool.false_eq_true, if_false, if_true]
    rw [put, ok_then]
    rfl
  | true =>
    rw [if_pos rfl, free unique, if_pos rfl, put, ok_then]
    rfl

end Cursor

namespace FieldWrite

variable {σ : Type} {cursor : Cursor} {field : Nat} {text : Bytes} {slot : FieldSlot}

theorem padded_checks (known : cursor.layout.fields[field]? = some slot)
    (short : (Value.text text).overflow? slot.length = none) :
    cursor.checks field (Cursor.padded text slot) = cursor.checks field (.text text) := by
  have whole : (Cursor.padded text slot).overflow? slot.length = none := by
    have fits := text_short short
    rw [Cursor.padded, Value.overflow?, List.length_append, List.length_replicate,
      if_neg (by omega)]
  have type : (Cursor.padded text slot).type = (Value.text text).type := rfl
  rw [Cursor.checks, Cursor.checks, known, type]
  simp only [Option.bind_some, whole, short]

theorem padded_first_fault_eq (known : cursor.layout.fields[field]? = some slot)
    (typed : slot.type = .fixedString)
    (short : (Value.text text).overflow? slot.length = none) :
    (padded text).firstFault cursor field = (cursor.checks field (.text text)).findSome? id := by
  have same : (slot.type != .fixedString) = false := bne_eq_false_iff_eq.mpr typed
  simp [firstFault, checks, Cursor.paddedChecks, known, same, short, Option.filter]

theorem padded_too_long (owner : IndexOwner σ) (memory : Memory) (state : σ)
    (known : cursor.layout.fields[field]? = some slot) (typed : slot.type = .fixedString)
    {length : Nat} (long : (Value.text text).overflow? slot.length = some length) :
    cursor.writePadded owner memory state field text =
      .error (.textTooLong .writePadded length slot.name slot.length) := by
  rw [Value.overflow?] at long
  split at long
  · rename_i longer
    cases long
    rw [Cursor.writePadded, Cursor.typedField, field_ok.mpr known, ok_then, if_pos typed]
    exact if_pos longer
  · cases long

theorem padded_eq_write (owner : IndexOwner σ) (memory : Memory) (state : σ)
    (known : cursor.layout.fields[field]? = some slot) (typed : slot.type = .fixedString)
    (short : (Value.text text).overflow? slot.length = none) :
    cursor.writePadded owner memory state field text =
      cursor.write owner memory state field (Cursor.padded text slot) := by
  rw [Cursor.writePadded, Cursor.typedField, field_ok.mpr known, ok_then, if_pos typed]
  exact if_neg (Nat.not_lt.mpr (text_short short))

theorem padded_first_fault (owner : IndexOwner σ) (cursor : Cursor) (memory : Memory) (state : σ)
    (field : Nat) (text : Bytes) :
    match (padded text).firstFault cursor field with
    | some fault => cursor.writePadded owner memory state field text = .error fault
    | none => ∃ place slot, cursor.Accepts field (.text text) place slot := by
  cases known : cursor.layout.fields[field]? with
  | none =>
    have first : (padded text).firstFault cursor field = some .noSuchField := by
      simp [firstFault, checks, Cursor.paddedChecks, known]
    rw [first]
    dsimp only
    rw [Cursor.writePadded, Cursor.typedField, Layout.field, known, error_then, error_then]
  | some slot =>
    by_cases typed : slot.type = .fixedString
    · cases short : (Value.text text).overflow? slot.length with
      | some length =>
        have first : (padded text).firstFault cursor field =
            some (.textTooLong .writePadded length slot.name slot.length) := by
          simp [firstFault, checks, Cursor.paddedChecks, known, typed, short, Option.filter]
        rw [first]
        exact padded_too_long owner memory state known typed short
      | none =>
        have checked := Cursor.check_write_first cursor field (Cursor.padded text slot)
        have plain := Cursor.check_write_first cursor field (.text text)
        rw [padded_checks known short] at checked
        rw [padded_first_fault_eq known typed short]
        cases first : (cursor.checks field (.text text)).findSome? id with
        | some fault =>
          rw [first] at checked
          exact (padded_eq_write owner memory state known typed short).trans
            (Cursor.write_fails_check checked)
        | none =>
          rw [first] at plain
          exact plain
    · have first : (padded text).firstFault cursor field =
          some (.typeMismatch slot.name slot.type .fixedString) := by
        simp [firstFault, checks, Cursor.paddedChecks, known, typed, Option.filter]
      rw [first]
      dsimp only
      rw [Cursor.writePadded, Cursor.typedField, field_ok.mpr known, ok_then, if_neg typed,
        throw_error, error_then]

theorem run_first_fault (owner : IndexOwner σ) (cursor : Cursor) (memory : Memory) (state : σ)
    (field : Nat) (write : FieldWrite) :
    match write.firstFault cursor field with
    | some fault => write.run owner cursor memory state field = .error fault
    | none => ∃ place slot, cursor.Accepts field write.value place slot := by
  cases write with
  | plain value =>
    have checked := Cursor.check_write_first cursor field value
    rw [firstFault, checks]
    cases first : (cursor.checks field value).findSome? id with
    | some fault =>
      rw [first] at checked
      exact Cursor.write_fails_check checked
    | none =>
      rw [first] at checked
      exact checked
  | padded text => exact padded_first_fault owner cursor memory state field text

end FieldWrite

-- How a write ends: what it answers, the session it leaves and the calls that it makes, in order.
inductive Wrote {σ : Type} (owner : IndexOwner σ) (before : Session σ) (field : Nat)
    (write : FieldWrite) : Except Fault CursorAnswer → Session σ → List OwnerCall → Prop
  | stopped {fault : Fault} (first : write.firstFault before.cursor field = some fault) :
      Wrote owner before field write (.error fault) before []
  | unheard {place : Place} {slot : FieldSlot} {held : Value} {memory : Memory}
      (passed : write.firstFault before.cursor field = none)
      (accepts : before.cursor.Accepts field write.value place slot)
      (unheard : slot.attrs.indexed = false ∨ before.cursor.reports = false)
      (stored : Stored before.memory memory place slot
        ((write.filled slot).encode slot.length.toNat))
      (within : before.memory.Within place.buffer.region memory)
      (reads : before.cursor.read memory field = .ok held) (form : write.value.ReadsAs held) :
      Wrote owner before field write (.ok (.truth true)) { before with memory } []
  | taken {place : Place} {slot : FieldSlot} {held : Value} {notices : List Notice}
      (passed : write.firstFault before.cursor field = none)
      (accepts : before.cursor.Accepts field write.value place slot)
      (indexed : slot.attrs.indexed = true) (reports : before.cursor.reports = true)
      (unique : slot.attrs.unique = true) (form : write.value.ReadsAs held)
      (taken : (owner.isFree before.memory before.owner field held).1 = false) :
      Wrote owner before field write (.ok (.truth false)) { before with
          owner := (owner.isFree before.memory before.owner field held).2
          notices }
        [.asked before.memory field held]
  | told {place : Place} {slot : FieldSlot} {held : Value} {memory : Memory} {notices : List Notice}
      (passed : write.firstFault before.cursor field = none)
      (accepts : before.cursor.Accepts field write.value place slot)
      (indexed : slot.attrs.indexed = true) (reports : before.cursor.reports = true)
      (free : slot.attrs.unique = true →
        (owner.isFree before.memory before.owner field held).1 = true)
      (stored : Stored before.memory memory place slot
        ((write.filled slot).encode slot.length.toNat))
      (within : before.memory.Within place.buffer.region memory)
      (reads : before.cursor.read memory field = .ok held) (form : write.value.ReadsAs held) :
      Wrote owner before field write (.ok (.truth true)) { before with
          memory
          owner := owner.assigned memory
            (Cursor.consulted owner before.memory before.owner field slot held) field place.offset held
          notices }
        ((if slot.attrs.unique then [.asked before.memory field held] else []) ++
          [.told memory field place.offset held])

section Reached

variable {σ : Type} {owner : IndexOwner σ} {layout : Layout} {reports : Bool} {before : Session σ}

def CursorOperation.target? : CursorOperation → Option View
  | bind buffer _ | bindHeader buffer _ => some buffer
  | _ => none

-- Everything that can become of a cursor that is moved to buffers in memory only, while others change
-- memory and the owner as they like.
inductive Session.Reached (owner : IndexOwner σ) (layout : Layout) (reports : Bool) :
    Session σ → Prop
  | created {cursor memory state notices}
      (made : Cursor.create (some layout) reports = .ok cursor) :
      Reached owner layout reports { cursor, memory, owner := state, notices }
  | worked {session : Session σ} {operation : CursorOperation}
      (reached : Reached owner layout reports session)
      (inside : ∀ buffer, operation.target? = some buffer → buffer.Fits session.memory) :
      Reached owner layout reports (stateOf (operation.run owner session))
  | changed {session : Session σ} {memory state notices}
      (reached : Reached owner layout reports session) (grows : session.memory.Grows memory) :
      Reached owner layout reports { session with memory, owner := state, notices }

structure Session.Grounded (layout : Layout) (session : Session σ) : Prop where
  shape : session.cursor.layout = layout
  stands : ∀ place, session.cursor.place = some place →
    session.cursor.On layout session.memory place

theorem bind_grounded (grounded : before.Grounded layout) {buffer : View} {offset : UInt64}
    {cursor : Cursor} (fits : buffer.Fits before.memory)
    (bound : before.cursor.bind buffer offset = .ok cursor) :
    Session.Grounded layout { before with cursor } := by
  have stands := bind_on grounded.shape fits bound
  refine ⟨stands.shape, fun place placed => ?_⟩
  cases stands.placed.symm.trans placed
  exact stands

theorem alike_grounded {after : Session σ} (grounded : before.Grounded layout)
    (cursor : after.cursor.layout = before.cursor.layout)
    (place : after.cursor.place = before.cursor.place)
    (memory : before.memory.Alike after.memory) : after.Grounded layout := by
  refine ⟨cursor.trans grounded.shape, fun there placed => ?_⟩
  have stands := grounded.stands there (place.symm.trans placed)
  exact ⟨cursor.trans grounded.shape, placed, stands.holds, View.fits_alike stands.fits memory⟩

theorem move_grounded {operation : CursorOperation} {answer : Except Fault CursorAnswer}
    {after : Session σ} (grounded : before.Grounded layout)
    (inside : ∀ buffer, operation.target? = some buffer → buffer.Fits before.memory)
    (move : Move before operation answer after) : after.Grounded layout := by
  cases move with
  | bare bound | unheaded bound => exact bind_grounded grounded (inside _ rfl) bound
  | headed bound put =>
    have moved := bind_grounded grounded (inside _ rfl) bound
    obtain ⟨place, -, -, -, rfl⟩ := Cursor.put_header_ok put
    exact alike_grounded moved rfl rfl (View.poke_alike _ _ _ _)

theorem worked_grounded {operation : CursorOperation} (grounded : before.Grounded layout)
    (inside : ∀ buffer, operation.target? = some buffer → buffer.Fits before.memory) :
    (stateOf (operation.run owner before)).Grounded layout := by
  obtain ⟨answer, after, ran, ended⟩ := operation_outcome owner operation before
  rw [ran, state_of_outcome]
  rcases ended with ⟨fault, -, rfl⟩ | ⟨reply, -, change⟩ | move
  · exact grounded
  · have alike := Session.change_alike change
    exact alike_grounded grounded alike.layout (Table.change_place change) alike.memory
  · exact move_grounded grounded inside move

theorem changed_grounded (grounded : before.Grounded layout) {memory : Memory}
    (grows : before.memory.Grows memory) (state : σ) (notices : List Notice) :
    Session.Grounded layout { before with memory, owner := state, notices } := by
  refine ⟨grounded.shape, fun place placed => ?_⟩
  have stands := grounded.stands place placed
  exact ⟨grounded.shape, placed, stands.holds, Nat.le_trans stands.fits (grows _)⟩

theorem reached_grounded (reached : before.Reached owner layout reports) :
    before.Grounded layout := by
  induction reached with
  | created made =>
    cases made
    exact ⟨rfl, nofun⟩
  | worked _ inside ih => exact worked_grounded ih inside
  | changed _ grows ih => exact changed_grounded ih grows _ _

end Reached

section Order

variable {σ : Type} {owner : IndexOwner σ} {layout : Layout} {before : Session σ} {field : Nat}
  {write : FieldWrite} {place : Place} {slot : FieldSlot}

theorem consulted_recorded (memory : Memory) (state : σ) (held : Value) :
    Cursor.consulted owner.recorded memory (state, []) field slot held =
      (Cursor.consulted owner memory state field slot held,
        if slot.attrs.unique then [.asked memory field held] else []) := by
  rw [Cursor.consulted, Cursor.consulted]
  cases slot.attrs.unique <;> rfl

def Ordered (owner : IndexOwner σ) (before : Session σ) (field : Nat) (write : FieldWrite) : Prop :=
  ∃ answer after calls, Wrote owner before field write answer after calls ∧
    (write.work field).run owner before = outcome answer after ∧
    (write.work field).run owner.recorded (before.recorded []) =
      outcome answer (after.recorded calls)

theorem unindexed_write_ordered (passed : write.firstFault before.cursor field = none)
    (accepts : before.cursor.Accepts field write.value place slot) {memory : Memory}
    (put : place.writeSlot before.memory slot (write.filled slot) = .ok memory)
    (unheard : (slot.attrs.indexed && before.cursor.reports) = false)
    (stored : Stored before.memory memory place slot
      ((write.filled slot).encode slot.length.toNat))
    (reads : before.cursor.read memory field = .ok write.value.stored) :
    Ordered owner before field write := by
  have filled := FieldWrite.filled_accepted accepts
  have ran {τ : Type} (other : IndexOwner τ) (state : τ) :
      write.run other before.cursor before.memory state field = .ok ⟨true, memory, state, []⟩ :=
    (FieldWrite.run_filled accepts).trans (Cursor.write_unindexed filled put unheard)
  have plain := FieldWrite.work_run (ran owner before.owner)
  have logged := @FieldWrite.work_run _ _ (before.recorded []) _ _ _
    (ran owner.recorded (before.owner, []))
  rw [List.append_nil] at plain logged
  exact ⟨_, _, [], .unheard passed accepts (Bool.and_eq_false_iff.mp unheard) stored
    (Memory.store_within put) reads (stored_reads write.value), plain, logged⟩

theorem taken_write_ordered (passed : write.firstFault before.cursor field = none)
    (accepts : before.cursor.Accepts field write.value place slot)
    (heard : (slot.attrs.indexed && before.cursor.reports) = true)
    (unique : slot.attrs.unique = true)
    (taken : (owner.isFree before.memory before.owner field write.value.stored).1 = false) :
    Ordered owner before field write := by
  have filled := FieldWrite.filled_accepted accepts
  have same := FieldWrite.filled_stored write slot
  have ran {τ : Type} (other : IndexOwner τ) (state : τ)
      (no : (other.isFree before.memory state field write.value.stored).1 = false) :
      write.run other before.cursor before.memory state field =
        .ok ⟨false, before.memory, (other.isFree before.memory state field write.value.stored).2,
          [.uniqueViolation slot.name write.value.stored place.offset]⟩ := by
    rw [← same] at no ⊢
    exact (FieldWrite.run_filled accepts).trans (Cursor.write_refuses_taken filled heard unique no)
  have plain := FieldWrite.work_run (ran owner before.owner taken)
  have logged := @FieldWrite.work_run _ _ (before.recorded []) _ _ _
    (ran owner.recorded (before.owner, []) taken)
  obtain ⟨indexed, reports⟩ := Bool.and_eq_true_iff.mp heard
  exact ⟨_, _, _, .taken passed accepts indexed reports unique (stored_reads write.value) taken,
    plain, logged⟩

theorem reported_write_ordered (passed : write.firstFault before.cursor field = none)
    (accepts : before.cursor.Accepts field write.value place slot) {memory : Memory}
    (put : place.writeSlot before.memory slot (write.filled slot) = .ok memory)
    (heard : (slot.attrs.indexed && before.cursor.reports) = true)
    (free : slot.attrs.unique = true →
      (owner.isFree before.memory before.owner field write.value.stored).1 = true)
    (stored : Stored before.memory memory place slot
      ((write.filled slot).encode slot.length.toNat))
    (reads : before.cursor.read memory field = .ok write.value.stored) :
    Ordered owner before field write := by
  have filled := FieldWrite.filled_accepted accepts
  have same := FieldWrite.filled_stored write slot
  have ran {τ : Type} (other : IndexOwner τ) (state : τ) (yes : slot.attrs.unique = true →
        (other.isFree before.memory state field write.value.stored).1 = true) :
      write.run other before.cursor before.memory state field =
        .ok ⟨true, memory,
          other.assigned memory
            (Cursor.consulted other before.memory state field slot write.value.stored) field
            place.offset write.value.stored,
          other.remarks (Cursor.consulted other before.memory state field slot write.value.stored)
            field place.offset write.value.stored⟩ := by
    rw [← same] at yes ⊢
    exact (FieldWrite.run_filled accepts).trans (Cursor.write_reports_value filled put heard yes)
  have plain := FieldWrite.work_run (ran owner before.owner free)
  have logged := @FieldWrite.work_run _ _ (before.recorded []) _ _ _
    (ran owner.recorded (before.owner, []) free)
  rw [consulted_recorded] at logged
  obtain ⟨indexed, reports⟩ := Bool.and_eq_true_iff.mp heard
  exact ⟨_, _, _, .told passed accepts indexed reports free stored (Memory.store_within put) reads
    (stored_reads write.value), plain, logged⟩

theorem accepted_write_ordered (packed : layout.Packed) (stands : before.cursor.On layout before.memory place)
    (passed : write.firstFault before.cursor field = none)
    (accepts : before.cursor.Accepts field write.value place slot) :
    Ordered owner before field write := by
  have filled := FieldWrite.filled_accepted accepts
  have known : layout.fields[field]? = some slot := by rw [← stands.shape, accepts.field]
  obtain ⟨memory, put⟩ := write_slot_runs packed known stands.holds filled.writable filled.type
    filled.short before.memory
  obtain ⟨alike, bytes⟩ := write_slot_ok packed known stands.holds stands.fits filled.type
    filled.short put
  have whole := FieldSlot.encode_length (packed.sized field slot known) filled.type filled.short
  have stored : Stored before.memory memory place slot
      ((write.filled slot).encode slot.length.toNat) := ⟨alike, whole, bytes⟩
  have reads := read_stored packed stands known filled.type stored
  rw [FieldWrite.filled_stored] at reads
  cases heard : (slot.attrs.indexed && before.cursor.reports) with
  | false => exact unindexed_write_ordered passed accepts put heard stored reads
  | true =>
    by_cases taken : slot.attrs.unique = true ∧
        (owner.isFree before.memory before.owner field write.value.stored).1 = false
    · exact taken_write_ordered passed accepts heard taken.1 taken.2
    · refine reported_write_ordered passed accepts put heard (fun unique => ?_) stored reads
      exact Bool.of_not_eq_false fun no => taken ⟨unique, no⟩

end Order

theorem write_order {schema : Schema} {layout : Layout}
    (built : Layout.build schema = .ok layout) (narrow : layout.extent < UInt64.size)
    {σ : Type} {owner : IndexOwner σ} {reports : Bool} {before : Session σ}
    (reached : before.Reached owner layout reports) (field : Nat) (write : FieldWrite) :
    ∃ answer after calls, Wrote owner before field write answer after calls ∧
      (write.work field).run owner before = outcome answer after ∧
      (write.work field).run owner.recorded (before.recorded []) =
        outcome answer (after.recorded calls) := by
  obtain ⟨packed, -⟩ := Layout.build_packed built narrow
  have grounded := reached_grounded reached
  have first := FieldWrite.run_first_fault owner before.cursor before.memory before.owner field write
  have logged := FieldWrite.run_first_fault owner.recorded before.cursor before.memory (before.owner, [])
    field write
  cases found : write.firstFault before.cursor field with
  | some fault =>
    rw [found] at first logged
    exact ⟨.error fault, before, [], .stopped found, FieldWrite.work_fault first,
      FieldWrite.work_fault logged⟩
  | none =>
    rw [found] at first
    obtain ⟨place, slot, accepts⟩ := first
    exact accepted_write_ordered packed (grounded.stands place accepts.placed) found accepts

def labelSession : Session (List ValueIndex) where
  cursor := labelCursor
  memory := labelMemory
  owner := (Contents.blank Layout.labelLayout).indexes
  notices := []

theorem label_write_order :
    Layout.build Layout.labelSchema = .ok Layout.labelLayout ∧
      Layout.labelLayout.extent < UInt64.size ∧
      labelSession.Reached indexOwner Layout.labelLayout true ∧
      ∃ after, Wrote indexOwner labelSession 1 (.padded [32, 97, 200]) (.ok (.truth true)) after
        [.asked labelMemory 1 (.text [97, 63]), .told after.memory 1 3 (.text [97, 63])] := by
  have narrow : Layout.labelLayout.extent < UInt64.size := by decide
  have reached : labelSession.Reached indexOwner Layout.labelLayout true := by
    let unbound : Session (List ValueIndex) :=
      { labelSession with cursor := { layout := Layout.labelLayout, reports := true } }
    have created : unbound.Reached indexOwner Layout.labelLayout true := .created rfl
    have moved : labelSession =
      stateOf ((CursorOperation.bind labelPlace.buffer 3).run indexOwner unbound) := rfl
    rw [moved]
    refine .worked created ?_
    rintro buffer ⟨⟩
    rw [View.Fits]
    decide
  obtain ⟨answer, after, calls, wrote, -, logged⟩ :=
    write_order Layout.label_built narrow reached 1 (.padded [32, 97, 200])
  refine ⟨Layout.label_built, narrow, reached, after, ?_⟩
  have ended : stateOf (((FieldWrite.padded [32, 97, 200]).work 1).run indexOwner.recorded
      (labelSession.recorded [])) = after.recorded calls := by
    rw [logged, state_of_outcome]
  have called : (stateOf (((FieldWrite.padded [32, 97, 200]).work 1).run indexOwner.recorded
      (labelSession.recorded []))).owner.2 = [.asked labelMemory 1 (.text [97, 63]),
        .told (stateOf (((FieldWrite.padded [32, 97, 200]).work 1).run indexOwner.recorded
          (labelSession.recorded []))).memory 1 3 (.text [97, 63])] := rfl
  rw [ended] at called
  have same : calls = [.asked labelMemory 1 (.text [97, 63]),
    .told after.memory 1 3 (.text [97, 63])] := called
  have said : answer = .ok (.truth true) := by
    cases wrote with
    | stopped | unheard | taken => cases same
    | told => rfl
  rw [← said, ← same]
  exact wrote

end RecordStore
