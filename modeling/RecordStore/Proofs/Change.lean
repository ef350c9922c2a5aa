import RecordStore.Cursor.Operation
import RecordStore.Proofs.Access

namespace RecordStore

theorem field_ok {layout : Layout} {id : Nat} {slot : FieldSlot} :
    layout.field id = .ok slot ↔ layout.fields[id]? = some slot := by
  rw [Layout.field]
  cases layout.fields[id]? <;> simp

theorem require_mutable_ok {place : Place} {action : CursorAction} :
    place.requireMutable action = .ok () ↔ place.buffer.isMutable = true := by
  rw [Place.requireMutable]
  split <;> simp_all

theorem View.lacks_room_iff (view : View) (offset length : UInt64) :
    (offset > view.size ∨ view.size - offset < length) ↔
      ¬ offset.toNat + length.toNat ≤ view.size.toNat := by
  have := view.size.toNat_lt
  simp only [GT.gt, UInt64.lt_iff_toNat_lt, UInt64.toNat_sub]
  omega

namespace Cursor

theorem require_place_ok {cursor : Cursor} {action : CursorAction} {place : Place} :
    cursor.requirePlace action = .ok place ↔ cursor.place = some place := by
  rw [requirePlace]
  cases cursor.place <;> simp

theorem move_ok {cursor after : Cursor} {buffer : View} {offset : UInt64} :
    cursor.bind buffer offset = .ok after ↔
      offset.toNat + cursor.layout.stride.toNat ≤ buffer.size.toNat ∧
        (cursor.reports && cursor.place.any (!buffer.sameBytes ·.buffer)) = false ∧
          after = { cursor with
            place := some ⟨buffer, offset⟩, keyLocked := false, snapshot := none } := by
  have outside := buffer.lacks_room_iff offset cursor.layout.stride
  rw [bind]
  by_cases room : offset.toNat + cursor.layout.stride.toNat ≤ buffer.size.toNat
  · rw [if_neg (by rw [outside]; exact not_not_intro room)]
    cases elsewhere : (cursor.reports && cursor.place.any (!buffer.sameBytes ·.buffer)) with
    | true => simp
    | false => simp [room, eq_comm]
  · rw [if_pos (outside.mpr room)]
    simp [room]

theorem move_error {cursor : Cursor} {buffer : View} {offset : UInt64} {fault : Fault}
    (failed : cursor.bind buffer offset = .error fault) :
    (¬ offset.toNat + cursor.layout.stride.toNat ≤ buffer.size.toNat ∧
      fault = .bindOutOfRange offset cursor.layout.stride buffer.size) ∨
      fault = .bindElsewhere := by
  have outside := buffer.lacks_room_iff offset cursor.layout.stride
  rw [bind] at failed
  split at failed
  · rename_i beyond
    cases failed
    exact .inl ⟨outside.mp beyond, rfl⟩
  · split at failed
    · cases failed
      exact .inr rfl
    · cases failed

theorem buffer_placed {cursor : Cursor} {place : Place} (placed : cursor.place = some place) :
    cursor.buffer = place.buffer := by
  rw [buffer, placed]
  rfl

theorem offset_placed {cursor : Cursor} {place : Place} (placed : cursor.place = some place) :
    cursor.offset = place.offset := by
  rw [offset, placed]
  rfl

theorem read_placed {cursor : Cursor} {place : Place} {id : Nat} {slot : FieldSlot}
    (placed : cursor.place = some place) (known : cursor.layout.fields[id]? = some slot)
    (memory : Memory) : cursor.read memory id = place.readSlot memory slot := by
  rw [read, require_place_ok.mpr placed]
  change (cursor.layout.field id >>= fun slot => place.readSlot memory slot) = _
  rw [field_ok.mpr known]
  rfl

structure Accepts (cursor : Cursor) (id : Nat) (value : Value) (place : Place)
    (slot : FieldSlot) : Prop where
  placed : cursor.place = some place
  field : cursor.layout.fields[id]? = some slot
  type : value.type = slot.type
  plain : slot.attrs.sequence = false
  writable : place.buffer.isMutable = true
  short : value.overflow? slot.length = none
  unlocked : (slot.attrs.key && cursor.keyLocked) = false

theorem check_write_ok {cursor : Cursor} {id : Nat} {value : Value} {place : Place}
    {slot : FieldSlot} (checked : cursor.checkWrite id value = .ok (place, slot)) :
    cursor.Accepts id value place slot := by
  rw [checkWrite] at checked
  obtain ⟨found, placed, checked⟩ := except_bind_ok.mp checked
  obtain ⟨field, known, checked⟩ := except_bind_ok.mp checked
  by_cases mismatch : value.type ≠ field.type
  · rw [if_pos mismatch] at checked
    cases checked
  rw [if_neg mismatch] at checked
  cases sequence : field.attrs.sequence with
  | true =>
    rw [sequence] at checked
    cases checked
  | false =>
    rw [sequence] at checked
    obtain ⟨⟨⟩, writable, checked⟩ := except_bind_ok.mp checked
    cases long : value.overflow? field.length with
    | some length =>
      rw [long] at checked
      cases checked
    | none =>
      rw [long] at checked
      cases locked : (field.attrs.key && cursor.keyLocked) with
      | true =>
        rw [locked] at checked
        cases checked
      | false =>
        rw [locked] at checked
        cases checked
        exact ⟨require_place_ok.mp placed, field_ok.mp known, Decidable.not_not.mp mismatch, sequence,
          require_mutable_ok.mp writable, long, locked⟩

structure Counts (cursor : Cursor) (id : Nat) (place : Place) (slot : FieldSlot) : Prop where
  placed : cursor.place = some place
  field : cursor.layout.fields[id]? = some slot
  sequence : slot.attrs.sequence = true
  writable : place.buffer.isMutable = true
  unlocked : (slot.attrs.key && cursor.keyLocked) = false

theorem check_sequence_ok {cursor : Cursor} {action : CursorAction} {id : Nat} {place : Place}
    {slot : FieldSlot} (checked : cursor.checkSequence action id = .ok (place, slot)) :
    cursor.Counts id place slot := by
  rw [checkSequence] at checked
  obtain ⟨found, placed, checked⟩ := except_bind_ok.mp checked
  obtain ⟨field, known, checked⟩ := except_bind_ok.mp checked
  cases sequence : field.attrs.sequence with
  | false =>
    rw [sequence] at checked
    cases checked
  | true =>
    rw [sequence] at checked
    obtain ⟨⟨⟩, writable, checked⟩ := except_bind_ok.mp checked
    cases locked : (field.attrs.key && cursor.keyLocked) with
    | true =>
      rw [locked] at checked
      cases checked
    | false =>
      rw [locked] at checked
      cases checked
      exact ⟨require_place_ok.mp placed, field_ok.mp known, sequence,
        require_mutable_ok.mp writable, locked⟩

theorem check_write_of_accepts {cursor : Cursor} {id : Nat} {value : Value} {place : Place}
    {slot : FieldSlot} (accepts : cursor.Accepts id value place slot) :
    cursor.checkWrite id value = .ok (place, slot) := by
  rw [checkWrite, require_place_ok.mpr accepts.placed]
  refine except_bind_ok.mpr ⟨place, rfl, except_bind_ok.mpr ⟨slot, field_ok.mpr accepts.field, ?_⟩⟩
  rw [if_neg (Decidable.not_not.mpr accepts.type), accepts.plain]
  refine except_bind_ok.mpr ⟨(), require_mutable_ok.mpr accepts.writable, ?_⟩
  rw [accepts.short, accepts.unlocked]
  rfl

theorem check_sequence_of_counts {cursor : Cursor} {action : CursorAction} {id : Nat}
    {place : Place} {slot : FieldSlot} (counts : cursor.Counts id place slot) :
    cursor.checkSequence action id = .ok (place, slot) := by
  rw [checkSequence, require_place_ok.mpr counts.placed]
  refine except_bind_ok.mpr ⟨place, rfl, except_bind_ok.mpr ⟨slot, field_ok.mpr counts.field, ?_⟩⟩
  rw [counts.sequence]
  refine except_bind_ok.mpr ⟨(), require_mutable_ok.mpr counts.writable, ?_⟩
  rw [counts.unlocked]
  rfl

section Write

variable {σ : Type} {owner : IndexOwner σ} {cursor : Cursor} {memory : Memory} {state : σ}

def consult (owner : IndexOwner σ) (cursor : Cursor) (memory : Memory) (state : σ) (id : Nat)
    (slot : FieldSlot) (value : Value) : Bool × σ :=
  if slot.attrs.indexed && cursor.reports && slot.attrs.unique then
    owner.isFree memory state id value.stored
  else (true, state)

def inform (owner : IndexOwner σ) (cursor : Cursor) (memory : Memory) (state : σ) (id : Nat)
    (slot : FieldSlot) (offset : UInt64) (value : Value) : σ :=
  if slot.attrs.indexed && cursor.reports then owner.assigned memory state id offset value.stored
  else state

theorem write_ok {id : Nat} {value : Value} {written : Written σ}
    (ran : cursor.write owner memory state id value = .ok written) :
    ∃ place slot, cursor.Accepts id value place slot ∧
      ((consult owner cursor memory state id slot value).1 = written.accepted) ∧
      (written.accepted = false → written.memory = memory ∧
        written.owner = (consult owner cursor memory state id slot value).2) ∧
      (written.accepted = true →
        place.writeSlot memory slot value = .ok written.memory ∧
        written.owner = inform owner cursor written.memory
          (consult owner cursor memory state id slot value).2 id slot place.offset value) := by
  rw [write] at ran
  obtain ⟨⟨place, slot⟩, checked, ran⟩ := except_bind_ok.mp ran
  refine ⟨place, slot, check_write_ok checked, ?_⟩
  dsimp only at ran
  cases reported : (slot.attrs.indexed && cursor.reports) with
  | false =>
    rw [reported] at ran
    obtain ⟨after, put, made⟩ := except_bind_ok.mp ran
    cases made
    simp [consult, inform, reported, put]
  | true =>
    rw [reported] at ran
    cases unique : slot.attrs.unique with
    | false =>
      rw [unique] at ran
      obtain ⟨after, put, made⟩ := except_bind_ok.mp ran
      cases made
      simp [consult, inform, reported, unique, put]
    | true =>
      rw [unique] at ran
      simp only [if_true] at ran
      cases free : (owner.isFree memory state id value.stored).1 with
      | false =>
        rw [free] at ran
        cases ran
        simp [consult, inform, reported, unique, free]
      | true =>
        rw [free] at ran
        obtain ⟨after, put, made⟩ := except_bind_ok.mp ran
        cases made
        simp [consult, inform, reported, unique, free, put]

theorem write_runs {id : Nat} {value : Value} {place : Place} {slot : FieldSlot} {after : Memory}
    (accepts : cursor.Accepts id value place slot)
    (put : place.writeSlot memory slot value = .ok after) :
    ∃ written, cursor.write owner memory state id value = .ok written := by
  rw [write]
  refine except_bind_runs (check_write_of_accepts accepts) ?_
  dsimp only
  cases reported : (slot.attrs.indexed && cursor.reports) with
  | false => exact except_bind_runs put ⟨_, rfl⟩
  | true =>
    rw [if_pos rfl]
    cases (if slot.attrs.unique then owner.isFree memory state id value.stored
        else (true, state)).1 with
    | false => exact ⟨_, rfl⟩
    | true => exact except_bind_runs put ⟨_, rfl⟩

def padded (text : Bytes) (slot : FieldSlot) : Value :=
  .text (text ++ List.replicate (slot.length.toNat - text.length) 32)

theorem write_padded_ok {id : Nat} {text : Bytes} {written : Written σ}
    (ran : cursor.writePadded owner memory state id text = .ok written) :
    ∃ slot, cursor.layout.fields[id]? = some slot ∧
      cursor.write owner memory state id (padded text slot) = .ok written := by
  rw [writePadded] at ran
  obtain ⟨slot, typed, ran⟩ := except_bind_ok.mp ran
  rw [typedField] at typed
  obtain ⟨field, known, typed⟩ := except_bind_ok.mp typed
  split at typed
  · cases typed
    refine ⟨slot, field_ok.mp known, ?_⟩
    dsimp only at ran
    split at ran
    · cases ran
    · exact ran
  · cases typed

end Write

section Sequence

variable {cursor : Cursor} {memory after : Memory}

theorem set_sequence_ok {id : Nat} {n : Int64} :
    cursor.setSequence memory id n = .ok after ↔ ∃ place slot value, cursor.Counts id place slot ∧
      Value.ofInteger? slot.type n = some value ∧ place.writeSlot memory slot value = .ok after := by
  rw [setSequence, except_bind_ok]
  constructor
  · intro shown
    obtain ⟨⟨place, slot⟩, checked, put⟩ := shown
    dsimp only at put
    split at put
    · rename_i value fits
      exact ⟨place, slot, value, check_sequence_ok checked, fits, put⟩
    · cases put
  · intro shown
    obtain ⟨place, slot, value, counts, fits, put⟩ := shown
    refine ⟨(place, slot), check_sequence_of_counts counts, ?_⟩
    dsimp only
    rw [fits]
    exact put

theorem increment_ok {buffer : View} {offset length : UInt64} {bytes : Bytes}
    (ran : increment buffer memory offset length = .ok (bytes, after)) :
    ∃ n, buffer.inBounds offset length = true ∧
      buffer.poke memory offset (encodeLE length.toNat n) = after := by
  have width : length.toNat.toUInt64 = length := UInt64.ofNat_toNat
  rw [increment] at ran
  dsimp only at ran
  split at ran
  · rename_i atomic
    have room : buffer.inBounds offset length = true := by
      rw [View.addsAtomically] at atomic
      simp only [Bool.and_eq_true] at atomic
      exact atomic.1.2
    obtain ⟨⟨before, put⟩, added, made⟩ := except_bind_ok.mp ran
    rw [View.addAtomic, width, if_pos atomic] at added
    cases added
    cases made
    exact ⟨_, room, rfl⟩
  · obtain ⟨before, -, ran⟩ := except_bind_ok.mp ran
    obtain ⟨put, stored, ran⟩ := except_bind_ok.mp ran
    obtain ⟨found, -, made⟩ := except_bind_ok.mp ran
    cases made
    obtain ⟨-, room, same⟩ := View.store_ok.mp stored
    rw [encode_le_length, width] at room
    exact ⟨_, room, same⟩

theorem advance_ok {id : Nat} {n : Int64} (ran : cursor.advance memory id = .ok (n, after)) :
    ∃ place slot count, cursor.Counts id place slot ∧
      place.buffer.inBounds (place.ofSlot slot) slot.length = true ∧
      place.buffer.poke memory (place.ofSlot slot) (encodeLE slot.length.toNat count) = after := by
  rw [advance] at ran
  obtain ⟨⟨place, slot⟩, checked, ran⟩ := except_bind_ok.mp ran
  dsimp only at ran
  split at ran
  · cases ran
  obtain ⟨⟨bytes, put⟩, incremented, ran⟩ := except_bind_ok.mp ran
  dsimp only at ran
  obtain ⟨count, room, same⟩ := increment_ok incremented
  split at ran
  · cases ran
    exact ⟨place, slot, count, check_sequence_ok checked, room, same⟩
  · cases ran

end Sequence

section Transaction

variable {cursor after : Cursor} {memory put : Memory}

theorem begin_ok (ran : cursor.begin memory = .ok after) :
    ∃ place bytes, cursor.place = some place ∧
      place.buffer.load memory place.offset cursor.layout.stride = .ok bytes ∧
      after = { cursor with snapshot := some bytes } := by
  rw [begin] at ran
  split at ran
  · cases ran
  obtain ⟨place, placed, ran⟩ := except_bind_ok.mp ran
  obtain ⟨bytes, found, made⟩ := except_bind_ok.mp ran
  cases made
  exact ⟨place, bytes, require_place_ok.mp placed, found, rfl⟩

theorem rollback_ok {restored : Bool} (ran : cursor.rollback memory = .ok (restored, after, put)) :
    (restored = false ∧ after = cursor ∧ put = memory) ∨
      ∃ bytes, cursor.snapshot = some bytes ∧ restored = true ∧
        cursor.buffer.store memory cursor.offset bytes = .ok put ∧
        after = { cursor with snapshot := none } := by
  rw [rollback] at ran
  cases saved : cursor.snapshot with
  | none =>
    rw [saved] at ran
    cases ran
    exact .inl ⟨rfl, rfl, rfl⟩
  | some bytes =>
    rw [saved] at ran
    dsimp only at ran
    split at ran
    · cases ran
    obtain ⟨back, stored, made⟩ := except_bind_ok.mp ran
    cases made
    exact .inr ⟨bytes, rfl, rfl, stored, rfl⟩

theorem put_header_runs {place : Place} (placed : cursor.place = some place)
    (writable : place.buffer.isMutable = true)
    (room : place.buffer.inBounds place.offset 8 = true) (memory : Memory) :
    cursor.putHeader memory =
      .ok (place.buffer.poke memory place.offset cursor.layout.header.encode) := by
  rw [putHeader]
  refine except_bind_ok.mpr ⟨place, require_place_ok.mpr placed, ?_⟩
  refine except_bind_ok.mpr ⟨(), require_mutable_ok.mpr writable, ?_⟩
  rw [Header.store]
  refine except_bind_ok.mpr ⟨_, View.slice_ok.mpr ⟨room, rfl⟩, ?_⟩
  refine View.store_ok.mpr ⟨writable, ?_, rfl⟩
  rw [Header.encode_length, View.in_bounds_iff]
  exact Nat.le_refl 8

theorem put_header_ok (ran : cursor.putHeader memory = .ok put) :
    ∃ place, cursor.place = some place ∧ place.buffer.isMutable = true ∧
      place.buffer.inBounds place.offset 8 = true ∧
      place.buffer.poke memory place.offset cursor.layout.header.encode = put := by
  rw [putHeader] at ran
  obtain ⟨place, placed, ran⟩ := except_bind_ok.mp ran
  obtain ⟨⟨⟩, writable, ran⟩ := except_bind_ok.mp ran
  rw [Header.store] at ran
  obtain ⟨part, sliced, stored⟩ := except_bind_ok.mp ran
  obtain ⟨room, rfl⟩ := View.slice_ok.mp sliced
  obtain ⟨-, -, same⟩ := View.store_ok.mp stored
  exact ⟨place, require_place_ok.mp placed, require_mutable_ok.mp writable, room, same⟩

end Transaction

end Cursor

namespace CursorOperation

def asks : CursorOperation → Bool
  | headerMatches | header | read _ | readAll | readAs .. => true
  | _ => false

def moves : CursorOperation → Bool
  | bind .. | bindHeader .. => true
  | _ => false

def Writes (operation : CursorOperation) (field : Nat) (slot : FieldSlot) (value : Value) : Prop :=
  operation = .write field value ∨
    ∃ text, operation = .writePadded field text ∧ value = Cursor.padded text slot

end CursorOperation

variable {σ : Type}

-- Every way in which an operation that is no move can end without a fault.
inductive Change (owner : IndexOwner σ) (before : Session σ) :
    CursorOperation → CursorAnswer → Session σ → Prop
  | asked {operation answer} (asks : operation.asks = true) : Change owner before operation answer before
  | locked : Change owner before .lockKey .done { before with cursor := before.cursor.lockKey }
  | headed {place} (placed : before.cursor.place = some place)
      (writable : place.buffer.isMutable = true)
      (room : place.buffer.inBounds place.offset 8 = true) :
      Change owner before .putHeader .done { before with
        memory := place.buffer.poke before.memory place.offset before.cursor.layout.header.encode }
  | refused {operation field value place slot notices}
      (writes : operation.Writes field slot value)
      (accepts : before.cursor.Accepts field value place slot)
      (taken : (Cursor.consult owner before.cursor before.memory before.owner field slot value).1
        = false) :
      Change owner before operation (.truth false) { before with
        owner := (Cursor.consult owner before.cursor before.memory before.owner field slot value).2
        notices }
  | written {operation field value place slot memory notices}
      (writes : operation.Writes field slot value)
      (accepts : before.cursor.Accepts field value place slot)
      (free : (Cursor.consult owner before.cursor before.memory before.owner field slot value).1
        = true)
      (put : place.writeSlot before.memory slot value = .ok memory) :
      Change owner before operation (.truth true) { before with
        memory
        owner := Cursor.inform owner before.cursor memory
          (Cursor.consult owner before.cursor before.memory before.owner field slot value).2
          field slot place.offset value
        notices }
  | set {field n place slot value memory}
      (counts : before.cursor.Counts field place slot)
      (fits : Value.ofInteger? slot.type n = some value)
      (put : place.writeSlot before.memory slot value = .ok memory) :
      Change owner before (.setSequence field n) .done { before with memory }
  | advanced {field n place slot count}
      (counts : before.cursor.Counts field place slot)
      (room : place.buffer.inBounds (place.ofSlot slot) slot.length = true) :
      Change owner before (.advance field) (.number n) { before with
        memory := place.buffer.poke before.memory (place.ofSlot slot)
          (encodeLE slot.length.toNat count) }
  | begun {place bytes} (placed : before.cursor.place = some place)
      (found : place.buffer.load before.memory place.offset before.cursor.layout.stride = .ok bytes) :
      Change owner before .begin .done { before with
        cursor := { before.cursor with snapshot := some bytes } }
  | committed :
      Change owner before .commit .done { before with cursor := before.cursor.commit }
  | kept : Change owner before .rollback (.truth false) before
  | restored {bytes memory} (saved : before.cursor.snapshot = some bytes)
      (put : before.cursor.buffer.store before.memory before.cursor.offset bytes = .ok memory) :
      Change owner before .rollback (.truth true) { before with
        cursor := { before.cursor with snapshot := none }
        memory }

theorem write_change {owner : IndexOwner σ} {before : Session σ} {operation : CursorOperation}
    {field : Nat} {value : Value} {written : Written σ}
    (writes : ∀ slot, before.cursor.layout.fields[field]? = some slot →
      operation.Writes field slot value)
    (ran : before.cursor.write owner before.memory before.owner field value = .ok written)
    (notices : List Notice) :
    Change owner before operation (.truth written.accepted) { before with
      memory := written.memory, owner := written.owner, notices } := by
  obtain ⟨place, slot, accepts, asked, refusal, acceptance⟩ := Cursor.write_ok ran
  cases outcome : written.accepted with
  | false =>
    obtain ⟨sameMemory, sameOwner⟩ := refusal outcome
    rw [outcome] at asked
    rw [sameMemory, sameOwner]
    exact .refused (writes slot accepts.field) accepts asked
  | true =>
    obtain ⟨put, told⟩ := acceptance outcome
    rw [outcome] at asked
    rw [told]
    exact .written (writes slot accepts.field) accepts asked put

def Ends (owner : IndexOwner σ) (before : Session σ) (operation : CursorOperation) : Prop :=
  (∃ fault, operation.run owner before = .error fault before) ∨
    ∃ answer after, operation.run owner before = .ok answer after ∧
      Change owner before operation answer after

section Tried

variable {owner : IndexOwner σ} {before after : Session σ} {operation : CursorOperation} {α β : Type}
  {work : Session σ → Except Fault α} {keep : Session σ → α → Session.Action σ β}
  {word : β → CursorAnswer}
  (same : operation.run owner =
    (get >>= fun session => attempt (work session) >>= keep session) >>= fun b => pure (word b))
include same

theorem tried_fault {fault : Fault} (failed : work before = .error fault) :
    operation.run owner before = .error fault before := by
  rw [same]
  refine bind_error ?_
  rw [get_bind, attempt_error failed]

theorem tried_run {a : α} {b : β} (ran : work before = .ok a)
    (kept : keep before a before = .ok b after) :
    operation.run owner before = .ok (word b) after := by
  rw [same]
  refine bind_ok ?_
  rw [get_bind, attempt_ok ran, kept]

theorem tried_ends (changes : ∀ a, work before = .ok a → ∃ b after,
    keep before a before = .ok b after ∧ Change owner before operation (word b) after) :
    Ends owner before operation := by
  cases ran : work before with
  | error fault => exact .inl ⟨fault, tried_fault same ran⟩
  | ok a =>
    obtain ⟨b, after, kept, change⟩ := changes a ran
    exact .inr ⟨word b, after, tried_run same ran kept, change⟩

end Tried

section Asked

variable {owner : IndexOwner σ} {before : Session σ} {operation : CursorOperation} {α : Type}
  {question : Cursor → Memory → Except Fault α} {word : α → CursorAnswer}

theorem ask_run {answer : Except Fault α}
    (found : question before.cursor before.memory = answer) :
    Session.ask question before = outcome answer before := by
  rw [Session.ask, get_bind, found, attempt_outcome]

variable (same : operation.run owner = do return word (← Session.ask question))
include same

theorem asked_run {answer : Except Fault α}
    (found : question before.cursor before.memory = answer) :
    operation.run owner before = outcome (answer.map word) before := by
  rw [same]
  exact bind_outcome (ask_run found) word

theorem asked_ends (asks : operation.asks = true) : Ends owner before operation := by
  cases found : question before.cursor before.memory with
  | error fault => exact .inl ⟨fault, asked_run same found⟩
  | ok a => exact .inr ⟨word a, before, asked_run same found, .asked asks⟩

end Asked

theorem operation_changes (owner : IndexOwner σ) (operation : CursorOperation) (before : Session σ)
    (stays : operation.moves = false) : Ends owner before operation := by
  cases operation with
  | bind | bindHeader => cases stays
  | headerMatches | header | read | readAll | readAs => exact asked_ends rfl rfl
  | lockKey => exact .inr ⟨_, _, rfl, .locked⟩
  | commit => exact .inr ⟨_, _, rfl, .committed⟩
  | putHeader =>
    apply tried_ends rfl
    intro memory ran
    obtain ⟨place, placed, writable, room, rfl⟩ := Cursor.put_header_ok ran
    exact ⟨_, _, rfl, .headed placed writable room⟩
  | write field value =>
    apply tried_ends rfl
    intro written ran
    exact ⟨_, _, rfl, write_change (fun _ _ => .inl rfl) ran _⟩
  | writePadded field text =>
    apply tried_ends rfl
    intro written ran
    obtain ⟨slot, known, ran⟩ := Cursor.write_padded_ok ran
    refine ⟨_, _, rfl, write_change ?_ ran _⟩
    intro found same
    cases known.symm.trans same
    exact .inr ⟨text, rfl, rfl⟩
  | setSequence field n =>
    apply tried_ends rfl
    intro memory ran
    obtain ⟨place, slot, value, counts, fits, put⟩ := Cursor.set_sequence_ok.mp ran
    exact ⟨_, _, rfl, .set counts fits put⟩
  | advance field =>
    apply tried_ends rfl
    rintro ⟨n, memory⟩ ran
    obtain ⟨place, slot, count, counts, room, rfl⟩ := Cursor.advance_ok ran
    exact ⟨_, _, rfl, .advanced counts room⟩
  | begin =>
    apply tried_ends rfl
    intro cursor ran
    obtain ⟨place, bytes, placed, found, rfl⟩ := Cursor.begin_ok ran
    exact ⟨_, _, rfl, .begun placed found⟩
  | rollback =>
    apply tried_ends rfl
    rintro ⟨restored, cursor, memory⟩ ran
    rcases Cursor.rollback_ok ran with ⟨rfl, rfl, rfl⟩ | ⟨bytes, saved, rfl, put, rfl⟩
    · exact ⟨_, _, rfl, .kept⟩
    · exact ⟨_, _, rfl, .restored saved put⟩

-- Every way in which a move can leave the record it came from.
inductive Move (before : Session σ) : CursorOperation → Except Fault CursorAnswer → Session σ → Prop
  | bare {buffer offset cursor} (bound : before.cursor.bind buffer offset = .ok cursor) :
      Move before (.bind buffer offset) (.ok .done) { before with cursor }
  | headed {buffer offset cursor memory} (bound : before.cursor.bind buffer offset = .ok cursor)
      (put : cursor.putHeader before.memory = .ok memory) :
      Move before (.bindHeader buffer offset) (.ok .done) { before with cursor, memory }
  | unheaded {buffer offset cursor fault} (bound : before.cursor.bind buffer offset = .ok cursor)
      (failed : cursor.putHeader before.memory = .error fault) :
      Move before (.bindHeader buffer offset) (.error fault) { before with cursor }

section Move

variable {before : Session σ} {cursor : Cursor} {buffer : View} {offset : UInt64} {memory : Memory}
  {fault : Fault}

theorem move_moves {operation : CursorOperation} {answer : Except Fault CursorAnswer}
    {after : Session σ} (move : Move before operation answer after) : operation.moves = true := by
  cases move with
  | bare | headed | unheaded => rfl

theorem move_run (bound : before.cursor.bind buffer offset = .ok cursor) :
    Session.bind buffer offset before = .ok ⟨⟩ { before with cursor } := by
  rw [Session.bind, get_bind, attempt_ok bound]
  rfl

theorem move_fault (failed : before.cursor.bind buffer offset = .error fault) :
    Session.bind buffer offset before = .error fault before := by
  rw [Session.bind, get_bind, attempt_error failed]

theorem bare_run {owner : IndexOwner σ} (bound : before.cursor.bind buffer offset = .ok cursor) :
    (CursorOperation.bind buffer offset).run owner before = .ok .done { before with cursor } :=
  bind_ok (move_run bound)

theorem headed_run {owner : IndexOwner σ} (bound : before.cursor.bind buffer offset = .ok cursor) :
    (CursorOperation.bindHeader buffer offset).run owner before =
      CursorOperation.putHeader.run owner { before with cursor } := bind_ok (move_run bound)

theorem put_header_run (put : before.cursor.putHeader before.memory = .ok memory) :
    Session.putHeader before = .ok ⟨⟩ { before with memory } := by
  rw [Session.putHeader, get_bind, attempt_ok put]
  rfl

theorem put_header_fault (failed : before.cursor.putHeader before.memory = .error fault) :
    Session.putHeader before = .error fault before := by
  rw [Session.putHeader, get_bind, attempt_error failed]

end Move

theorem operation_moves (owner : IndexOwner σ) (operation : CursorOperation) (before : Session σ)
    (moves : operation.moves = true) :
    (∃ fault, operation.run owner before = .error fault before) ∨
      ∃ answer after, operation.run owner before = outcome answer after ∧
        Move before operation answer after := by
  cases operation with
  | bind buffer offset =>
    cases bound : before.cursor.bind buffer offset with
    | error fault => exact .inl ⟨fault, bind_error (move_fault bound)⟩
    | ok cursor => exact .inr ⟨.ok .done, _, bare_run bound, .bare bound⟩
  | bindHeader buffer offset =>
    cases bound : before.cursor.bind buffer offset with
    | error fault => exact .inl ⟨fault, bind_error (move_fault bound)⟩
    | ok cursor =>
      let moved : Session σ := { before with cursor }
      cases put : moved.cursor.putHeader moved.memory with
      | ok memory =>
        exact .inr ⟨.ok .done, _, (headed_run bound).trans (bind_ok (put_header_run put)),
          .headed bound put⟩
      | error fault =>
        exact .inr ⟨.error fault, _,
          (headed_run bound).trans (bind_error (put_header_fault put)), .unheaded bound put⟩
  | _ => cases moves

theorem operation_outcome (owner : IndexOwner σ) (operation : CursorOperation)
    (before : Session σ) :
    ∃ answer after, operation.run owner before = outcome answer after ∧
      ((∃ fault, answer = .error fault ∧ after = before) ∨
        (∃ a, answer = .ok a ∧ Change owner before operation a after) ∨
        Move before operation answer after) := by
  cases moves : operation.moves with
  | false =>
    rcases operation_changes owner operation before moves with
      ⟨fault, ran⟩ | ⟨a, after, ran, change⟩
    · exact ⟨.error fault, before, ran, .inl ⟨fault, rfl, rfl⟩⟩
    · exact ⟨.ok a, after, ran, .inr (.inl ⟨a, rfl, change⟩)⟩
  | true =>
    rcases operation_moves owner operation before moves with
      ⟨fault, ran⟩ | ⟨answer, after, ran, move⟩
    · exact ⟨.error fault, before, ran, .inl ⟨fault, rfl, rfl⟩⟩
    · exact ⟨answer, after, ran, .inr (.inr move)⟩

end RecordStore
