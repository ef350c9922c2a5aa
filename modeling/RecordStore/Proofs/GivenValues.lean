import RecordStore.Proofs.Entry
import RecordStore.Proofs.RoundTrip

/-!
The values that a run gives to the fields. Replacing a value takes no gift back; only a rollback of
the table does.
-/

namespace RecordStore

def CursorOperation.gives : CursorOperation → CursorAnswer → List (Nat × Value)
  | write field value, .truth true => [(field, value.stored)]
  | writePadded field text, .truth true => [(field, (Value.text text).stored)]
  | _, _ => []

def FieldWrite.work (field : Nat) : FieldWrite → CursorOperation
  | plain value => .write field value
  | padded text => .writePadded field text

section Work

variable {σ : Type} {owner : IndexOwner σ} {session : Session σ} {write : FieldWrite} {field : Nat}

theorem FieldWrite.work_run {written : Written σ}
    (ran : write.run owner session.cursor session.memory session.owner field = .ok written) :
    (write.work field).run owner session =
      outcome (.ok (.truth written.accepted)) { session with
        memory := written.memory
        owner := written.owner
        notices := session.notices ++ written.notices } := by
  cases write with
  | plain value =>
    apply bind_ok
    rw [Session.write, Session.settle, get_bind]
    exact attempt_ok ran _ _
  | padded text =>
    apply bind_ok
    rw [Session.writePadded, Session.settle, get_bind]
    exact attempt_ok ran _ _

theorem FieldWrite.work_fault {fault : Fault}
    (failed : write.run owner session.cursor session.memory session.owner field = .error fault) :
    (write.work field).run owner session = outcome (.error fault) session := by
  cases write with
  | plain value =>
    apply bind_error
    rw [Session.write, Session.settle, get_bind]
    exact attempt_error failed _ _
  | padded text =>
    apply bind_error
    rw [Session.writePadded, Session.settle, get_bind]
    exact attempt_error failed _ _

end Work

def TableOperation.copies : TableOperation → Bool
  | appendCopy .. => true
  | _ => false

-- What the fields were given so far, and what they had been given when the pending transaction began.
structure Gifts where
  now : List (Nat × Value) := []
  saved : Option (List (Nat × Value)) := none
deriving DecidableEq

namespace Table

def shown (table : Table) : List (Nat × Value) :=
  (List.range table.layout.fields.length).filterMap fun id =>
    match table.finder.read table.memory id with
    | .ok value => some (id, value)
    | .error _ => none

def gives (table : Table) : TableOperation → Except Fault TableAnswer → List (Nat × Value)
  | .append key, .ok (.truth true) =>
    match table.keyValue key with
    | .ok value => [(table.keyPosition, value.stored)]
    | .error _ => []
  | .appendCopy source offset, .ok (.truth true) =>
    (table.step (.appendCopy source offset)).shown
  | .on _ work, .ok (.record reply) => work.gives reply
  | _, _ => []

end Table

namespace Gifts

def note (gifts : Gifts) (table : Table) : TableOperation → Except Fault TableAnswer → Gifts
  | .begin, .ok .done => { gifts with saved := some gifts.now }
  | .commit, .ok .done => { gifts with saved := none }
  | .rollback, .ok (.truth true) => { now := gifts.saved.getD gifts.now }
  | operation, answer => { gifts with now := gifts.now ++ table.gives operation answer }

section Note

variable {gifts : Gifts} {table : Table} {operation : TableOperation}

theorem note_idle {answer : Except Fault TableAnswer} (plain : operation.transacts = false)
    (nothing : table.gives operation answer = []) : gifts.note table operation answer = gifts := by
  have same : gifts.note table operation answer =
      { gifts with now := gifts.now ++ table.gives operation answer } := by
    cases operation with
    | begin | commit | rollback => cases plain
    | _ => rfl
  rw [same, nothing, List.append_nil]

theorem note_error {fault : Fault} : gifts.note table operation (.error fault) = gifts := by
  cases operation <;> simp [note, Table.gives]

theorem note_refused : gifts.note table operation (.ok (.truth false)) = gifts := by
  cases operation <;> simp [note, Table.gives]

end Note

end Gifts

def Table.given (table : Table) (gifts : Gifts) : List TableOperation → Gifts
  | [] => gifts
  | operation :: rest =>
    (table.step operation).given (gifts.note table operation (table.answer operation)) rest

structure Enters (before after : List ValueIndex) (gifts : List (Nat × Value)) (fields : List Nat)
    (offset : UInt64) (values : Nat → Value) : Prop where
  indexes : after = before.map (ValueIndex.enterAll fields offset values)
  gifts : ∀ index ∈ before, ∀ value,
    (index.field, value) ∈ gifts ↔ index.field ∈ fields ∧ value = values index.field

theorem enters_nothing (indexes : List ValueIndex) :
    Enters indexes indexes [] [] 0 fun _ => .bool false := by
  refine ⟨?_, fun index member value => ?_⟩
  · exact (List.map_id _).symm
  · simp

theorem enters_one {indexes : List ValueIndex} {field : Nat} {offset : UInt64} {value : Value} :
    Enters indexes (indexes.map (ValueIndex.enterAll [field] offset fun _ => value))
      [(field, value)] [field] offset fun _ => value := by
  refine ⟨rfl, fun index member other => ?_⟩
  simp

def AllFree (indexes : List ValueIndex) (fields : List Nat) (values : Nat → Value) : Prop :=
  ∀ index ∈ indexes, index.unique = true → index.field ∈ fields →
    index.isFree (values index.field) = true

inductive Gain (before : Table) (operation : TableOperation) (after : Table) (gifts later : Gifts) :
    Prop
  | entered {given : List (Nat × Value)} {fields : List Nat} {offset : UInt64} {values : Nat → Value}
      (enters : Enters before.contents.indexes after.contents.indexes given fields offset values)
      (free : operation.copies = false → AllFree before.contents.indexes fields values)
      (now : later.now = gifts.now ++ given) (kept : later.saved = gifts.saved)
      (snapshot : after.snapshot = before.snapshot)
  | begun (contents : after.contents = before.contents) (now : later.now = gifts.now)
      (kept : later.saved = some gifts.now)
      (snapshot : after.snapshot = some (before.bytes, before.contents))
  | committed (contents : after.contents = before.contents) (now : later.now = gifts.now)
      (snapshot : after.snapshot = none)
  | undone {bytes : Bytes} (saved : before.snapshot = some (bytes, after.contents))
      (now : later.now = gifts.saved.getD gifts.now) (snapshot : after.snapshot = none)

namespace Table

section Gain

variable {before after : Table} {operation : TableOperation} {gifts : Gifts} {cursor : Cursor}
  {field : Nat} {slot : FieldSlot} {value : Value}

theorem gain_idle {later : Gifts} (contents : after.contents = before.contents)
    (snapshot : after.snapshot = before.snapshot) (same : later = gifts) :
    Gain before operation after gifts later := by
  subst same
  refine @Gain.entered _ _ _ _ _ [] [] 0 (fun _ => .bool false) ?_ ?_ (List.append_nil _).symm rfl
    snapshot
  · rw [contents]
    exact enters_nothing _
  · intro _ index _ _ entered
    cases entered

theorem consult_index (columns : before.Columns before.contents) (serves : before.Serves cursor)
    (known : before.layout.fields[field]? = some slot) {index : ValueIndex}
    (member : index ∈ before.contents.indexes) (unique : index.unique = true)
    (here : index.field = field) {memory : Memory} :
    (Cursor.consult indexOwner cursor memory before.contents.indexes field slot value).1 =
      index.isFree value.stored := by
  subst here
  obtain ⟨column, same, indexed, mark⟩ := head_of_mem columns member
  cases known.symm.trans same
  have found := Contents.index_of_mem (fields_nodup columns) member
  rw [Cursor.consult, indexed, serves.reports, ← mark, unique]
  simp [indexOwner, found]

theorem consult_free (columns : before.Columns before.contents) (serves : before.Serves cursor)
    (known : before.layout.fields[field]? = some slot) {memory : Memory}
    (free : (Cursor.consult indexOwner cursor memory before.contents.indexes field slot value).1 =
      true) : AllFree before.contents.indexes [field] fun _ => value.stored := by
  intro index member unique entered
  rw [← free]
  exact (consult_index columns serves known member unique (List.mem_singleton.mp entered)).symm

theorem writes_gives {work : CursorOperation} (writes : work.Writes field slot value)
    (accepted : Bool) :
    work.gives (.truth accepted) = if accepted then [(field, value.stored)] else [] := by
  rcases writes with rfl | ⟨text, rfl, rfl⟩
  · cases accepted <;> rfl
  · rw [FieldWrite.padded_stored]
    cases accepted <;> rfl

theorem change_enters (columns : before.Columns before.contents) (serves : before.Serves cursor)
    {work : CursorOperation} {reply : CursorAnswer} {session : Session (List ValueIndex)}
    (change : Change indexOwner (before.session cursor) work reply session) :
    ∃ fields offset values, Enters before.contents.indexes session.owner (work.gives reply) fields
      offset values ∧ AllFree before.contents.indexes fields values := by
  have idle (nothing : work.gives reply = []) (same : session.owner = before.contents.indexes) :
      ∃ fields offset values, Enters before.contents.indexes session.owner (work.gives reply) fields
        offset values ∧ AllFree before.contents.indexes fields values := by
    refine ⟨[], 0, fun _ => .bool false, ?_, ?_⟩
    · rw [nothing, same]
      exact enters_nothing _
    · intro index _ _ entered
      cases entered
  cases change with
  | @written work field value place slot memory notices writes accepts free =>
    have known : before.layout.fields[field]? = some slot := by
      rw [← serves.shape]
      exact accepts.field
    refine ⟨[field], place.offset, fun _ => value.stored, ?_, consult_free columns serves known free⟩
    rw [writes_gives writes true, if_pos rfl]
    dsimp only
    rw [consult_owner, session_cursor, session_owner, inform_all columns serves known]
    exact enters_one
  | refused writes =>
    apply idle
    · rw [writes_gives writes false]
      rfl
    · exact consult_owner _ _ _ _ _ _
  | asked asks =>
    refine idle ?_ rfl
    cases work with
    | headerMatches | header | read | readAll | readAs => rfl
    | _ => cases asks
  | _ => exact idle rfl rfl

theorem mem_shown {id : Nat} :
    (id, value) ∈ before.shown ↔
      id < before.layout.fields.length ∧ before.finder.read before.memory id = .ok value := by
  rw [shown, List.mem_filterMap]
  constructor
  · intro found
    obtain ⟨other, few, kept⟩ := found
    split at kept
    · rename_i held read
      cases kept
      exact ⟨List.mem_range.mp few, read⟩
    · cases kept
  · intro held
    obtain ⟨few, read⟩ := held
    refine ⟨id, List.mem_range.mpr few, ?_⟩
    rw [read]

theorem copied_enters (ready : before.Ready) {offset : UInt64} {held : Nat → Value}
    (layout : after.layout = before.layout) (shape : after.finder.layout = before.layout)
    (placed : after.finder.place = some ⟨before.buffer, offset⟩)
    (reads : before.Reads after.memory offset held)
    (reach : offset.toNat + before.layout.stride.toNat ≤ before.buffer.size.toNat) :
    Enters before.contents.indexes
      (before.contents.indexes.map fun index => index.assign offset (held index.field)) after.shown
      (before.contents.indexes.map (·.field)) offset held := by
  refine ⟨?_, fun index member value => ?_⟩
  · apply List.map_congr_left
    intro index member
    exact (if_pos (List.mem_map.mpr ⟨index, member, rfl⟩)).symm
  · obtain ⟨slot, column, indexed, -⟩ := head_of_mem ready.columns member
    have holds : Place.Holds ⟨before.buffer, offset⟩ before.layout := reach
    have read : after.finder.read after.memory index.field = .ok (held index.field) := by
      rw [Cursor.read_placed placed (by rw [shape]; exact column)]
      exact (read_slot_ok ready.packed column holds).mpr (reads index.field slot column indexed)
    have few : index.field < before.layout.fields.length :=
      (List.getElem?_eq_some_iff.mp column).1
    have entered : index.field ∈ before.contents.indexes.map (·.field) :=
      List.mem_map.mpr ⟨index, member, rfl⟩
    rw [mem_shown, layout, read]
    simp [few, entered, eq_comm]

theorem step_gains (ready : before.Ready) (operation : TableOperation) (gifts : Gifts) :
    Gain before operation (before.step operation) gifts
      (gifts.note before operation (before.answer operation)) := by
  have step := ready_cases ready operation
  rw [Steps] at step
  generalize answered : before.answer operation = answer at step
  generalize stepped : before.step operation = after at step
  cases step with
  | failed | stuck => exact gain_idle rfl rfl Gifts.note_error
  | refused | rejected => exact gain_idle rfl rfl Gifts.note_refused
  | asked asks =>
    refine gain_idle rfl rfl ?_
    cases operation with
    | hasKey | offsetOfIndex | withValue | hasMore => exact Gifts.note_idle rfl rfl
    | _ => cases asks
  | found target =>
    refine gain_idle rfl rfl ?_
    cases operation with
    | seekKey | seekIndex | seekOffset => exact Gifts.note_idle rfl rfl
    | _ => cases target
  | walked | rewound | poked => exact gain_idle rfl rfl (Gifts.note_idle rfl rfl)
  | begun => exact .begun rfl rfl rfl rfl
  | committed => exact .committed rfl rfl rfl
  | undone saved => exact .undone saved rfl rfl
  | @appended key value slot memory notices room fresh known fits free =>
    have given : before.gives (.append key) (.ok (.truth true)) =
        [(before.keyPosition, value.stored)] := by
      rw [gives, fits]
    have enters : Enters before.contents.indexes
        (before.told slot before.contents.nextFree value)
        (before.gives (.append key) (.ok (.truth true))) [before.keyPosition]
        before.contents.nextFree fun _ => value.stored := by
      rw [given, told, inform_all ready.columns ready.finder known]
      exact enters_one
    exact .entered enters (fun _ => consult_free ready.columns ready.finder known free) rfl rfl rfl
  | @copied source sourceOffset key memory held notices room read fresh brings reads reach =>
    have enters : Enters before.contents.indexes
        (before.contents.indexes.map fun index =>
          index.assign before.contents.nextFree (held index.field))
        (before.gives (.appendCopy source sourceOffset) (.ok (.truth true)))
        (before.contents.indexes.map (·.field)) before.contents.nextFree held := by
      rw [gives, stepped]
      exact copied_enters ready rfl ready.finder.shape rfl reads reach
    refine .entered enters ?_ rfl rfl rfl
    intro uncopied
    cases uncopied
  | @changed role _ _ _ change =>
    obtain ⟨fields, offset, values, enters, free⟩ :=
      change_enters ready.columns (ready_cursor ready role) change
    exact .entered enters (fun _ => free) rfl rfl rfl
  | moved move =>
    cases move <;> exact gain_idle rfl rfl (Gifts.note_idle rfl rfl)

end Gain

end Table

end RecordStore
