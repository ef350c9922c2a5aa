import RecordStore.Proofs.CursorPlaces
import RecordStore.Proofs.Index

namespace RecordStore

namespace Contents

theorem index_of_mem {indexes : List ValueIndex} (distinct : (indexes.map (·.field)).Nodup)
    {index : ValueIndex} (member : index ∈ indexes) :
    index? indexes index.field = some index := by
  induction indexes with
  | nil => cases member
  | cons first rest ih =>
    rw [List.map_cons, List.nodup_cons] at distinct
    rw [index?, List.find?_cons]
    rcases List.mem_cons.mp member with rfl | later
    · simp
    · have differ : first.field ≠ index.field := fun same =>
        distinct.1 (same ▸ List.mem_map.mpr ⟨index, later, rfl⟩)
      rw [beq_false_of_ne differ]
      exact ih distinct.2 later

theorem mem_of_index {indexes : List ValueIndex} {field : Nat} {index : ValueIndex}
    (found : index? indexes field = some index) : index ∈ indexes ∧ index.field = field := by
  refine ⟨List.mem_of_find?_eq_some found, ?_⟩
  have same := List.find?_some found
  simpa using same

end Contents

def ValueIndex.enterAll (fields : List Nat) (offset : UInt64) (values : Nat → Value)
    (index : ValueIndex) : ValueIndex :=
  if index.field ∈ fields then index.assign offset (values index.field) else index

section Inform

variable {cursor : Cursor} {memory : Memory} {indexes : List ValueIndex} {id : Nat}
  {slot : FieldSlot} {offset : UInt64} {value : Value}

theorem inform_indexed (reports : cursor.reports = true) (indexed : slot.attrs.indexed = true) :
    Cursor.inform indexOwner cursor memory indexes id slot offset value =
      indexes.map (ValueIndex.enterAll [id] offset fun _ => value.stored) := by
  rw [Cursor.inform, reports, indexed, Bool.and_true, if_pos rfl]
  apply List.map_congr_left
  intro index _
  simp [ValueIndex.enterAll]

theorem inform_plain (plain : slot.attrs.indexed = false) :
    Cursor.inform indexOwner cursor memory indexes id slot offset value = indexes := by
  rw [Cursor.inform, plain, Bool.false_and, if_neg Bool.false_ne_true]

end Inform

inductive Grown (before : List ValueIndex) (allowed : UInt64 → Prop) : ValueIndex → Prop
  | same {index} (member : index ∈ before) : Grown before allowed index
  | entered {index offset value} (member : index ∈ before) (fine : allowed offset) :
      Grown before allowed (index.assign offset value)

theorem enter_grown {indexes : List ValueIndex} {allowed : UInt64 → Prop} {fields : List Nat}
    {offset : UInt64} {values : Nat → Value} (fine : allowed offset) :
    ∀ index ∈ indexes.map (ValueIndex.enterAll fields offset values),
      Grown indexes allowed index := by
  intro index member
  obtain ⟨old, known, rfl⟩ := List.mem_map.mp member
  rw [ValueIndex.enterAll]
  split
  · exact .entered known fine
  · exact .same known

theorem inform_grown {cursor : Cursor} {memory : Memory} {indexes : List ValueIndex} {id : Nat}
    {slot : FieldSlot} {offset : UInt64} {value : Value} {allowed : UInt64 → Prop}
    (reports : cursor.reports = true) (fine : slot.attrs.indexed = true → allowed offset) :
    ∀ index ∈ Cursor.inform indexOwner cursor memory indexes id slot offset value,
      Grown indexes allowed index := by
  cases indexed : slot.attrs.indexed with
  | true =>
    rw [inform_indexed reports indexed]
    exact enter_grown (fine indexed)
  | false =>
    rw [inform_plain indexed]
    exact fun index member => .same member

namespace Table

def through? (table : Table) : TableOperation → Option (Cursor × CursorOperation)
  | .on role work => some (table.cursor role, work)
  | _ => none

-- A write to an indexed field goes through although its cursor stands on no record.
def Strays (table : Table) (operation : TableOperation) : Prop :=
  ∃ cursor work place field slot value,
    table.through? operation = some (cursor, work) ∧ cursor.place = some place ∧
    table.layout.fields[field]? = some slot ∧ slot.attrs.indexed = true ∧
    work.Writes field slot value ∧ place.offset ∉ table.contents.occupied ∧
    table.answer operation = .ok (.record (.truth true))

section Step

variable {before after : Table} {operation : TableOperation}

theorem with_value_iff (columns : before.Columns before.contents) {field : Nat} {value : Value}
    {offsets : List UInt64} : before.withValue field value = .ok offsets ↔
      ∃ index ∈ before.contents.indexes, index.field = field ∧
        index.offsetsOf value = offsets := by
  rw [withValue]
  constructor
  · intro found
    split at found
    · rename_i index known
      obtain ⟨member, same⟩ := Contents.mem_of_index known
      exact ⟨index, member, same, Except.ok.inj found⟩
    · cases found
  · intro shown
    obtain ⟨index, member, rfl, rfl⟩ := shown
    rw [Contents.index_of_mem (fields_nodup columns) member]

theorem with_value_ok (formed : before.Formed) {field : Nat} {value : Value}
    {offsets : List UInt64} : before.withValue field value = .ok offsets ↔
      ∃ index ∈ before.contents.indexes, index.field = field ∧
        index.offsetsOf value = offsets :=
  with_value_iff formed.counted.heads

theorem inform_all {cursor : Cursor} (columns : before.Columns before.contents)
    (serves : before.Serves cursor) {memory : Memory} {field : Nat} {slot : FieldSlot}
    {offset : UInt64} {value : Value} (known : before.layout.fields[field]? = some slot) :
    Cursor.inform indexOwner cursor memory before.contents.indexes field slot offset value =
      before.contents.indexes.map (ValueIndex.enterAll [field] offset fun _ => value.stored) := by
  cases indexed : slot.attrs.indexed with
  | true => exact inform_indexed serves.reports indexed
  | false =>
    rw [inform_plain indexed]
    have same : ∀ index ∈ before.contents.indexes,
        ValueIndex.enterAll [field] offset (fun _ => value.stored) index = index := by
      intro index member
      obtain ⟨other, column, also, -⟩ := head_of_mem columns member
      rw [ValueIndex.enterAll, if_neg]
      intro here
      rw [List.mem_singleton.mp here] at column
      cases known.symm.trans column
      rw [indexed] at also
      cases also
    exact ((List.map_congr_left same).trans (List.map_id' _)).symm

theorem change_grown {cursor : Cursor} {work : CursorOperation} {answer : CursorAnswer}
    {session : Session (List ValueIndex)} (serves : before.Serves cursor)
    (through : before.through? operation = some (cursor, work))
    (answered : before.answer operation = .ok (.record answer))
    (change : Change indexOwner (before.session cursor) work answer session) :
    ∀ index ∈ session.owner, Grown before.contents.indexes
      (fun offset => offset ∈ before.contents.occupied ∨ before.Strays operation) index := by
  cases change with
  | @written work field value place slot memory notices writes accepts free put =>
    dsimp only
    rw [consult_owner]
    apply inform_grown serves.reports
    intro indexed
    by_cases occupied : place.offset ∈ before.contents.occupied
    · exact .inl occupied
    · have known : before.layout.fields[field]? = some slot := by
        rw [← serves.shape]
        exact accepts.field
      exact .inr ⟨cursor, work, place, field, slot, value, through, accepts.placed, known, indexed,
        writes, occupied, answered⟩
  | refused =>
    dsimp only
    rw [consult_owner]
    exact fun index member => .same member
  | _ => exact fun index member => .same member

theorem move_grown {allowed : UInt64 → Prop} {cursor : Cursor} {work : CursorOperation}
    {answer : Except Fault CursorAnswer} {session : Session (List ValueIndex)}
    (move : Move (before.session cursor) work answer session) :
    ∀ index ∈ session.owner, Grown before.contents.indexes allowed index := by
  rw [(move_session move).1]
  exact fun index member => .same member

theorem through_change {cursor : Cursor} {work : CursorOperation} {answer : TableAnswer}
    (through : before.through? operation = some (cursor, work)) (stays : work.moves = false)
    (step : Step before operation (.ok answer) after) :
    ∃ reply session, Change indexOwner (before.session cursor) work reply session ∧
      answer = .record reply ∧
      after.contents = { before.contents with indexes := session.owner } := by
  cases operation with
  | on role asked =>
    cases through
    generalize same : Except.ok answer = outcome at step
    cases step with
    | changed change =>
      cases same
      exact ⟨_, _, change, rfl, rfl⟩
    | moved move => exact absurd (move_moves move) (Bool.eq_false_iff.mp stays)
    | failed => cases same
    | refused reason => exact reason.elim
    | asked asks => cases asks
    | found target => cases target
  | _ => cases through

theorem step_entries (formed : before.Formed)
    (step : Step before operation (before.answer operation) after) :
    ((∀ index ∈ after.contents.indexes, Grown before.contents.indexes
        (fun offset => offset ∈ after.contents.occupied ∨ before.Strays operation) index) ∧
      ∀ offset ∈ before.contents.occupied, offset ∈ after.contents.occupied) ∨
    ∃ bytes, before.snapshot = some (bytes, after.contents) := by
  generalize answered : before.answer operation = answer at step
  have inserted (offset : UInt64) : offset ∈ before.contents.occupied.insert offset :=
    Std.ExtTreeSet.mem_insert_self
  have older (entered : UInt64) : ∀ offset ∈ before.contents.occupied,
      offset ∈ before.contents.occupied.insert entered := fun offset member =>
    Std.ExtTreeSet.mem_insert.mpr (.inr member)
  cases step with
  | appended =>
    refine .inl ⟨?_, older _⟩
    exact inform_grown formed.finder.reports fun _ => .inl (inserted _)
  | copied =>
    refine .inl ⟨fun index member => ?_, older _⟩
    obtain ⟨old, known, rfl⟩ := List.mem_map.mp member
    exact .entered known (.inl (inserted _))
  | undone saved => exact .inr ⟨_, saved⟩
  | @changed role _ _ _ change =>
    exact .inl ⟨change_grown (formed_cursor formed role) rfl answered change,
      fun _ member => member⟩
  | moved move =>
    exact .inl ⟨move_grown move, fun _ member => member⟩
  | _ => exact .inl ⟨fun index member => .same member, fun _ member => member⟩

end Step

end Table

end RecordStore
