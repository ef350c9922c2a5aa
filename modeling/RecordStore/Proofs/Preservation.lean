import RecordStore.Proofs.Step

namespace RecordStore

theorem inform_heads (cursor : Cursor) (memory : Memory) (indexes : List ValueIndex) (id : Nat)
    (slot : FieldSlot) (offset : UInt64) (value : Value) :
    (Cursor.inform indexOwner cursor memory indexes id slot offset value).map ValueIndex.head =
      indexes.map ValueIndex.head := by
  rw [Cursor.inform]
  split
  · simp only [indexOwner, List.map_map]
    apply List.map_congr_left
    intro index _
    by_cases here : index.field = id
    · simp [here]
    · simp [here]
  · rfl

theorem change_heads {before after : Session (List ValueIndex)} {operation : CursorOperation}
    {answer : CursorAnswer} (change : Change indexOwner before operation answer after) :
    after.owner.map ValueIndex.head = before.owner.map ValueIndex.head := by
  cases change with
  | written =>
    rw [inform_heads, Table.consult_owner]
  | refused => rw [Table.consult_owner]
  | _ => rfl

theorem move_session {σ : Type} {before after : Session σ} {operation : CursorOperation}
    {answer : Except Fault CursorAnswer} (move : Move before operation answer after) :
    after.owner = before.owner ∧ after.notices = before.notices ∧
      after.cursor.layout = before.cursor.layout ∧
      after.cursor.reports = before.cursor.reports := by
  cases move with
  | bare bound | headed bound | unheaded bound =>
    obtain ⟨-, -, rfl⟩ := Cursor.move_ok.mp bound
    exact ⟨rfl, rfl, rfl, rfl⟩

namespace Table

variable {before after : Table} {operation : TableOperation} {answer : Except Fault TableAnswer}

theorem step_framed (step : Step before operation answer after) : before.Framed after := by
  cases step <;> exact ⟨rfl, rfl, rfl, rfl, rfl⟩

section Counted

variable {contents : Contents}

theorem counted_framed (framed : before.Framed after) (counted : before.Counted contents) :
    after.Counted contents where
  count := by
    rw [framed.capacity]
    exact counted.count
  next := by
    rw [framed.slotStride]
    exact counted.next
  occupied := by
    rw [framed.slotStride]
    exact counted.occupied
  found := counted.found
  heads := by
    rw [framed.layout]
    exact counted.heads

theorem counted_indexes (counted : before.Counted contents) {indexes : List ValueIndex}
    (heads : indexes.map ValueIndex.head = contents.indexes.map ValueIndex.head) :
    before.Counted { contents with indexes } :=
  ⟨counted.count, counted.next, counted.occupied, counted.found, heads.trans counted.heads⟩

theorem count_next (room : before.isFull = false) :
    (before.contents.count + 1).toNat = before.contents.count.toNat + 1 := by
  have few := count_below room
  have small := before.capacity.toNat_lt
  have one : (1 : UInt64).toNat = 1 := rfl
  rw [UInt64.toNat_add, one]
  exact Nat.mod_eq_of_lt (by omega)

theorem free_next (formed : before.Formed) (room : before.isFull = false) :
    (before.contents.nextFree + before.slotStride).toNat =
      (before.contents.count.toNat + 1) * before.slotStride.toNat := by
  have few := count_below room
  have small := before.buffer.size.toNat_lt
  have below : (before.contents.count.toNat + 1) * before.slotStride.toNat ≤
      before.capacity.toNat * before.slotStride.toNat := Nat.mul_le_mul_right _ few
  have size := formed.size
  rw [Nat.succ_mul] at below ⊢
  rw [UInt64.toNat_add, formed.counted.next]
  exact Nat.mod_eq_of_lt (by omega)

theorem counted_enter (formed : before.Formed) (room : before.isFull = false)
    {indexes : List ValueIndex} (key : Int64)
    (heads : indexes.map ValueIndex.head = before.contents.indexes.map ValueIndex.head) :
    before.Counted (before.contents.enter indexes key before.slotStride) := by
  have counted := formed.counted
  refine ⟨?_, ?_, ?_, ?_, heads.trans counted.heads⟩
  · refine Nat.le_trans (Nat.le_of_eq (count_next room)) (count_below room)
  · refine (free_next formed room).trans ?_
    rw [← count_next room]
    rfl
  · intro offset
    change offset ∈ before.contents.occupied.insert before.contents.nextFree ↔
      ∃ i < (before.contents.count + 1).toNat, offset.toNat = i * before.slotStride.toNat
    rw [Std.ExtTreeSet.mem_insert, Std.LawfulEqCmp.compare_eq_iff_eq, count_next room,
      counted.occupied]
    constructor
    · rintro (rfl | ⟨i, few, position⟩)
      · exact ⟨before.contents.count.toNat, by omega, counted.next⟩
      · exact ⟨i, by omega, position⟩
    · intro shown
      obtain ⟨i, few, position⟩ := shown
      by_cases last : i = before.contents.count.toNat
      · left
        apply UInt64.toNat_inj.mp
        rw [position, last, counted.next]
      · exact .inr ⟨i, by omega, position⟩
  · intro other offset found
    change (before.contents.offsetByKey.insertIfNew key before.contents.nextFree)[other]? =
      some offset at found
    change offset ∈ before.contents.occupied.insert before.contents.nextFree
    rw [Std.ExtTreeSet.mem_insert, Std.LawfulEqCmp.compare_eq_iff_eq]
    rw [Std.ExtTreeMap.getElem?_insertIfNew] at found
    split at found
    · exact .inl (Option.some.inj found)
    · exact .inr (counted.found other offset found)

end Counted

theorem serves_framed {cursor : Cursor} (framed : before.Framed after)
    (serves : before.Serves cursor) : after.Serves cursor :=
  ⟨serves.shape.trans framed.layout.symm, serves.reports⟩

theorem serves_like {cursor other : Cursor} (serves : before.Serves cursor)
    (shape : other.layout = cursor.layout) (reports : other.reports = cursor.reports) :
    before.Serves other :=
  ⟨shape.trans serves.shape, reports.trans serves.reports⟩

theorem step_serves (step : Step before operation answer after) (finder : before.Serves before.finder)
    (walker : before.Serves before.walker) :
    before.Serves after.finder ∧ before.Serves after.walker := by
  cases step with
  | changed change =>
    have alike := Session.change_alike change
    exact settle_keeps finder walker fun serves => serves_like serves alike.layout alike.reports
  | moved move =>
    obtain ⟨-, -, layout, reports⟩ := move_session move
    exact settle_keeps finder walker fun serves => serves_like serves layout reports
  | appended | rejected | copied | found => exact ⟨⟨finder.shape, finder.reports⟩, walker⟩
  | walked => exact ⟨finder, ⟨walker.shape, walker.reports⟩⟩
  | _ => exact ⟨finder, walker⟩

theorem columns_framed {contents : Contents} (framed : before.Framed after)
    (columns : before.Columns contents) : after.Columns contents := by
  rw [Columns, framed.layout]
  exact columns

theorem step_columns (ready : before.Ready) (step : Step before operation answer after) :
    before.Columns after.contents := by
  cases step with
  | appended => exact (inform_heads _ _ _ _ _ _ _).trans ready.columns
  | copied =>
    refine Eq.trans ?_ ready.columns
    simp only [Contents.enter, Contents.register, List.map_map]
    rfl
  | undone saved => exact ready.saved _ _ saved
  | changed change => exact (change_heads change).trans ready.columns
  | moved move =>
    refine Eq.trans ?_ ready.columns
    exact congrArg (List.map ValueIndex.head) (move_session move).1
  | _ => exact ready.columns

theorem step_counted (formed : before.Formed) (step : Step before operation answer after) :
    before.Counted after.contents := by
  cases step with
  | appended room => exact counted_enter formed room _ (inform_heads _ _ _ _ _ _ _)
  | copied room =>
    apply counted_enter formed room
    rw [List.map_map]
    rfl
  | undone saved => exact formed.saved _ _ saved
  | changed change =>
    exact counted_indexes formed.counted (change_heads change)
  | moved move =>
    apply counted_indexes formed.counted
    rw [(move_session move).1]
    rfl
  | _ => exact formed.counted

theorem step_snapshot (step : Step before operation answer after) {bytes : Bytes}
    {contents : Contents} (saved : after.snapshot = some (bytes, contents)) :
    before.snapshot = some (bytes, contents) ∨
      bytes = before.bytes ∧ contents = before.contents := by
  cases step with
  | begun =>
    cases saved
    exact .inr ⟨rfl, rfl⟩
  | committed | undone => cases saved
  | _ => exact .inl saved

theorem step_ready (table : Table) (operation : TableOperation) (ready : table.Ready) :
    (table.step operation).Ready := by
  have step := ready_cases ready operation
  have framed := step_framed step
  obtain ⟨finder, walker⟩ := step_serves step ready.finder ready.walker
  refine ⟨step_sound table operation ready.sound, ?_, ?_, serves_framed framed finder,
    serves_framed framed walker, columns_framed framed (step_columns ready step), ?_⟩
  · rw [framed.layout]
    exact ready.packed
  · rw [framed.layout, framed.keyPosition]
    exact ready.key
  · intro bytes contents saved
    rcases step_snapshot step saved with old | ⟨-, rfl⟩
    · exact columns_framed framed (ready.saved bytes contents old)
    · exact columns_framed framed ready.columns

theorem after_ready (table : Table) (operations : List TableOperation) (ready : table.Ready) :
    (table.after operations).Ready := by
  induction operations generalizing table with
  | nil => exact ready
  | cons operation rest ih => exact ih (table.step operation) (step_ready table operation ready)

theorem step_saved (formed : before.Formed) (step : Step before operation answer after)
    {bytes : Bytes} {contents : Contents} (saved : after.snapshot = some (bytes, contents)) :
    before.Counted contents := by
  rcases step_snapshot step saved with old | ⟨-, rfl⟩
  · exact formed.saved bytes contents old
  · exact formed.counted

theorem step_formed (table : Table) (operation : TableOperation) (formed : table.Formed) :
    (table.step operation).Formed := by
  have step := step_cases formed operation
  have framed := step_framed step
  have ready := step_ready table operation (formed_ready formed)
  refine ⟨ready.sound, ready.packed, ready.key, ?_, ?_, ready.finder, ready.walker,
    counted_framed framed (step_counted formed step), ?_⟩
  · rw [framed.layout, framed.slotStride]
    exact formed.spaced
  · rw [framed.buffer, framed.capacity, framed.slotStride]
    exact formed.size
  · intro bytes contents saved
    exact counted_framed framed (step_saved formed step saved)

theorem after_formed (table : Table) (operations : List TableOperation) (formed : table.Formed) :
    (table.after operations).Formed := by
  induction operations generalizing table with
  | nil => exact formed
  | cons operation rest ih => exact ih (table.step operation) (step_formed table operation formed)

theorem key_known {layout : Layout} {id : Nat} {slot : FieldSlot} (packed : layout.Packed)
    (positioned : layout.keyPosition? = some id) (slotted : layout.keySlot? = some slot) :
    layout.fields[id]? = some slot ∧ slot.attrs.key = true := by
  have keyed := List.find?_some slotted
  obtain ⟨j, known⟩ := List.mem_iff_getElem?.mp (List.mem_of_find?_eq_some slotted)
  rw [Layout.keyPosition?, List.findIdx?_eq_some_iff_getElem] at positioned
  obtain ⟨bound, first, -⟩ := positioned
  have same := packed.oneKey id j _ slot (List.getElem?_eq_getElem bound) known first keyed
  rw [same]
  exact ⟨known, keyed⟩

section Create

variable {memory : Memory} {layout : Layout} {capacity : UInt64} {options : TableOptions}
  {table : Table}

theorem blank_counted (table : Table) : table.Counted (Contents.blank table.layout) where
  count := Nat.zero_le _
  next := (Nat.zero_mul _).symm
  occupied := by
    intro offset
    constructor
    · intro member
      exact absurd member Std.ExtTreeSet.not_mem_empty
    · intro shown
      obtain ⟨i, few, -⟩ := shown
      exact absurd few (Nat.not_lt_zero i)
  found := by
    intro key offset found
    rw [Contents.blank, Std.ExtTreeMap.getElem?_empty] at found
    cases found
  heads := rfl

theorem create_ready (created : create memory (some layout) capacity options = .ok table)
    (packed : layout.Packed) : table.Ready := by
  obtain ⟨known, same, made⟩ := create_ok created
  cases same
  have shape := made.shape
  obtain ⟨slot, positioned, slotted, integer⟩ := made.key
  obtain ⟨column, keyed⟩ := key_known packed positioned slotted
  refine ⟨create_sound created, ?_, ⟨slot, ?_, keyed, integer⟩, ?_, ?_, ?_, ?_⟩
  · rw [shape]
    exact packed
  · rw [shape]
    exact column
  · rw [made.finder]
    exact ⟨shape.symm, rfl⟩
  · rw [made.walker]
    exact ⟨shape.symm, rfl⟩
  · rw [Columns, made.contents, shape]
  · intro bytes contents saved
    rw [made.snapshot] at saved
    cases saved

theorem create_formed (created : create memory (some layout) capacity options = .ok table)
    (packed : layout.Packed)
    (wide : layout.stride.toNat + options.slotPadding.toNat < UInt64.size) : table.Formed := by
  have ready := create_ready created packed
  obtain ⟨known, same, made⟩ := create_ok created
  cases same
  have shape := made.shape
  refine ⟨ready.sound, ready.packed, ready.key, ?_, made_size made, ready.finder, ready.walker, ?_, ?_⟩
  · rw [shape, made.spacing, UInt64.toNat_add, Nat.mod_eq_of_lt wide]
    omega
  · rw [made.contents, ← shape]
    exact blank_counted table
  · intro bytes contents saved
    rw [made.snapshot] at saved
    cases saved

end Create

end Table

end RecordStore
