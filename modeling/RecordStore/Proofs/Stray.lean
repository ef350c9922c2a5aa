import RecordStore.Proofs.Entry

/-!
A rollback takes records away but leaves the cursors where they are, and a write through a cursor
whose record is gone still enters its value. These writes, and nothing else, make an index list an
offset without a record.
-/

namespace RecordStore.Table

def Listed (contents : Contents) : Prop :=
  ∀ index ∈ contents.indexes, index.Paired ∧ ∀ (offset : UInt64) (value : Value),
    index.values[offset]? = some value → offset ∈ contents.occupied

structure Lists (table : Table) : Prop where
  now : Listed table.contents
  saved : ∀ (bytes : Bytes) (contents : Contents), table.snapshot = some (bytes, contents) →
    Listed contents

theorem blank_listed (layout : Layout) : Listed (Contents.blank layout) := by
  intro index member
  obtain ⟨field, unique, rfl⟩ := Contents.blank_new member
  refine ⟨ValueIndex.new_paired _ _, fun offset value held => ?_⟩
  simp at held

theorem create_lists {memory : Memory} {layout : Option Layout} {capacity : UInt64}
    {options : TableOptions} {table : Table}
    (created : create memory layout capacity options = .ok table) : table.Lists := by
  obtain ⟨known, -, made⟩ := create_ok created
  refine ⟨?_, fun bytes contents saved => ?_⟩
  · rw [made.contents]
    exact blank_listed known
  · rw [made.snapshot] at saved
    cases saved

theorem grown_listed {before after : Contents} (listed : Listed before)
    (grown : ∀ index ∈ after.indexes,
      Grown before.indexes (fun offset => offset ∈ after.occupied) index)
    (older : ∀ offset ∈ before.occupied, offset ∈ after.occupied) : Listed after := by
  intro index member
  cases grown index member with
  | same known =>
    obtain ⟨paired, records⟩ := listed index known
    exact ⟨paired, fun offset value held => older offset (records offset value held)⟩
  | @entered old entered value known fine =>
    obtain ⟨paired, records⟩ := listed old known
    refine ⟨ValueIndex.assign_paired paired entered value, fun offset other held => ?_⟩
    rw [ValueIndex.assign_values] at held
    split at held
    · rename_i here
      rw [here]
      exact fine
    · exact older offset (records offset other held)

theorem step_lists (table : Table) (operation : TableOperation) (formed : table.Formed)
    (lists : table.Lists) (straight : ¬ table.Strays operation) :
    (table.step operation).Lists := by
  have step := step_cases formed operation
  refine ⟨?_, fun bytes contents saved => ?_⟩
  · rcases step_entries formed step with ⟨grown, older⟩ | ⟨bytes, saved⟩
    · refine grown_listed lists.now (fun index member => ?_) older
      cases grown index member with
      | same known => exact .same known
      | entered known fine => exact .entered known (fine.resolve_right straight)
    · exact lists.saved _ _ saved
  · rcases step_snapshot step saved with old | ⟨-, rfl⟩
    · exact lists.saved bytes contents old
    · exact lists.now

def ListsRecords (table : Table) : Prop :=
  ∀ field value offsets, table.withValue field value = .ok offsets → ∀ offset ∈ offsets,
    offset ∈ table.contents.occupied ∧ table.answer (.seekOffset offset) = .ok (.truth true)

theorem lists_records {table : Table} (formed : table.Formed) (homed : table.Homed)
    (lists : table.Lists) : table.ListsRecords := by
  intro field value offsets found offset member
  obtain ⟨index, known, -, rfl⟩ := (with_value_ok formed).mp found
  obtain ⟨paired, records⟩ := lists.now index known
  have held := (paired.agree value offset).mp (ValueIndex.mem_offsets_of.mp member)
  have occupied := records offset value held
  have target : table.target? (.seekOffset offset) = some offset :=
    if_pos (Std.ExtTreeSet.contains_iff_mem.mpr occupied)
  exact ⟨occupied, (seek_succeeds formed homed target).1⟩

theorem writes_field {work : CursorOperation} {first second : Nat} {one other : FieldSlot}
    {value last : Value} (writes : work.Writes first one value)
    (again : work.Writes second other last) : first = second := by
  rcases writes with rfl | ⟨text, rfl, -⟩
  · rcases again with same | ⟨text, same, -⟩
    · cases same
      rfl
    · cases same
  · rcases again with same | ⟨text, same, -⟩
    · cases same
    · cases same
      rfl

theorem written_held {table : Table} {cursor : Cursor} {work : CursorOperation} {place : Place}
    {field : Nat} {slot : FieldSlot} {value : Value} {session : Session (List ValueIndex)}
    (formed : table.Formed) (serves : table.Serves cursor) (placed : cursor.place = some place)
    (known : table.layout.fields[field]? = some slot) (indexed : slot.attrs.indexed = true)
    (writes : work.Writes field slot value)
    (change : Change indexOwner (table.session cursor) work (.truth true) session) :
    ∃ index ∈ session.owner, ∃ held, index.field = field ∧
      place.offset ∈ ValueIndex.heldBy index.holders held := by
  cases change with
  | @written _ other last found column memory notices written accepts free put =>
    have same := writes_field writes written
    subst same
    cases placed.symm.trans accepts.placed
    have field := accepts.field
    rw [session_cursor, serves.shape, known] at field
    cases field
    obtain ⟨index, member, head⟩ := mem_of_indexed formed.counted known indexed
    refine ⟨index.assign place.offset last.stored, ?_, last.stored, head, ?_⟩
    · have told : Cursor.inform indexOwner (table.session cursor).cursor memory
          (table.session cursor).owner field slot place.offset last =
            table.contents.indexes.map
              (ValueIndex.enterAll [field] place.offset fun _ => last.stored) :=
        inform_indexed serves.reports indexed
      dsimp only
      rw [consult_owner, told]
      refine List.mem_map.mpr ⟨index, member, ?_⟩
      rw [ValueIndex.enterAll, if_pos (List.mem_singleton.mpr head)]
    · exact ValueIndex.assign_holds index place.offset last.stored
  | asked asks =>
    rcases writes with rfl | ⟨text, rfl, -⟩
    · cases asks
    · cases asks
  | restored => rcases writes with same | ⟨text, same, -⟩ <;> cases same

theorem writes_stays {work : CursorOperation} {field : Nat} {slot : FieldSlot} {value : Value}
    (writes : work.Writes field slot value) : work.moves = false := by
  rcases writes with rfl | ⟨text, rfl, -⟩
  · rfl
  · rfl

theorem stray_breaks {table : Table} {operation : TableOperation} (formed : table.Formed)
    (strays : table.Strays operation) : ¬ (table.step operation).ListsRecords := by
  obtain ⟨cursor, work, place, field, slot, value, through, placed, known, indexed, writes, gone,
    answered⟩ := strays
  intro lists
  have after := step_formed table operation formed
  have step : Step table operation (table.answer operation) (table.step operation) :=
    step_cases formed operation
  rw [answered] at step
  obtain ⟨reply, session, change, same, contents⟩ :=
    through_change through (writes_stays writes) step
  cases same
  have serves : table.Serves cursor := by
    cases operation with
    | on role =>
      cases through
      exact formed_cursor formed role
    | _ => cases through
  obtain ⟨index, member, held, head, holds⟩ :=
    written_held formed serves placed known indexed writes change
  have listed : index ∈ (table.step operation).contents.indexes := by
    rw [contents]
    exact member
  have found : (table.step operation).withValue field held = .ok (index.offsetsOf held) :=
    (with_value_ok after).mpr ⟨index, listed, head, rfl⟩
  obtain ⟨there, -⟩ := lists field held _ found place.offset (ValueIndex.mem_offsets_of.mpr holds)
  rw [contents] at there
  exact gone there

section Run

variable {schema : Schema} {layout : Layout} {memory : Memory} {capacity : UInt64}
  {options : TableOptions} {start : Table}

theorem after_lists (formed : start.Formed) (homed : start.Homed) (lists : start.Lists)
    (operations : List TableOperation)
    (stays : ∀ operation ∈ operations, operation.moves = false)
    (straight : ∀ earlier operation, earlier ++ [operation] <+: operations →
      ¬ (start.after earlier).Strays operation) :
    (start.after operations).Homed ∧ (start.after operations).Lists := by
  induction operations using List.reverseRecOn with
  | nil => exact ⟨homed, lists⟩
  | append_singleton operations operation ih =>
    obtain ⟨homedBefore, listsBefore⟩ := ih
      (fun other member => stays other (List.mem_append_left _ member))
      (fun earlier other before => straight earlier other (before.trans (List.prefix_append _ _)))
    have formedBefore := after_formed start operations formed
    rw [after_snoc]
    exact ⟨step_homed _ operation formedBefore homedBefore (stays operation (by simp)),
      step_lists _ operation formedBefore listsBefore (straight operations operation List.prefix_rfl)⟩

theorem lists_records_iff_no_stray (built : Layout.build schema = .ok layout)
    (created : create memory (some layout) capacity options = .ok start)
    (wide : layout.extent + options.slotPadding.toNat < UInt64.size)
    (operations : List TableOperation)
    (stays : ∀ operation ∈ operations, operation.moves = false) :
    (∀ earlier, earlier <+: operations → (start.after earlier).ListsRecords) ↔
      ∀ earlier operation, earlier ++ [operation] <+: operations →
        ¬ (start.after earlier).Strays operation := by
  obtain ⟨packed, room⟩ := Layout.build_wide built wide
  have formed := create_formed created packed room
  constructor
  · intro lists earlier operation before strays
    have breaks := stray_breaks (after_formed start earlier formed) strays
    rw [← after_snoc] at breaks
    exact breaks (lists _ before)
  · intro straight earlier before
    obtain ⟨homed, lists⟩ := after_lists formed (create_homed created) (create_lists created) earlier
      (fun operation member => stays operation (before.subset member))
      (fun first operation inner => straight first operation (inner.trans before))
    exact lists_records (after_formed start earlier formed) homed lists

end Run

theorem pair_run_strays :
    ∃ start, create Memory.empty (some pairLayout) 2 {} = .ok start ∧
      let run : List TableOperation :=
        [.begin, .append 1, .rollback, .onFinder (.write 1 (.int32 5))]
      (∀ operation ∈ run, operation.moves = false) ∧
      (start.after [.begin, .append 1, .rollback]).Strays (.onFinder (.write 1 (.int32 5))) ∧
      ¬ ∀ earlier, earlier <+: run → (start.after earlier).ListsRecords := by
  obtain ⟨start, created, shape, placed, gone, answered⟩ : ∃ start,
      create Memory.empty (some pairLayout) 2 {} = .ok start ∧
        let now := start.after [.begin, .append 1, .rollback]
        now.layout = pairLayout ∧ now.finder.place = some ⟨start.buffer, 0⟩ ∧ 0 ∉ now.contents.occupied ∧
          now.answer (.onFinder (.write 1 (.int32 5))) = .ok (.record (.truth true)) :=
    ⟨_, rfl, by decide +kernel, by decide +kernel, by decide +kernel, by decide +kernel⟩
  have stays : ∀ operation ∈ ([.begin, .append 1, .rollback, .onFinder (.write 1 (.int32 5))] :
      List TableOperation), operation.moves = false := by decide
  have strays : (start.after [.begin, .append 1, .rollback]).Strays
      (.onFinder (.write 1 (.int32 5))) := by
    let score : FieldSlot :=
      { name := "score", type := .int32, offset := 12, length := 4, attrs := { indexed := true } }
    refine ⟨_, _, _, 1, score, .int32 5, rfl, placed, ?_, rfl, .inl rfl, gone, answered⟩
    rw [shape]
    rfl
  refine ⟨start, created, stays, strays, fun lists => ?_⟩
  have straight :=
    (lists_records_iff_no_stray pair_built created (by decide) _ stays).mp lists
  exact straight [.begin, .append 1, .rollback] (.onFinder (.write 1 (.int32 5)))
    List.prefix_rfl strays

theorem stray_write_lists_no_record :
    ∃ start, create Memory.empty (some pairLayout) 2 {} = .ok start ∧
      let now := start.after [.begin, .append 1, .rollback, .onFinder (.write 1 (.int32 5))]
      now.withValue 1 (.int32 5) = .ok [0] ∧ now.answer (.seekOffset 0) = .ok (.truth false) := by
  refine ⟨_, rfl, ?_, ?_⟩
  · decide +kernel
  · decide +kernel

end RecordStore.Table
