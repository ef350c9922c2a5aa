import RecordStore.Proofs.GivenValues

namespace RecordStore

structure ValueIndex.Recalls (index : ValueIndex) (given : List (Nat × Value)) : Prop where
  paired : index.Paired
  claimed : index.unique = true → ∀ value, value ∈ index.claimed ↔ (index.field, value) ∈ given
  held : index.unique = true → ∀ (offset : UInt64) (value : Value),
    index.values[offset]? = some value → (index.field, value) ∈ given

def ValueIndex.Sole (index : ValueIndex) : Prop :=
  ∀ (value : Value) (one other : UInt64), index.values[one]? = some value →
    index.values[other]? = some value → one = other

section Recalls

variable {before after : List ValueIndex} {given gifts : List (Nat × Value)} {fields : List Nat}
  {offset : UInt64} {values : Nat → Value}

theorem free_iff {index : ValueIndex} (recalls : index.Recalls given) (unique : index.unique = true)
    (value : Value) : index.isFree value = true ↔ (index.field, value) ∉ given := by
  rw [ValueIndex.isFree, Bool.not_eq_true', ← Bool.not_eq_true, Std.ExtTreeSet.contains_iff_mem,
    recalls.claimed unique]

theorem enters_recalls (enters : Enters before after gifts fields offset values)
    (recalls : ∀ index ∈ before, index.Recalls given) :
    ∀ index ∈ after, index.Recalls (given ++ gifts) := by
  intro index member
  rw [enters.indexes] at member
  obtain ⟨old, known, rfl⟩ := List.mem_map.mp member
  have gift (value : Value) := enters.gifts old known value
  obtain ⟨paired, claimed, held⟩ := recalls old known
  rw [ValueIndex.enterAll]
  by_cases entered : old.field ∈ fields
  · rw [if_pos entered]
    refine ⟨ValueIndex.assign_paired paired _ _, ?_, ?_⟩
    · intro unique value
      have grown : (old.assign offset (values old.field)).claimed =
          old.claimed.insert (values old.field) := if_pos unique
      have field : (old.assign offset (values old.field)).field = old.field := rfl
      rw [grown, field, Std.ExtTreeSet.mem_insert, Std.LawfulEqCmp.compare_eq_iff_eq,
        List.mem_append, gift value, claimed unique value]
      simp [entered, or_comm, eq_comm]
    · intro unique other value found
      rw [ValueIndex.assign_values] at found
      apply List.mem_append.mpr
      split at found
      · exact .inr ((gift value).mpr ⟨entered, (Option.some.inj found).symm⟩)
      · exact .inl (held unique other value found)
  · rw [if_neg entered]
    refine ⟨paired, fun unique value => ?_, fun unique other value found => ?_⟩
    · rw [List.mem_append, gift value, claimed unique value]
      simp [entered]
    · exact List.mem_append.mpr (.inl (held unique other value found))

theorem enters_sole (enters : Enters before after gifts fields offset values)
    (free : AllFree before fields values) (recalls : ∀ index ∈ before, index.Recalls given)
    (sole : ∀ index ∈ before, index.unique = true → index.Sole) :
    ∀ index ∈ after, index.unique = true → index.Sole := by
  intro index member
  rw [enters.indexes] at member
  obtain ⟨old, known, rfl⟩ := List.mem_map.mp member
  rw [ValueIndex.enterAll]
  by_cases entered : old.field ∈ fields
  · rw [if_pos entered]
    intro unique value one other
    have absent (place : UInt64) : old.values[place]? ≠ some (values old.field) := fun found =>
      (free_iff (recalls old known) unique _).mp (free old known unique entered)
        ((recalls old known).held unique place _ found)
    rw [ValueIndex.assign_values, ValueIndex.assign_values]
    intro first second
    split at first
    · rename_i here
      split at second
      · rename_i there
        exact here.trans there.symm
      · cases first
        exact absurd second (absent other)
    · split at second
      · cases second
        exact absurd first (absent one)
      · exact sole old known unique value one other first second
  · rw [if_neg entered]
    exact sole old known

theorem blank_recalls {indexes : List ValueIndex}
    (blank : ∀ index ∈ indexes, ∃ field unique, index = { field, unique }) :
    ∀ index ∈ indexes, index.Recalls [] ∧ index.Sole := by
  intro index member
  obtain ⟨field, unique, rfl⟩ := blank index member
  refine ⟨⟨ValueIndex.new_paired field unique, ?_, ?_⟩, ?_⟩
  · intro _ value
    simp
  · intro _ offset value found
    simp at found
  · intro value one other first
    simp at first

end Recalls

namespace Table

-- What is known of indexes and gifts is known of those of the table and of those it saved.
structure Keeping (fact : List ValueIndex → List (Nat × Value) → Prop) (table : Table)
    (gifts : Gifts) : Prop where
  now : fact table.contents.indexes gifts.now
  saved : ∀ (bytes : Bytes) (contents : Contents), table.snapshot = some (bytes, contents) →
    ∃ given, gifts.saved = some given ∧ fact contents.indexes given

section Keeping

variable {fact : List ValueIndex → List (Nat × Value) → Prop}

theorem gain_keeping {before after : Table} {operation : TableOperation} {gifts later : Gifts}
    (gain : Gain before operation after gifts later) (keeping : Keeping fact before gifts)
    (enter : ∀ {given fields offset values},
      Enters before.contents.indexes after.contents.indexes given fields offset values →
      (operation.copies = false → AllFree before.contents.indexes fields values) →
      fact after.contents.indexes (gifts.now ++ given)) : Keeping fact after later := by
  have unsaved (snapshot : after.snapshot = none) (bytes : Bytes) (contents : Contents) :
      after.snapshot ≠ some (bytes, contents) := by
    rw [snapshot]
    nofun
  cases gain with
  | entered enters free now kept snapshot =>
    refine ⟨?_, ?_⟩
    · rw [now]
      exact enter enters free
    · rw [snapshot, kept]
      exact keeping.saved
  | begun contents now kept snapshot =>
    refine ⟨?_, ?_⟩
    · rw [contents, now]
      exact keeping.now
    · intro bytes saved found
      rw [snapshot] at found
      cases found
      exact ⟨gifts.now, kept, keeping.now⟩
  | committed contents now snapshot =>
    refine ⟨?_, fun bytes saved found => absurd found (unsaved snapshot bytes saved)⟩
    rw [contents, now]
    exact keeping.now
  | undone saved now snapshot =>
    obtain ⟨given, kept, known⟩ := keeping.saved _ _ saved
    refine ⟨?_, fun bytes saved found => absurd found (unsaved snapshot bytes saved)⟩
    rw [now, kept, Option.getD_some]
    exact known

theorem after_keeping (allowed : TableOperation → Prop)
    (enter : ∀ {operation before after given gifts fields offset values}, allowed operation →
      Enters before after gifts fields offset values →
      (operation.copies = false → AllFree before fields values) →
      fact before given → fact after (given ++ gifts))
    (table : Table) (gifts : Gifts) (operations : List TableOperation) (ready : table.Ready)
    (fine : ∀ operation ∈ operations, allowed operation) (keeping : Keeping fact table gifts) :
    Keeping fact (table.after operations) (table.given gifts operations) := by
  induction operations generalizing table gifts with
  | nil => exact keeping
  | cons operation rest ih =>
    obtain ⟨first, others⟩ := List.forall_mem_cons.mp fine
    refine ih (table.step operation) _ (step_ready table operation ready) others ?_
    exact gain_keeping (step_gains ready operation gifts) keeping fun enters free =>
      enter first enters free keeping.now

theorem create_keeping {memory : Memory} {layout : Option Layout} {capacity : UInt64}
    {options : TableOptions} {table : Table}
    (created : create memory layout capacity options = .ok table)
    (blank : ∀ indexes : List ValueIndex,
      (∀ index ∈ indexes, ∃ field unique, index = { field, unique }) → fact indexes []) :
    Keeping fact table {} := by
  obtain ⟨known, -, made⟩ := create_ok created
  refine ⟨?_, ?_⟩
  · rw [made.contents]
    exact blank _ fun index member => Contents.blank_new member
  · intro bytes contents saved
    rw [made.snapshot] at saved
    cases saved

end Keeping

section Decide

variable {table : Table} {operation : TableOperation} {cursor : Cursor} {write : FieldWrite}
  {field : Nat} {slot : FieldSlot} {place : Place}

theorem through_serves (ready : table.Ready) (bound : table.Bound) {work : CursorOperation}
    (through : table.through? operation = some (cursor, work)) :
    table.Serves cursor ∧ ∀ place, cursor.place = some place → place.Holds table.layout := by
  cases operation with
  | on role =>
    cases through
    cases role with
    | finder => exact ⟨ready.finder, bound.finder⟩
    | walker => exact ⟨ready.walker, bound.walker⟩
  | _ => cases through

theorem through_run {work : CursorOperation} {answer : Except Fault CursorAnswer}
    {after : Session (List ValueIndex)}
    (through : table.through? operation = some (cursor, work))
    (ran : work.run indexOwner (table.session cursor) = outcome answer after) :
    table.answer operation = answer.map .record ∧ (table.step operation).memory = after.memory ∧
      (table.step operation).contents = { table.contents with indexes := after.owner } := by
  cases operation with
  | on role asked =>
    cases through
    have worked : (TableOperation.on role work).run table =
        outcome (answer.map TableAnswer.record) (table.settle role after) :=
      bind_outcome (with_cursor_run role ran) TableAnswer.record
    obtain ⟨answered, stepped⟩ := answer_step worked
    rw [answered, stepped]
    exact ⟨rfl, rfl, rfl⟩
  | _ => cases through

theorem write_outcome (ready : table.Ready) (bound : table.Bound)
    (through : table.through? operation = some (cursor, write.work field))
    (accepts : cursor.Accepts field write.value place slot) :
    ∃ written, cursor.write indexOwner table.memory table.contents.indexes field
        (write.filled slot) = .ok written ∧
      table.answer operation = .ok (.record (.truth written.accepted)) ∧
      (table.step operation).memory = written.memory ∧
      (table.step operation).contents = { table.contents with indexes := written.owner } := by
  obtain ⟨serves, holds⟩ := through_serves ready bound through
  have filled := FieldWrite.filled_accepted accepts
  have known : table.layout.fields[field]? = some slot := by
    rw [← serves.shape]
    exact accepts.field
  obtain ⟨memory, put⟩ := write_slot_runs ready.packed known (holds place accepts.placed)
    filled.writable filled.type filled.short table.memory
  obtain ⟨written, ran⟩ : ∃ written, cursor.write indexOwner table.memory table.contents.indexes
      field (write.filled slot) = .ok written := Cursor.write_runs filled put
  have written_run := (FieldWrite.run_filled accepts).trans ran
  have worked := @FieldWrite.work_run _ _ (table.session cursor) _ _ _ written_run
  exact ⟨written, ran, through_run through worked⟩

theorem ascending_one {offsets : List UInt64} (ascending : offsets.Pairwise (· < ·))
    {offset : UInt64} (only : ∀ other, other ∈ offsets ↔ other = offset) : offsets = [offset] := by
  cases offsets with
  | nil => exact absurd ((only offset).mpr rfl) List.not_mem_nil
  | cons first rest =>
    obtain ⟨below, -⟩ := List.pairwise_cons.mp ascending
    obtain rfl := (only first).mp List.mem_cons_self
    have empty : rest = [] := by
      apply List.eq_nil_iff_forall_not_mem.mpr
      intro other member
      obtain rfl := (only other).mp (List.mem_cons_of_mem _ member)
      exact UInt64.lt_irrefl _ (below _ member)
    rw [empty]

theorem sole_short {index : ValueIndex} (paired : index.Paired) (sole : index.Sole)
    (value : Value) : (index.offsetsOf value).length ≤ 1 := by
  have ascending := index.offsets_of_ascending value
  have member (offset : UInt64) : offset ∈ index.offsetsOf value ↔
      index.values[offset]? = some value :=
    ValueIndex.mem_offsets_of.trans (paired.agree value offset)
  generalize index.offsetsOf value = offsets at ascending member
  match offsets with
  | [] | [_] => simp
  | one :: other :: rest =>
    have same := sole value one other ((member one).mp (by simp)) ((member other).mp (by simp))
    have less := (List.pairwise_cons.mp ascending).1 other List.mem_cons_self
    rw [same] at less
    exact absurd less (UInt64.lt_irrefl other)

theorem assigned_alone {index : ValueIndex} {value : Value} (paired : index.Paired)
    (absent : ¬ index.Carries value) (offset : UInt64) :
    (index.assign offset value).offsetsOf value = [offset] := by
  apply ascending_one (ValueIndex.offsets_of_ascending _ _)
  intro other
  rw [ValueIndex.mem_offsets_of, (ValueIndex.assign_paired paired offset value).agree,
    ValueIndex.assign_values]
  by_cases here : other = offset
  · simp [here]
  · rw [if_neg here]
    exact iff_of_false (fun found => absent ⟨other, found⟩) here

theorem unique_write (ready : table.Ready) (bound : table.Bound) {given : List (Nat × Value)}
    (recalls : ∀ index ∈ table.contents.indexes, index.Recalls given)
    (through : table.through? operation = some (cursor, write.work field))
    (accepts : cursor.Accepts field write.value place slot) (indexed : slot.attrs.indexed = true)
    (unique : slot.attrs.unique = true) :
    ∃ accepted, table.answer operation = .ok (.record (.truth accepted)) ∧
      (accepted = true ↔ (field, write.value.stored) ∉ given) ∧
      (accepted = true →
        (table.step operation).withValue field write.value.stored = .ok [place.offset]) ∧
      (accepted = false → (table.step operation).memory = table.memory ∧
        (table.step operation).contents = table.contents) := by
  obtain ⟨serves, -⟩ := through_serves ready bound through
  have known : table.layout.fields[field]? = some slot := by
    rw [← serves.shape]
    exact accepts.field
  obtain ⟨index, member, rfl, mark⟩ := index_of_column ready.columns known indexed
  have single : index.unique = true := mark.trans unique
  obtain ⟨written, ran, answered, memory, contents⟩ := write_outcome ready bound through accepts
  obtain ⟨found, column, again, decided, refused, taken⟩ := Cursor.write_ok ran
  cases accepts.placed.symm.trans again.placed
  cases accepts.field.symm.trans again.field
  rw [consult_index ready.columns serves known member single rfl, FieldWrite.filled_stored]
    at decided
  refine ⟨written.accepted, answered, ?_, fun yes => ?_, fun no => ?_⟩
  · rw [← decided]
    exact free_iff (recalls index member) single _
  · have fresh := (free_iff (recalls index member) single _).mp (decided.trans yes)
    have columns := (step_ready table operation ready).columns
    have owner := (taken yes).2
    rw [consult_owner, inform_all ready.columns serves known, FieldWrite.filled_stored] at owner
    have absent : ¬ index.Carries write.value.stored := fun ⟨other, found⟩ =>
      fresh ((recalls index member).held single other _ found)
    refine (with_value_iff columns).mpr ⟨index.assign place.offset write.value.stored, ?_, rfl,
      assigned_alone (recalls index member).paired absent place.offset⟩
    rw [contents, owner]
    refine List.mem_map.mpr ⟨index, member, ?_⟩
    exact if_pos (List.mem_singleton.mpr rfl)
  · obtain ⟨sameMemory, sameOwner⟩ := refused no
    rw [memory, contents, sameMemory, sameOwner, consult_owner]
    exact ⟨rfl, rfl⟩

end Decide

section Run

variable {schema : Schema} {layout : Layout} {memory : Memory} {capacity : UInt64}
  {options : TableOptions} {start : Table}

theorem after_recalls (created : create memory (some layout) capacity options = .ok start)
    (ready : start.Ready) (operations : List TableOperation) :
    ∀ index ∈ (start.after operations).contents.indexes,
      index.Recalls (start.given {} operations).now := by
  have begun : Keeping (fun indexes given => ∀ index ∈ indexes, index.Recalls given) start {} :=
    create_keeping created fun indexes blank index member => (blank_recalls blank index member).1
  have kept := after_keeping (fun _ => True)
    (fun _ enters _ recalls => enters_recalls enters recalls) start {} operations ready
    (fun _ _ => trivial) begun
  exact kept.now

theorem after_sole (created : create memory (some layout) capacity options = .ok start)
    (ready : start.Ready) (operations : List TableOperation)
    (uncopied : ∀ operation ∈ operations, operation.copies = false) :
    ∀ index ∈ (start.after operations).contents.indexes, index.unique = true → index.Sole := by
  have begun : Keeping (fun indexes given => (∀ index ∈ indexes, index.Recalls given) ∧
      ∀ index ∈ indexes, index.unique = true → index.Sole) start {} :=
    create_keeping created fun indexes blank =>
      ⟨fun index member => (blank_recalls blank index member).1,
        fun index member _ => (blank_recalls blank index member).2⟩
  have kept := after_keeping (fun operation => operation.copies = false)
    (fun uncopied enters free known => ⟨enters_recalls enters known.1,
      enters_sole enters (free uncopied) known.1 known.2⟩) start {} operations ready uncopied begun
  exact kept.now.2

theorem unique_write_decides (built : Layout.build schema = .ok layout)
    (narrow : layout.extent < UInt64.size)
    (created : create memory (some layout) capacity options = .ok start)
    (operations : List TableOperation) :
    let now := start.after operations
    let given := (start.given {} operations).now
    (∀ operation cursor write field slot place,
      now.through? operation = some (cursor, FieldWrite.work field write) →
      cursor.Accepts field write.value place slot →
      slot.attrs.indexed = true → slot.attrs.unique = true →
      (now.answer operation = .ok (.record (.truth true)) ↔
        (field, write.value.stored) ∉ given) ∧
      (now.answer operation = .ok (.record (.truth false)) ↔
        (field, write.value.stored) ∈ given) ∧
      ((field, write.value.stored) ∉ given →
        (now.step operation).withValue field write.value.stored = .ok [place.offset]) ∧
      ((field, write.value.stored) ∈ given → (now.step operation).memory = now.memory ∧
        (now.step operation).contents = now.contents)) ∧
    ((∀ operation ∈ operations, operation.copies = false) →
      ∀ field slot, layout.fields[field]? = some slot →
        slot.attrs.indexed = true → slot.attrs.unique = true →
        ∀ value, ∃ offsets, now.withValue field value = .ok offsets ∧ offsets.length ≤ 1) := by
  obtain ⟨packed, -⟩ := Layout.build_packed built narrow
  have startReady := create_ready created packed
  have ready := after_ready start operations startReady
  have bound := after_bound start operations startReady (create_bound created)
  have recalls := after_recalls created startReady operations
  have layouts : (start.after operations).layout = layout := by
    obtain ⟨known, same, made⟩ := create_ok created
    cases same
    rw [after_layout start operations startReady.sound]
    exact made.shape
  constructor
  · intro operation cursor write field slot place through accepts indexed unique
    obtain ⟨accepted, answered, fresh, alone, same⟩ :=
      unique_write ready bound recalls through accepts indexed unique
    rw [answered]
    cases accepted with
    | true =>
      have absent := fresh.mp rfl
      exact ⟨iff_of_true rfl absent, iff_of_false nofun absent, fun _ => alone rfl,
        fun present => absurd present absent⟩
    | false =>
      have present := Decidable.not_not.mp (mt fresh.mpr Bool.false_ne_true)
      exact ⟨iff_of_false nofun (not_not_intro present), iff_of_true rfl present,
        fun absent => absurd present absent, fun _ => same rfl⟩
  · intro asks field slot known indexed unique value
    have sole := after_sole created startReady operations asks
    rw [← layouts] at known
    obtain ⟨index, member, rfl, mark⟩ := index_of_column ready.columns known indexed
    exact ⟨_, (with_value_iff ready.columns).mpr ⟨index, member, rfl, rfl⟩,
      sole_short (recalls index member).paired (sole index member (mark.trans unique)) value⟩

end Run

-- Two labels, the first of them tagged twice, and tags for the second. Bytes that are not ASCII are
-- stored as question marks, so two texts that differ in them collide.
theorem label_run_decides :
    ∃ start, create Memory.empty (some Layout.labelLayout) 2 {} = .ok start ∧
      let run : List TableOperation := [.append 1, .onFinder (.write 1 (.text [97, 98])),
        .onFinder (.write 1 (.text [200, 98])), .append 2]
      let now := start.after run
      now.answer (.onFinder (.writePadded 1 [97, 98])) = .ok (.record (.truth false)) ∧
      now.answer (.onFinder (.write 1 (.text [201, 98]))) = .ok (.record (.truth false)) ∧
      (now.step (.onFinder (.write 1 (.text [99, 32])))).withValue 1 (.text [99]) = .ok [25] ∧
      ∃ offsets, now.withValue 1 (.text [97, 98]) = .ok offsets ∧ offsets.length ≤ 1 := by
  let run : List TableOperation := [.append 1, .onFinder (.write 1 (.text [97, 98])),
    .onFinder (.write 1 (.text [200, 98])), .append 2]
  let tag : FieldSlot :=
    { name := "tag", type := .fixedString, offset := 16, length := 5,
      attrs := { indexed := true, unique := true } }
  obtain ⟨start, created, placed, field, writable, given⟩ : ∃ start,
      create Memory.empty (some Layout.labelLayout) 2 {} = .ok start ∧
        (start.after run).finder.place = some ⟨start.buffer, 25⟩ ∧
        (start.after run).finder.layout.fields[1]? = some tag ∧ start.buffer.isMutable = true ∧
        (start.given {} run).now =
          [(0, .int64 1), (1, .text [97, 98]), (1, .text [63, 98]), (0, .int64 2)] :=
    ⟨_, rfl, by decide +kernel, by decide +kernel, by decide +kernel, by decide +kernel⟩
  obtain ⟨decides, alone⟩ :=
    unique_write_decides Layout.label_built (by decide) created run
  rw [given] at decides
  have again := decides (.onFinder (.writePadded 1 [97, 98])) _ (.padded [97, 98]) 1 tag _ rfl
    ⟨placed, field, rfl, rfl, writable, rfl, rfl⟩ rfl rfl
  have replaced := decides (.onFinder (.write 1 (.text [201, 98]))) _ (.plain (.text [201, 98])) 1
    tag _ rfl ⟨placed, field, rfl, rfl, writable, rfl, rfl⟩ rfl rfl
  have fresh := decides (.onFinder (.write 1 (.text [99, 32]))) _ (.plain (.text [99, 32])) 1 tag _
    rfl ⟨placed, field, rfl, rfl, writable, rfl, rfl⟩ rfl rfl
  exact ⟨start, created, again.2.1.mpr (by decide), replaced.2.1.mpr (by decide), fresh.2.2.1 (by decide),
    alone (by decide) 1 tag rfl rfl rfl _⟩

end Table

end RecordStore
