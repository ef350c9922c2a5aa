import RecordStore.Proofs.GivenValues
import RecordStore.Proofs.Lockstep

namespace RecordStore

def TableOperation.appends : TableOperation → Bool
  | append _ | appendCopy .. => true
  | _ => false

namespace Table

-- No byte from the next free slot on was ever written, or it was cleared again.
def Blank (table : Table) : Prop :=
  ∀ byte ∈ table.bytes.drop table.contents.nextFree.toNat, byte = 0

instance (table : Table) : Decidable table.Blank :=
  inferInstanceAs (Decidable (∀ byte ∈ _, byte = 0))

-- The key of no record, but the unique index of the key field was given it before.
structure KeyTaken (table : Table) (key : Int64) : Prop where
  room : table.isFull = false
  fresh : table.hasKey key = false
  taken : ∃ value index, table.keyValue key = .ok value ∧ index ∈ table.contents.indexes ∧
    index.field = table.keyPosition ∧ index.unique = true ∧ index.isFree value = false

section Refusal

variable {now : Table} {hands : Hands} {operation : TableOperation}

theorem taken_of_lets (formed : now.Formed) {key : Int64} {value : Value} {slot : FieldSlot}
    (room : now.isFull = false) (fresh : now.hasKey key = false)
    (known : now.layout.fields[now.keyPosition]? = some slot) (fits : now.keyValue key = .ok value)
    (taken : now.lets slot value = false) : now.KeyTaken key := by
  have asked : slot.attrs.indexed = true ∧ slot.attrs.unique = true := by
    by_contra idle
    rw [lets, Cursor.consult, formed.finder.reports] at taken
    simp_all
  obtain ⟨index, member, here, mark⟩ := index_of_column formed.counted.heads known asked.1
  have unique := mark.trans asked.2
  have free : now.lets slot value = index.isFree value.stored :=
    consult_index formed.counted.heads formed.finder known member unique here
  rw [(key_value_ok known fits).plain, taken] at free
  exact ⟨room, fresh, value, index, fits, member, here, unique, free.symm⟩

theorem cleared_memory (formed : now.Formed) (whole : now.Whole) (blank : now.Blank) {memory : Memory}
    (within : now.memory.Within now.buffer.region memory)
    (reach : now.contents.nextFree.toNat + now.layout.stride.toNat ≤ now.buffer.size.toNat)
    (bytes : now.buffer.bytes memory = splice now.bytes now.contents.nextFree.toNat
      (List.replicate now.layout.stride.toNat 0)) : memory = now.memory := by
  apply Memory.back_of_bytes whole.start whole.size within
  rw [bytes]
  refine splice_same ?_ blank
  rw [bytes_whole formed]
  exact reach

theorem step_refused (formed : now.Formed) (whole : now.Whole) (blank : now.Blank)
    (twin : Twin now.memory hands now now) (appends : operation.appends = true)
    (failed : now.answer operation ≠ .ok (.truth true)) :
    now.step operation = { now with
        finder := (now.step operation).finder, notices := (now.step operation).notices } ∧
      ((∀ key, operation = .append key → ¬ now.KeyTaken key) →
        (now.step operation).finder = now.finder) := by
  have allowed : hands.Allows operation := by
    cases operation with
    | append | appendCopy => trivial
    | _ => cases appends
  have within := (step_twin twin operation allowed).2.memory
  have step := step_cases formed operation
  rw [Steps] at step
  generalize now.answer operation = answer at step failed
  generalize now.step operation = after at step within
  cases step with
  | failed | refused => exact ⟨rfl, fun _ => rfl⟩
  | appended | copied | found => exact absurd rfl failed
  | asked asks =>
    cases operation with
    | append | appendCopy => cases asks
    | _ => cases appends
  | rejected room fresh known fits taken _ bytes reach =>
    cases cleared_memory formed whole blank within reach bytes
    refine ⟨rfl, fun other => ?_⟩
    exact absurd (taken_of_lets formed room fresh known fits taken) (other _ rfl)
  | stuck room _ elsewhere =>
    obtain ⟨moved, bound⟩ := Cursor.resident_moves twin.finder.here (next_room formed room)
    cases bound.symm.trans elsewhere
  | _ => cases appends

end Refusal

theorem refusal_changes_nothing {schema : Schema} {layout : Layout} {memory : Memory}
    {capacity : UInt64} {options : TableOptions} {start : Table}
    (built : Layout.build schema = .ok layout)
    (created : create memory (some layout) capacity options = .ok start)
    (wide : layout.extent + options.slotPadding.toNat < UInt64.size)
    (operations : List TableOperation) (handed : start.Handed Hands.fresh operations)
    (blank : (start.after operations).Blank) (operation : TableOperation)
    (appends : operation.appends = true)
    (failed : (start.after operations).answer operation ≠ .ok (.truth true)) :
    let now := start.after operations
    let after := now.step operation
    after = { now with finder := after.finder, notices := after.notices } ∧
      ((∀ key, operation = .append key → ¬ now.KeyTaken key) → after.finder = now.finder) := by
  obtain ⟨packed, room⟩ := Layout.build_wide built wide
  have formed := after_formed start operations (create_formed created packed room)
  obtain ⟨twin, whole⟩ := after_own created operations handed
  exact step_refused formed whole blank twin appends failed

def badgeSchema : Schema where
  name := "badge"
  keyed := true
  fields := [{ name := "id", type := .int32, attrs := { key := true, indexed := true, unique := true } }]

def badgeLayout : Layout where
  name := "badge"
  typeId := 0
  groupId := 0
  transactional := false
  keyed := true
  stride := 12
  fields := [
    { name := "id", type := .int32, offset := 8, length := 4,
      attrs := { key := true, indexed := true, unique := true } }]

theorem badge_built : Layout.build badgeSchema = .ok badgeLayout := by decide +kernel

-- The first badge was given another number behind the back of the table.
theorem renumbered_badge_refused :
    ∃ start, create Memory.empty (some badgeLayout) 2 {} = .ok start ∧
      let now := start.after
        [.append 1, .onFinder (.bind ⟨0, 0, 26, 3⟩ 0), .onFinder (.write 0 (.int32 2))]
      now.answer (.append 2) = .ok (.truth false) ∧
      (now.step (.append 2)).bytes = now.bytes ∧ (now.step (.append 2)).contents = now.contents := by
  let run : List TableOperation :=
    [.append 1, .onFinder (.bind ⟨0, 0, 26, 3⟩ 0), .onFinder (.write 0 (.int32 2))]
  obtain ⟨start, created, handed, blank, refused⟩ : ∃ start,
      create Memory.empty (some badgeLayout) 2 {} = .ok start ∧
        start.Handed Hands.fresh run ∧ (start.after run).Blank ∧
        (start.after run).answer (.append 2) = .ok (.truth false) :=
    ⟨_, rfl, by decide +kernel, by decide +kernel, by decide +kernel⟩
  obtain ⟨same, -⟩ := refusal_changes_nothing badge_built created (by decide) run handed blank
    (.append 2) rfl (by rw [refused]; decide)
  exact ⟨start, created, refused, (congrArg bytes same :), (congrArg contents same :)⟩

end Table

end RecordStore
