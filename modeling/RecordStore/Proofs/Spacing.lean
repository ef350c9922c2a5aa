import RecordStore.Proofs.Change
import RecordStore.Proofs.Rollback

/-!
The distance from one record to the next is a sum of two words, and nothing checks it; the check of
the capacity only keeps the product with the number of records from wrapping.
-/

namespace RecordStore

def TableOptions.SumFits (options : TableOptions) (layout : Layout) : Prop :=
  layout.stride.toNat + options.slotPadding.toNat < UInt64.size

theorem sum_fits_iff {layout : Layout} {options : TableOptions} :
    (layout.stride + options.slotPadding).toNat =
        layout.stride.toNat + options.slotPadding.toNat ↔ options.SumFits layout := by
  have words : UInt64.size = 2 ^ 64 := rfl
  rw [TableOptions.SumFits, UInt64.toNat_add, words]
  constructor
  · intro same
    omega
  · exact Nat.mod_eq_of_lt

theorem stride_le_sum_iff {layout : Layout} {options : TableOptions} :
    layout.stride.toNat ≤ (layout.stride + options.slotPadding).toNat ↔
      options.SumFits layout := by
  have words : UInt64.size = 2 ^ 64 := rfl
  have low := layout.stride.toNat_lt
  have small := options.slotPadding.toNat_lt
  rw [TableOptions.SumFits, UInt64.toNat_add, words]
  constructor
  · intro enough
    by_contra wraps
    omega
  · intro fits
    rw [Nat.mod_eq_of_lt fits]
    omega

namespace Table

def Covers (table : Table) (i pos : Nat) : Prop :=
  i * table.slotStride.toNat ≤ pos ∧ pos < i * table.slotStride.toNat + table.layout.stride.toNat

def RecordsInside (table : Table) : Prop :=
  ∀ i, i < table.capacity.toNat →
    i * table.slotStride.toNat + table.layout.stride.toNat ≤ table.buffer.size.toNat

def RecordsApart (table : Table) : Prop :=
  ∀ i j, i < table.capacity.toNat → j < table.capacity.toNat → i ≠ j →
    ∀ pos, ¬ (table.Covers i pos ∧ table.Covers j pos)

def RecordsReachable (table : Table) : Prop :=
  ∀ i < table.capacity,
    ∃ cursor, table.finder.bind table.buffer (i * table.slotStride) = .ok cursor

section Made

variable {memory : Memory} {layout : Layout} {capacity : UInt64} {options : TableOptions}
  {table : Table}

theorem stride_fits_iff (made : Made memory layout capacity options table) :
    table.layout.stride.toNat ≤ table.slotStride.toNat ↔ options.SumFits layout := by
  rw [made.shape, made.spacing]
  exact stride_le_sum_iff

theorem last_record (made : Made memory layout capacity options table) :
    (table.capacity.toNat - 1) * table.slotStride.toNat + table.slotStride.toNat =
      table.buffer.size.toNat := by
  have room := made.room
  rw [made_size made, ← Nat.succ_mul]
  congr 1
  omega

theorem inside_iff (made : Made memory layout capacity options table) :
    table.RecordsInside ↔ options.SumFits layout := by
  rw [← stride_fits_iff made]
  have ends := last_record made
  constructor
  · intro inside
    have last := inside (table.capacity.toNat - 1) (Nat.sub_lt made.room Nat.one_pos)
    omega
  · intro enough i few
    have before : i * table.slotStride.toNat ≤
        (table.capacity.toNat - 1) * table.slotStride.toNat :=
      Nat.mul_le_mul_right _ (Nat.le_sub_one_of_lt few)
    omega

theorem record_offset (made : Made memory layout capacity options table) {i : UInt64}
    (few : i < table.capacity) :
    (i * table.slotStride).toNat = i.toNat * table.slotStride.toNat := by
  have bound : i.toNat * table.slotStride.toNat ≤
      table.capacity.toNat * table.slotStride.toNat :=
    Nat.mul_le_mul_right _ (Nat.le_of_lt (UInt64.lt_iff_toNat_lt.mp few))
  rw [UInt64.toNat_mul]
  exact Nat.mod_eq_of_lt (Nat.lt_of_le_of_lt bound made.whole)

theorem reachable_iff_inside (made : Made memory layout capacity options table) :
    table.RecordsReachable ↔ table.RecordsInside := by
  have shape : table.finder.layout = table.layout := by rw [made.finder, made.shape]
  have unplaced : table.finder.place = none := made_unplaced made .finder
  constructor
  · intro reachable i few
    have word : (UInt64.ofNat i).toNat = i :=
      UInt64.toNat_ofNat_of_lt' (Nat.lt_trans few table.capacity.toNat_lt)
    have below : UInt64.ofNat i < table.capacity := by
      rw [UInt64.lt_iff_toNat_lt, word]
      exact few
    obtain ⟨cursor, bound⟩ := reachable _ below
    have room := (Cursor.move_ok.mp bound).1
    rwa [record_offset made below, word, shape] at room
  · intro inside i few
    have room := inside i.toNat (UInt64.lt_iff_toNat_lt.mp few)
    rw [← record_offset made few, ← shape] at room
    exact ⟨_, Cursor.move_ok.mpr ⟨room, by rw [unplaced]; simp, rfl⟩⟩

theorem apart_iff (made : Made memory layout capacity options table)
    (several : 1 < table.capacity.toNat) :
    table.RecordsApart ↔ options.SumFits layout := by
  rw [← stride_fits_iff made]
  constructor
  · intro apart
    by_contra short
    -- The first byte of the second record then belongs to the first one too.
    apply apart 0 1 (by omega) several (by decide) table.slotStride.toNat
    constructor <;> constructor <;> omega
  · intro enough i j _ _ differ pos ⟨inOne, inOther⟩
    rcases Nat.lt_or_gt_of_ne differ with before | behind
    · have next := Nat.mul_le_mul_right table.slotStride.toNat (Nat.succ_le_of_lt before)
      rw [Nat.succ_mul] at next
      have := inOne.2
      have := inOther.1
      omega
    · have next := Nat.mul_le_mul_right table.slotStride.toNat (Nat.succ_le_of_lt behind)
      rw [Nat.succ_mul] at next
      have := inOther.2
      have := inOne.1
      omega

end Made

section Create

variable {layout : Layout} {key : FieldSlot}

theorem refused_kind {memory : Memory} {capacity slotStride alignment : UInt64} {fault : Fault}
    (refused : Refused memory capacity slotStride alignment fault) :
    (fault.kind = .invalidArgument ↔
      capacity = 0 ∨ isPowerOfTwo alignment = false ∨
        (slotStride ≠ 0 ∧ UInt64.size ≤ capacity.toNat * slotStride.toNat)) ∧
    (fault = .divisionByZero ↔
      capacity ≠ 0 ∧ isPowerOfTwo alignment = true ∧ slotStride = 0) ∧
    (capacity ≠ 0 → isPowerOfTwo alignment = true → slotStride ≠ 0 →
      capacity.toNat * slotStride.toNat < UInt64.size →
      fault = blockFault (capacity.toNat * slotStride.toNat) alignment) := by
  cases refused with
  | empty none => simp [Fault.kind, none]
  | unaligned some_room unaligned => simp [Fault.kind, unaligned]
  | unspaced some_room aligned none => simp [Fault.kind, some_room, aligned, none]
  | tooLarge some_room aligned spaced large =>
    simp [Fault.kind, some_room, aligned, spaced, large, Nat.not_lt.mpr large]
  | ungranted some_room aligned spaced whole long =>
    have kind : (blockFault (capacity.toNat * slotStride.toNat) alignment).kind ≠
          .invalidArgument ∧
        blockFault (capacity.toNat * slotStride.toNat) alignment ≠ .divisionByZero := by
      rw [blockFault]
      split <;> decide
    simp [kind, some_room, aligned, spaced, Nat.not_le.mpr whole]

-- What the words of a new table promise: the buffer has room for records that are as far apart as
-- the words say, and records are apart, inside and within reach exactly if the sum did not wrap.
-- What keeps a table from being made is an invalid argument, unless the sum is zero, which is then
-- divided by, or the machine has no block of that length.
theorem create_spaces_iff_sum_fits (slotted : layout.keySlot? = some key)
    (integer : key.type.isInteger = true) (memory : Memory) (capacity : UInt64)
    (options : TableOptions) :
    (∀ table, create memory (some layout) capacity options = .ok table →
      table.buffer.size.toNat = capacity.toNat * table.slotStride.toNat ∧
      (table.slotStride.toNat = layout.stride.toNat + options.slotPadding.toNat ↔
        options.SumFits layout) ∧
      (table.RecordsInside ↔ options.SumFits layout) ∧
      (table.RecordsReachable ↔ options.SumFits layout) ∧
      (1 < capacity.toNat → (table.RecordsApart ↔ options.SumFits layout))) ∧
    ((∃ table, create memory (some layout) capacity options = .ok table) ↔
      capacity ≠ 0 ∧ isPowerOfTwo options.alignment = true ∧
        layout.stride + options.slotPadding ≠ 0 ∧
        capacity.toNat * (layout.stride + options.slotPadding).toNat < UInt64.size ∧
        memory.Grants (capacity.toNat * (layout.stride + options.slotPadding).toNat)
          options.alignment) ∧
    ∀ fault, create memory (some layout) capacity options = .error fault →
      (fault.kind = .invalidArgument ↔
        capacity = 0 ∨ isPowerOfTwo options.alignment = false ∨
          (layout.stride + options.slotPadding ≠ 0 ∧
            UInt64.size ≤ capacity.toNat * (layout.stride + options.slotPadding).toNat)) ∧
      (fault = .divisionByZero ↔
        capacity ≠ 0 ∧ isPowerOfTwo options.alignment = true ∧
          layout.stride + options.slotPadding = 0) ∧
      (capacity ≠ 0 → isPowerOfTwo options.alignment = true →
        layout.stride + options.slotPadding ≠ 0 →
        capacity.toNat * (layout.stride + options.slotPadding).toNat < UInt64.size →
        fault = blockFault (capacity.toNat * (layout.stride + options.slotPadding).toNat)
          options.alignment) := by
  refine ⟨fun table created => ?_, ⟨?_, ?_⟩, fun fault failed => ?_⟩
  · obtain ⟨known, same, made⟩ := create_ok created
    cases same
    have limit := made.limit
    refine ⟨?_, ?_, inside_iff made, ?_, ?_⟩
    · rw [made_size made, limit]
    · rw [made.spacing]
      exact sum_fits_iff
    · exact (reachable_iff_inside made).trans (inside_iff made)
    · intro several
      exact apart_iff made (by rw [limit]; exact several)
  · rintro ⟨table, created⟩
    obtain ⟨known, same, made⟩ := create_ok created
    cases same
    have room := made.room
    have spaced := made.spaced
    have whole := made.whole
    have granted := made.granted
    rw [made.limit] at room
    rw [made.spacing] at spaced
    rw [made.limit, made.spacing] at whole granted
    refine ⟨?_, made.aligned, ?_, whole, granted⟩
    · rintro rfl
      exact absurd room (by decide)
    · intro none
      rw [none] at spaced
      exact absurd spaced (by decide)
  · rintro ⟨room, aligned, spaced, whole, granted⟩
    exact create_runs slotted integer room aligned spaced whole granted
  · exact refused_kind (create_fails slotted integer failed)

end Create

def overlapping : TableOptions where
  slotPadding := 18446744073709551608

def stacked : TableOptions where
  slotPadding := 18446744073709551600

theorem overlapping_pairs_unspaced :
    ∃ key table, pairLayout.keySlot? = some key ∧ key.type.isInteger = true ∧
      create Memory.empty (some pairLayout) 4 overlapping = .ok table ∧
      ¬ overlapping.SumFits pairLayout ∧ ¬ table.RecordsInside ∧ ¬ table.RecordsReachable ∧
      ¬ table.RecordsApart ∧
      create Memory.empty (some pairLayout) 4 stacked = .error .divisionByZero := by
  have slotted : pairLayout.keySlot? =
      some { name := "id", type := .int32, offset := 8, length := 4, attrs := { key := true } } :=
    rfl
  obtain ⟨spacing, accepted, -⟩ :=
    create_spaces_iff_sum_fits slotted rfl Memory.empty 4 overlapping
  obtain ⟨-, stackable, refused⟩ :=
    create_spaces_iff_sum_fits slotted rfl Memory.empty 4 stacked
  obtain ⟨table, created⟩ := accepted.mpr (by decide)
  have wraps : ¬ overlapping.SumFits pairLayout := by
    rw [TableOptions.SumFits]
    decide
  obtain ⟨-, -, inside, reachable, apart⟩ := spacing table created
  refine ⟨_, table, slotted, rfl, created, wraps, mt inside.mp wraps, mt reachable.mp wraps,
    mt (apart (by decide)).mp wraps, ?_⟩
  cases made : create Memory.empty (some pairLayout) 4 stacked with
  | ok table => exact absurd (stackable.mp ⟨table, made⟩).2.2.1 (by decide)
  | error fault => rw [(refused fault made).2.1.mpr (by decide)]

-- The header of the second pair lies on the fields of the first, and the fourth has no room.
theorem overlapping_pairs_collide :
    ∃ table, create Memory.empty (some pairLayout) 4 overlapping = .ok table ∧
      table.slotStride.toNat ≠ pairLayout.stride.toNat + overlapping.slotPadding.toNat ∧
      (table.after [.append 1, .seekKey 1]).answer (.onFinder (.read 0)) =
        .ok (.record (.value (.int32 1))) ∧
      (table.after [.append 1, .append 2, .seekKey 1]).answer (.onFinder (.read 0)) =
        .ok (.record (.value (.int32 0))) ∧
      (table.after [.append 1, .append 2, .append 3]).answer (.append 4) =
        .error (.bindOutOfRange 24 16 32) := by
  refine ⟨_, rfl, ?_, ?_, ?_, ?_⟩
  · decide +kernel
  · decide +kernel
  · decide +kernel
  · decide +kernel

end RecordStore.Table
