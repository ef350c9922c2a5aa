import RecordStore.Bytes

namespace RecordStore

abbrev Region := Array UInt8

namespace Region

def blank (size : Nat) : Region := Array.replicate size 0

def overwrite (region : Region) (pos : Nat) : Bytes → Region
  | [] => region
  | b :: rest => overwrite (region.setIfInBounds pos b) (pos + 1) rest

def window (region : Region) (pos length : Nat) : Bytes :=
  (region.extract pos (pos + length)).toList

@[simp] theorem overwrite_size (region : Region) (pos : Nat) (bytes : Bytes) :
    (region.overwrite pos bytes).size = region.size := by
  induction bytes generalizing region pos with
  | nil => rfl
  | cons b rest ih => simp [overwrite, ih]

theorem overwrite_get (region : Region) (pos : Nat) (bytes : Bytes) (i : Nat) :
    (region.overwrite pos bytes)[i]? =
      if pos ≤ i ∧ i < pos + bytes.length ∧ i < region.size then bytes[i - pos]?
      else region[i]? := by
  induction bytes generalizing region pos with
  | nil =>
    have none_inside : ¬ (pos ≤ i ∧ i < pos + ([] : Bytes).length ∧ i < region.size) := by
      simp only [List.length_nil]
      omega
    rw [overwrite, if_neg none_inside]
  | cons b rest ih =>
    rw [overwrite, ih, Array.size_setIfInBounds, Array.getElem?_setIfInBounds]
    by_cases first : i = pos
    · subst first
      have past : ¬ (i + 1 ≤ i ∧ i < i + 1 + rest.length ∧ i < region.size) := by omega
      rw [if_neg past]
      by_cases inside : i < region.size <;> simp [inside]
    · have shifted : (pos + 1 ≤ i ∧ i < pos + 1 + rest.length ∧ i < region.size) ↔
          (pos ≤ i ∧ i < pos + (rest.length + 1) ∧ i < region.size) := by omega
      simp only [shifted, List.length_cons, Ne.symm first, if_false]
      split
      · obtain ⟨n, step⟩ : ∃ n, i - pos = n + 1 := ⟨i - pos - 1, by omega⟩
        have : i - (pos + 1) = n := by omega
        rw [step, this, List.getElem?_cons_succ]
      · rfl

theorem window_get (region : Region) (pos length i : Nat) :
    (region.window pos length)[i]? = if i < length then region[pos + i]? else none := by
  rw [window, Array.getElem?_toList, Array.getElem?_extract]
  by_cases inside : i < length
  · by_cases stored : pos + i < region.size
    · have : i < min (pos + length) region.size - pos := by omega
      simp [inside, this]
    · have : ¬ i < min (pos + length) region.size - pos := by omega
      simp only [inside, this, if_true, if_false]
      exact (Array.getElem?_eq_none (by omega)).symm
  · have : ¬ i < min (pos + length) region.size - pos := by omega
    simp [inside, this]

theorem window_length (region : Region) (pos length : Nat) (inside : pos + length ≤ region.size) :
    (region.window pos length).length = length := by
  simp [window]
  omega

theorem window_overwrite (region : Region) (pos : Nat) (bytes : Bytes)
    (inside : pos + bytes.length ≤ region.size) :
    (region.overwrite pos bytes).window pos bytes.length = bytes := by
  apply List.ext_getElem?
  intro i
  rw [window_get, overwrite_get]
  by_cases h : i < bytes.length
  · have : pos ≤ pos + i ∧ pos + i < pos + bytes.length ∧ pos + i < region.size := by omega
    simp [h, this]
  · simp [h]

theorem window_overwrite_apart (region : Region) (pos : Nat) (bytes : Bytes) (low length : Nat)
    (apart : low + length ≤ pos ∨ pos + bytes.length ≤ low) :
    (region.overwrite pos bytes).window low length = region.window low length := by
  apply List.ext_getElem?
  intro i
  rw [window_get, window_get, overwrite_get]
  by_cases h : i < length
  · have : ¬ (pos ≤ low + i ∧ low + i < pos + bytes.length ∧ low + i < region.size) := by omega
    simp [h, this]
  · simp [h]

end Region

-- The longest block that the machine gives out. Any single record fits into it, and no machine gives
-- out half of the addresses at once.
abbrev BlockLimit := { bytes : Nat // 2147483712 ≤ bytes ∧ bytes < 9223372036854775808 }

structure Memory where
  regions : Array Region
  limit : BlockLimit
deriving DecidableEq, Repr

namespace Memory

def empty : Memory := ⟨#[], 9223372036854775807, by decide⟩

def region (memory : Memory) (id : Nat) : Region := memory.regions.getD id #[]

def fresh (memory : Memory) : Nat := memory.regions.size

def grow (memory : Memory) (size : Nat) : Memory :=
  { memory with regions := memory.regions.push (Region.blank size) }

def overwrite (memory : Memory) (id pos : Nat) (bytes : Bytes) : Memory :=
  { memory with regions := memory.regions.modify id (·.overwrite pos bytes) }

@[simp] theorem region_overwrite (memory : Memory) (id pos : Nat) (bytes : Bytes) (other : Nat) :
    (memory.overwrite id pos bytes).region other =
      if id = other then (memory.region other).overwrite pos bytes else memory.region other := by
  simp only [overwrite, region, Array.getD_eq_getD_getElem?, Array.getElem?_modify]
  by_cases same : id = other
  · subst same
    cases found : memory.regions[id]? with
    | some _ => simp
    | none =>
      cases bytes with
      | nil => simp [Region.overwrite]
      | cons b rest =>
        have size := Region.overwrite_size #[] pos (b :: rest)
        simp only [if_true, Option.map_none, Option.getD_none]
        exact (Array.eq_empty_of_size_eq_zero size).symm
  · simp [same]

theorem region_grow (memory : Memory) (size : Nat) :
    (memory.grow size).region memory.fresh = Region.blank size := by
  simp [grow, region, fresh]

theorem region_grow_old (memory : Memory) (size id : Nat) (old : id < memory.fresh) :
    (memory.grow size).region id = memory.region id := by
  have differ : id ≠ memory.regions.size := Nat.ne_of_lt old
  simp [grow, region, Array.getElem?_push, differ]

end Memory

end RecordStore
