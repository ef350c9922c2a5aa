import Mathlib.Data.Nat.Bitwise
import RecordStore.Proofs.Access

namespace RecordStore

def roundedSize (size alignment : Nat) : Nat :=
  (size + max alignment 16 - 1) / max alignment 16 * max alignment 16

def Memory.Grants (memory : Memory) (size : Nat) (alignment : UInt64) : Prop :=
  roundedSize size alignment.toNat ≤ memory.limit

instance (memory : Memory) (size : Nat) (alignment : UInt64) :
    Decidable (memory.Grants size alignment) :=
  inferInstanceAs (Decidable (roundedSize size alignment.toNat ≤ memory.limit))

theorem size_le_rounded (size alignment : Nat) : size ≤ roundedSize size alignment := by
  have wide : 0 < max alignment 16 := by omega
  have split := Nat.div_add_mod' (size + max alignment 16 - 1) (max alignment 16)
  have low := Nat.mod_lt (size + max alignment 16 - 1) wide
  rw [roundedSize]
  omega

theorem rounded_lt (size alignment : Nat) :
    roundedSize size alignment < size + max alignment 16 := by
  have below := Nat.div_mul_le_self (size + max alignment 16 - 1) (max alignment 16)
  rw [roundedSize]
  omega

theorem word_pos {n : UInt64} (nonzero : n ≠ 0) : 0 < n.toNat :=
  Nat.pos_of_ne_zero fun zero => nonzero (UInt64.toNat_inj.mp zero)

theorem power_of_two {n : UInt64} (aligned : isPowerOfTwo n = true) : ∃ k, n.toNat = 2 ^ k := by
  rw [isPowerOfTwo, Bool.and_eq_true, bne_iff_ne, beq_iff_eq] at aligned
  obtain ⟨nonzero, masked⟩ := aligned
  have positive : n.toNat ≠ 0 := fun zero => nonzero (UInt64.toNat_inj.mp zero)
  have words := congrArg UInt64.toNat masked
  rw [UInt64.toNat_and, UInt64.toNat_sub_of_le _ _ (UInt64.le_iff_toNat_le.mpr (by
    rw [UInt64.toNat_one]; omega)), UInt64.toNat_one] at words
  exact (Nat.and_sub_one_eq_zero_iff_isPowerOfTwo positive).mp words

theorem and_high_bits {n k : Nat} (small : n < 2 ^ 64) (low : k < 64) :
    n &&& (2 ^ 64 - 1 - (2 ^ k - 1)) = n / 2 ^ k * 2 ^ k := by
  have few : 2 ^ k - 1 < 2 ^ 64 :=
    Nat.lt_of_le_of_lt (Nat.sub_le _ _) (Nat.pow_lt_pow_right (by decide) low)
  apply Nat.eq_of_testBit_eq
  intro i
  rw [Nat.sub_sub, Nat.add_comm 1, Nat.testBit_and, Nat.testBit_two_pow_sub_succ few,
    Nat.testBit_two_pow_sub_one, ← Nat.shiftRight_eq_div_pow, ← Nat.shiftLeft_eq,
    Nat.testBit_shiftLeft, Nat.testBit_shiftRight]
  by_cases high : k ≤ i
  · rw [Nat.add_sub_cancel' high]
    by_cases inside : i < 64
    · simp [high, inside]
    · have beyond : n.testBit i = false :=
        Nat.testBit_lt_two_pow (Nat.lt_of_lt_of_le small
          (Nat.pow_le_pow_right (by decide) (Nat.not_lt.mp inside)))
      simp [beyond]
  · simp [high, Nat.not_le.mp high]

theorem block_alignment_power {alignment : UInt64} (aligned : isPowerOfTwo alignment = true) :
    ∃ k < 64, (blockAlignment alignment).toNat = 2 ^ k ∧ max alignment.toNat 16 = 2 ^ k := by
  rw [blockAlignment]
  by_cases small : alignment < 16
  · have below : alignment.toNat < 16 := UInt64.lt_iff_toNat_lt.mp small
    rw [if_pos small]
    exact ⟨4, by decide, rfl, Nat.max_eq_right (Nat.le_of_lt below)⟩
  · have above : 16 ≤ alignment.toNat := UInt64.le_iff_toNat_le.mp (UInt64.not_lt.mp small)
    obtain ⟨k, power⟩ := power_of_two aligned
    have low : 2 ^ k < 2 ^ 64 := power ▸ alignment.toNat_lt
    rw [if_neg small]
    exact ⟨k, (Nat.pow_lt_pow_iff_right (by decide)).mp low, power,
      (Nat.max_eq_left above).trans power⟩

theorem block_size_eq {size alignment : UInt64} (aligned : isPowerOfTwo alignment = true)
    (filled : 0 < size.toNat) :
    (blockSize size alignment).toNat =
      if size.toNat + max alignment.toNat 16 - 1 < 2 ^ 64 then roundedSize size.toNat alignment.toNat
      else 0 := by
  obtain ⟨k, low, unit, wide⟩ := block_alignment_power aligned
  have positive : 0 < 2 ^ k := Nat.two_pow_pos k
  have one : (1 : UInt64).toNat = 1 := rfl
  have mask : (~~~(blockAlignment alignment - 1)).toNat = 2 ^ 64 - 1 - (2 ^ k - 1) := by
    rw [UInt64.toNat_not, UInt64.toNat_sub_of_le _ _ (UInt64.le_iff_toNat_le.mpr (by
      rw [unit]; exact positive)), unit, one]
    rfl
  have bound := size.toNat_lt
  have sum : (size + blockAlignment alignment - 1).toNat =
      (size.toNat + 2 ^ k - 1) % 2 ^ 64 := by
    have unitLow : 2 ^ k < 2 ^ 64 := Nat.pow_lt_pow_right (by decide) low
    rw [UInt64.toNat_sub, UInt64.toNat_add, unit, one]
    omega
  rw [blockSize, UInt64.toNat_and, sum, mask, and_high_bits (Nat.mod_lt _ (by decide)) low, wide,
    roundedSize, wide]
  split
  · rename_i fits
    rw [Nat.mod_eq_of_lt fits]
  · rename_i wraps
    -- What is left of the sum is less than the unit, and the mask leaves nothing of it.
    have unitLow : 2 ^ k < 2 ^ 64 := Nat.pow_lt_pow_right (by decide) low
    have left : (size.toNat + 2 ^ k - 1) % 2 ^ 64 < 2 ^ k := by omega
    rw [Nat.div_eq_of_lt left, Nat.zero_mul]

section Allocate

variable {memory after : Memory} {size alignment : UInt64} {view : View}

theorem grants_iff (aligned : isPowerOfTwo alignment = true) (filled : 0 < size.toNat) :
    memory.Grants size.toNat alignment ↔
      ¬ blockSize size alignment < size ∧ ¬ memory.limit < (blockSize size alignment).toNat := by
  have block := block_size_eq aligned filled
  have whole := size_le_rounded size.toNat alignment.toNat
  have bound := memory.limit.property.2
  rw [UInt64.lt_iff_toNat_lt, Memory.Grants, block]
  split
  · omega
  · rename_i wraps
    obtain ⟨k, low, -, wide⟩ := block_alignment_power aligned
    have longest : 2 ^ 64 ≤ roundedSize size.toNat alignment.toNat := by
      rw [roundedSize, wide]
      calc 2 ^ 64 = 2 ^ 64 / 2 ^ k * 2 ^ k :=
            (Nat.div_mul_cancel (Nat.pow_dvd_pow 2 (Nat.le_of_lt low))).symm
        _ ≤ (size.toNat + 2 ^ k - 1) / 2 ^ k * 2 ^ k :=
            Nat.mul_le_mul_right _ (Nat.div_le_div_right (by omega))
    omega

-- Why a block is not given out: no machine is asked for one so long that its length wraps.
def blockFault (size : Nat) (alignment : UInt64) : Fault :=
  if size + max alignment.toNat 16 - 1 < 2 ^ 64 then .outOfMemory else .shortBlock

theorem allocate_eq (filled : 0 < size.toNat) (aligned : isPowerOfTwo alignment = true) :
    memory.allocate size alignment =
      if memory.Grants size.toNat alignment then
        .ok (⟨memory.fresh, 0, size, Capabilities.all⟩, memory.grow size.toNat)
      else .error (blockFault size.toNat alignment) := by
  have nonzero : size ≠ 0 := by
    rintro rfl
    exact absurd filled (by decide)
  have granted := @grants_iff memory _ _ aligned filled
  have block := block_size_eq aligned filled
  rw [Memory.allocate, if_neg nonzero, if_neg (by rw [aligned]; decide)]
  by_cases grants : memory.Grants size.toNat alignment
  · obtain ⟨whole, short⟩ := granted.mp grants
    rw [if_neg whole, if_neg short, if_pos grants]
  · rw [if_neg grants, blockFault]
    by_cases fits : size.toNat + max alignment.toNat 16 - 1 < 2 ^ 64
    · have whole : ¬ blockSize size alignment < size := by
        rw [UInt64.lt_iff_toNat_lt, block, if_pos fits]
        exact Nat.not_lt.mpr (size_le_rounded _ _)
      have long : memory.limit < (blockSize size alignment).toNat :=
        not_not.mp fun short => grants (granted.mpr ⟨whole, short⟩)
      rw [if_neg whole, if_pos long, if_pos fits]
    · have short : blockSize size alignment < size := by
        rw [UInt64.lt_iff_toNat_lt, block, if_neg fits]
        exact filled
      rw [if_pos short, if_neg fits]

theorem allocate_ok (filled : 0 < size.toNat)
    (allocated : memory.allocate size alignment = .ok (view, after)) :
    (isPowerOfTwo alignment = true ∧ memory.Grants size.toNat alignment) ∧
      view = ⟨memory.fresh, 0, size, Capabilities.all⟩ ∧ after = memory.grow size.toNat := by
  by_cases aligned : isPowerOfTwo alignment = true
  · rw [allocate_eq filled aligned] at allocated
    split at allocated
    · rename_i grants
      cases allocated
      exact ⟨⟨aligned, grants⟩, rfl, rfl⟩
    · cases allocated
  · have nonzero : size ≠ 0 := by
      rintro rfl
      exact absurd filled (by decide)
    rw [Memory.allocate, if_neg nonzero, if_pos (by simpa using aligned)] at allocated
    cases allocated

theorem grants_record (short : size ≤ Layout.maxStride) : memory.Grants size.toNat 64 := by
  have few : size.toNat ≤ 2147483647 := UInt64.le_iff_toNat_le.mp short
  have least := rounded_lt size.toNat (64 : UInt64).toNat
  have room := memory.limit.property.1
  have unit : max (64 : UInt64).toNat 16 = 64 := rfl
  rw [Memory.Grants]
  omega

end Allocate

end RecordStore
