import RecordStore.Checksum
import Mathlib.Algebra.Group.Nat.Defs
import Mathlib.Logic.Function.Iterate

/-!
A step by one bit is linear in exclusive or, and if the polynomial has its highest bit it can be
undone. So the table does in one look-up what eight steps do, and the register keeps apart what
differs in at most four bytes.
-/

namespace RecordStore.Checksum

def shiftOut (polynomial register : UInt32) : UInt32 :=
  if register &&& 1 = 1 then (register >>> 1) ^^^ polynomial else register >>> 1

def bitByBit (polynomial : UInt32) (bytes : Bytes) : UInt32 :=
  ~~~ bytes.foldl (fun register byte => (shiftOut polynomial)^[8] (register ^^^ byte.toUInt32))
    0xFFFFFFFF

section Step

variable (polynomial : UInt32)

theorem low_bit (register : UInt32) : register &&& 1 = 0 ∨ register &&& 1 = 1 := by
  have bit : (register &&& 1).toNat = register.toNat % 2 := by
    rw [UInt32.toNat_and]
    exact Nat.and_one_is_mod _
  rcases Nat.mod_two_eq_zero_or_one register.toNat with even | odd
  · exact .inl (UInt32.toNat_inj.mp (bit.trans even))
  · exact .inr (UInt32.toNat_inj.mp (bit.trans odd))

theorem low_bit_iff {register : UInt32} : register &&& 1 = 0 ↔ register.toNat % 2 = 0 := by
  rw [← UInt32.toNat_inj, UInt32.toNat_and]
  exact Iff.of_eq (congrArg (· = 0) (Nat.and_one_is_mod _))

theorem low_bit_xor (one other : UInt32) :
    (one ^^^ other) &&& 1 = (one &&& 1) ^^^ (other &&& 1) := by
  have two (n : Nat) : n &&& 1 = n % 2 ^ 1 := Nat.and_one_is_mod n
  apply UInt32.toNat_inj.mp
  rw [UInt32.toNat_and, UInt32.toNat_xor, UInt32.toNat_xor, UInt32.toNat_and, UInt32.toNat_and]
  change (_ ^^^ _) &&& 1 = (_ &&& 1) ^^^ (_ &&& 1)
  rw [two, two, two, Nat.xor_mod_two_pow]

theorem shifted (register : UInt32) : (register >>> 1).toNat = register.toNat / 2 := by
  rw [UInt32.toNat_shiftRight]
  exact Nat.shiftRight_eq_div_pow _ 1

theorem bit_step_even {register : UInt32} (even : register &&& 1 = 0) :
    bitStep polynomial register = register >>> 1 := by
  rw [bitStep, even, UInt32.sub_zero, UInt32.and_zero, UInt32.xor_zero]

theorem bit_step_odd {register : UInt32} (odd : register &&& 1 = 1) :
    bitStep polynomial register = (register >>> 1) ^^^ polynomial := by
  have ones : (0 : UInt32) - 1 = -1 := rfl
  rw [bitStep, odd, ones, UInt32.and_neg_one]

theorem bit_step_shift (register : UInt32) :
    bitStep polynomial register = shiftOut polynomial register := by
  rw [shiftOut]
  rcases low_bit register with even | odd
  · rw [even, if_neg (by decide), bit_step_even polynomial even]
  · rw [if_pos odd, bit_step_odd polynomial odd]

theorem bit_step_xor (one other : UInt32) : bitStep polynomial (one ^^^ other) =
    bitStep polynomial one ^^^ bitStep polynomial other := by
  have low := low_bit_xor one other
  rcases low_bit one with even | odd <;> rcases low_bit other with also_even | also_odd
  · rw [bit_step_even _ even, bit_step_even _ also_even, bit_step_even, UInt32.shiftRight_xor]
    rw [low, even, also_even]
    rfl
  · rw [bit_step_even _ even, bit_step_odd _ also_odd, bit_step_odd, UInt32.shiftRight_xor,
      UInt32.xor_assoc]
    rw [low, even, also_odd]
    rfl
  · rw [bit_step_odd _ odd, bit_step_even _ also_even, bit_step_odd, UInt32.shiftRight_xor,
      UInt32.xor_assoc, UInt32.xor_assoc, UInt32.xor_comm polynomial]
    rw [low, odd, also_even]
    rfl
  -- The polynomial goes in twice, and so not at all.
  · rw [bit_step_odd _ odd, bit_step_odd _ also_odd, bit_step_even, UInt32.shiftRight_xor,
      UInt32.xor_comm (other >>> 1), UInt32.xor_assoc, ← UInt32.xor_assoc polynomial,
      UInt32.xor_self, UInt32.zero_xor]
    rw [low, odd, also_odd]
    rfl

theorem bit_steps_xor (count : Nat) (one other : UInt32) :
    bitSteps polynomial count (one ^^^ other) =
      bitSteps polynomial count one ^^^ bitSteps polynomial count other := by
  induction count generalizing one other with
  | zero => rfl
  | succ count ih => rw [bitSteps, bitSteps, bitSteps, bit_step_xor, ih]

theorem bit_steps_iterate (count : Nat) (register : UInt32) :
    bitSteps polynomial count register = (shiftOut polynomial)^[count] register := by
  induction count generalizing register with
  | zero => rfl
  | succ count ih => rw [bitSteps, ih, bit_step_shift, Function.iterate_succ_apply]

theorem bit_steps_add (first later : Nat) (register : UInt32) :
    bitSteps polynomial (first + later) register =
      bitSteps polynomial later (bitSteps polynomial first register) := by
  rw [bit_steps_iterate, bit_steps_iterate, bit_steps_iterate, Nat.add_comm,
    Function.iterate_add_apply]

theorem bit_steps_zeros {count : Nat} {register : UInt32}
    (zeros : register.toNat % 2 ^ count = 0) :
    (bitSteps polynomial count register).toNat = register.toNat / 2 ^ count := by
  induction count generalizing register with
  | zero => exact (Nat.div_one _).symm
  | succ count ih =>
    rw [Nat.pow_succ'] at zeros ⊢
    have even : register.toNat % 2 = 0 := by
      have := Nat.mod_mul_right_mod register.toNat 2 (2 ^ count)
      rw [zeros] at this
      exact this.symm
    have rest : (register >>> 1).toNat % 2 ^ count = 0 := by
      rw [shifted, ← Nat.mod_mul_right_div_self, zeros]
    rw [bitSteps, bit_step_even polynomial (low_bit_iff.mpr even), ih rest, shifted,
      Nat.div_div_eq_div_mul]

theorem bit_steps_byte (register : UInt32) : bitSteps polynomial 8 register =
    bitSteps polynomial 8 register.toUInt8.toUInt32 ^^^ (register >>> 8) := by
  let low := register.toUInt8.toUInt32
  have small : low.toNat = register.toNat % 2 ^ 8 := by
    rw [UInt8.toNat_toUInt32, UInt32.toNat_toUInt8]
  have split : low ^^^ (register ^^^ low) = register := by
    rw [UInt32.xor_comm register, ← UInt32.xor_assoc, UInt32.xor_self, UInt32.zero_xor]
  have zeros : (register ^^^ low).toNat % 2 ^ 8 = 0 := by
    rw [UInt32.toNat_xor, Nat.xor_mod_two_pow, small, Nat.mod_mod, Nat.xor_self]
  have high : bitSteps polynomial 8 (register ^^^ low) = register >>> 8 := by
    apply UInt32.toNat_inj.mp
    rw [bit_steps_zeros polynomial zeros, UInt32.toNat_xor, Nat.xor_div_two_pow, small,
      Nat.div_eq_of_lt (Nat.mod_lt _ (by decide)), Nat.xor_zero, UInt32.toNat_shiftRight]
    exact (Nat.shiftRight_eq_div_pow _ 8).symm
  calc bitSteps polynomial 8 register
      = bitSteps polynomial 8 (low ^^^ (register ^^^ low)) := by rw [split]
    _ = bitSteps polynomial 8 low ^^^ (register >>> 8) := by rw [bit_steps_xor, high]

end Step

section Table

theorem table_entry_bits (index : UInt8) : tableEntry index = bitSteps ieee 8 index.toUInt32 := by
  have there : index.toNat < 256 := index.toNat_lt
  have found : tableEntry index = ieeeTable[index.toNat] := rfl
  rw [found, ieeeTable, Vector.getElem_ofFn, UInt32.ofNat_uInt8ToNat]

theorem byte_shifted_out (byte : UInt8) : byte.toUInt32 >>> 8 = 0 := by
  apply UInt32.toNat_inj.mp
  rw [UInt32.toNat_shiftRight, UInt8.toNat_toUInt32]
  exact (Nat.shiftRight_eq_div_pow _ 8).trans (Nat.div_eq_of_lt byte.toNat_lt)

theorem table_step_bits (register : UInt32) (byte : UInt8) :
    tableStep register byte = byteStep ieee register byte := by
  rw [tableStep, byteStep, bit_steps_byte, table_entry_bits, UInt32.shiftRight_xor,
    byte_shifted_out, UInt32.xor_zero]

theorem crc32_bitwise (bytes : Bytes) : crc32 bytes = bitwise ieee bytes := by
  have same : tableStep = byteStep ieee := funext₂ table_step_bits
  rw [crc32, bitwise, same]

theorem bitwise_bit_by_bit (polynomial : UInt32) (bytes : Bytes) :
    bitwise polynomial bytes = bitByBit polynomial bytes := by
  have same : byteStep polynomial = fun register byte =>
      (shiftOut polynomial)^[8] (register ^^^ byte.toUInt32) :=
    funext₂ fun register byte => bit_steps_iterate polynomial 8 _
  rw [bitwise, bitByBit, same]

end Table

section Burst

variable {polynomial : UInt32} (high : 2 ^ 31 ≤ polynomial.toNat)
include high

theorem bit_step_zero {register : UInt32} (empty : bitStep polynomial register = 0) :
    register = 0 := by
  have half := shifted register
  have bound := register.toNat_lt
  rcases low_bit register with even | odd
  · rw [bit_step_even polynomial even] at empty
    have none_left := low_bit_iff.mp even
    rw [empty] at half
    apply UInt32.toNat_inj.mp
    change 0 = _ at half
    change _ = 0
    omega
  · rw [bit_step_odd polynomial odd, UInt32.xor_eq_zero_iff] at empty
    rw [empty] at half
    omega

theorem bit_steps_injective (count : Nat) : Function.Injective (bitSteps polynomial count) := by
  induction count with
  | zero => exact fun _ _ same => same
  | succ count ih =>
    intro one other same
    have step : bitStep polynomial one = bitStep polynomial other := ih same
    rw [← UInt32.xor_eq_zero_iff, ← bit_step_xor] at step
    exact UInt32.xor_eq_zero_iff.mp (bit_step_zero high step)

theorem bytes_injective (bytes : Bytes) :
    Function.Injective fun register => bytes.foldl (byteStep polynomial) register := by
  induction bytes with
  | nil => exact fun _ _ same => same
  | cons byte rest ih =>
    intro one other same
    have step : byteStep polynomial one byte = byteStep polynomial other byte := ih same
    exact (UInt32.xor_left_inj _).mp (bit_steps_injective high 8 step)

omit high in
theorem bytes_steps (register : UInt32) (bytes : Bytes) (few : bytes.length ≤ 4) :
    bytes.foldl (byteStep polynomial) register =
      bitSteps polynomial (8 * bytes.length) (register ^^^ UInt32.ofNat (decodeLE bytes)) := by
  induction bytes generalizing register with
  | nil => exact UInt32.xor_zero.symm
  | cons byte rest ih =>
    rw [List.length_cons] at few
    have small := byte.toNat_lt
    have bound : decodeLE rest < 2 ^ 24 :=
      Nat.lt_of_lt_of_le (decode_le_bound rest)
        (Nat.pow_le_pow_right (by decide) (Nat.le_of_succ_le_succ few))
    have number : (UInt32.ofNat (decodeLE (byte :: rest))).toNat =
        byte.toNat + 256 * decodeLE rest := by
      rw [decodeLE, UInt32.toNat_ofNat']
      omega
    have low : (UInt32.ofNat (decodeLE (byte :: rest))).toUInt8 = byte := by
      apply UInt8.toNat_inj.mp
      rw [UInt32.toNat_toUInt8, number]
      omega
    have above : UInt32.ofNat (decodeLE (byte :: rest)) >>> 8 = UInt32.ofNat (decodeLE rest) := by
      apply UInt32.toNat_inj.mp
      rw [UInt32.toNat_shiftRight, number, UInt32.toNat_ofNat']
      refine (Nat.shiftRight_eq_div_pow _ 8).trans ?_
      omega
    have first : bitSteps polynomial 8 (register ^^^ UInt32.ofNat (decodeLE (byte :: rest))) =
        byteStep polynomial register byte ^^^ UInt32.ofNat (decodeLE rest) := by
      rw [byteStep, bit_steps_xor, bit_steps_xor, bit_steps_byte polynomial (UInt32.ofNat _), low,
        above, UInt32.xor_assoc]
    rw [List.foldl_cons, ih _ (Nat.le_of_succ_le few), List.length_cons, Nat.mul_succ,
      Nat.add_comm, bit_steps_add, first]

theorem window_injective (register : UInt32) {one other : Bytes} (few : one.length ≤ 4)
    (even : other.length = one.length)
    (same : one.foldl (byteStep polynomial) register =
      other.foldl (byteStep polynomial) register) : one = other := by
  rw [bytes_steps register one few, bytes_steps register other (even ▸ few), even] at same
  have words := (UInt32.xor_right_inj _).mp (bit_steps_injective high _ same)
  have fits (bytes : Bytes) (short : bytes.length ≤ 4) :
      (UInt32.ofNat (decodeLE bytes)).toNat = decodeLE bytes :=
    Nat.mod_eq_of_lt (Nat.lt_of_lt_of_le (decode_le_bound bytes)
      (Nat.pow_le_pow_right (by decide) short))
  have numbers : decodeLE one = decodeLE other := by
    rw [← fits one few, words, fits other (even ▸ few)]
  rw [← encode_decode_le one, ← encode_decode_le other, numbers, even]

-- What lies before the four bytes brings the register to one and the same state, and what lies
-- behind them keeps two different states apart.
theorem bitwise_burst {one other : Bytes} (even : other.length = one.length) (differ : one ≠ other)
    {pos : Nat} (window : ∀ i, one[i]? ≠ other[i]? → pos ≤ i ∧ i < pos + 4) :
    bitwise polynomial one ≠ bitwise polynomial other := by
  have same (i : Nat) (outside : i < pos ∨ pos + 4 ≤ i) : one[i]? = other[i]? := by
    by_contra unlike
    have := window i unlike
    omega
  have front : one.take pos = other.take pos := by
    apply List.ext_getElem?
    intro i
    rw [List.getElem?_take, List.getElem?_take]
    split
    · rename_i before
      exact same i (.inl before)
    · rfl
  have back : (one.drop pos).drop 4 = (other.drop pos).drop 4 := by
    apply List.ext_getElem?
    intro i
    rw [List.getElem?_drop, List.getElem?_drop, List.getElem?_drop, List.getElem?_drop]
    exact same _ (.inr (by omega))
  have cut (bytes : Bytes) :
      bytes.take pos ++ ((bytes.drop pos).take 4 ++ (bytes.drop pos).drop 4) = bytes := by
    rw [List.take_append_drop, List.take_append_drop]
  intro checks
  have folds := UInt32.not_inj.mp checks
  rw [← cut one, ← cut other, front, back, List.foldl_append, List.foldl_append,
    List.foldl_append, List.foldl_append] at folds
  have states := bytes_injective high _ folds
  have parts := window_injective high _ (List.length_take_le 4 _)
    (by rw [List.length_take, List.length_take, List.length_drop, List.length_drop, even]) states
  apply differ
  rw [← cut one, ← cut other, front, parts, back]

end Burst

end RecordStore.Checksum
