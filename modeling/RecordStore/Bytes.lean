namespace RecordStore

abbrev Bytes := List UInt8

def encodeLE : Nat → Nat → Bytes
  | 0, _ => []
  | width + 1, n => n.toUInt8 :: encodeLE width (n / 256)

def decodeLE : Bytes → Nat
  | [] => 0
  | b :: rest => b.toNat + 256 * decodeLE rest

@[simp] theorem encode_le_length (width n : Nat) : (encodeLE width n).length = width := by
  induction width generalizing n with
  | zero => rfl
  | succ width ih => simp [encodeLE, ih]

theorem decode_encode_le (width n : Nat) : decodeLE (encodeLE width n) = n % Nat.pow 256 width := by
  induction width generalizing n with
  | zero => exact (Nat.mod_one n).symm
  | succ width ih =>
    have low : n.toUInt8.toNat = n % 256 := rfl
    have grown : Nat.pow 256 (width + 1) = 256 * Nat.pow 256 width := Nat.pow_succ'
    rw [encodeLE, decodeLE, ih, low, grown, Nat.mod_mul]

theorem decode_le_bound (bytes : Bytes) : decodeLE bytes < Nat.pow 256 bytes.length := by
  induction bytes with
  | nil => exact Nat.zero_lt_one
  | cons b rest ih =>
    have small := b.toNat_lt
    have grown : Nat.pow 256 (rest.length + 1) = 256 * Nat.pow 256 rest.length := Nat.pow_succ'
    rw [decodeLE, List.length_cons, grown]
    omega

theorem encode_decode_le (bytes : Bytes) : encodeLE bytes.length (decodeLE bytes) = bytes := by
  induction bytes with
  | nil => rfl
  | cons b rest ih =>
    have := b.toNat_lt
    have low : (b.toNat + 256 * decodeLE rest).toUInt8 = b := by
      apply UInt8.toNat_inj.mp
      simp
    have high : (b.toNat + 256 * decodeLE rest) / 256 = decodeLE rest := by omega
    simp only [List.length_cons, decodeLE, encodeLE, low, high, ih]

def utf8 (text : String) : Bytes := text.toByteArray.data.toList

-- An ASCII byte as it is, any other byte as a question mark.
def asciiByte (b : UInt8) : UInt8 := if b > 127 then 63 else b

def isBlank (b : UInt8) : Bool := b ≤ 32

def trim (text : Bytes) : Bytes :=
  ((text.dropWhile isBlank).reverse.dropWhile isBlank).reverse

def storedText (text : Bytes) : Bytes := trim (text.map asciiByte)

end RecordStore
