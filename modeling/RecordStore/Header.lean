import RecordStore.View

namespace RecordStore

structure Header where
  typeId : Int16
  groupId : Int16
  bodyLength : Int32
deriving DecidableEq, Repr

namespace Header

def length : UInt64 := 8

def encode (header : Header) : Bytes :=
  encodeLE 2 header.typeId.toUInt16.toNat ++ encodeLE 2 header.groupId.toUInt16.toNat ++
    encodeLE 4 header.bodyLength.toUInt32.toNat

def decode (bytes : Bytes) : Header where
  typeId := Int16.ofNat (decodeLE (bytes.take 2))
  groupId := Int16.ofNat (decodeLE ((bytes.drop 2).take 2))
  bodyLength := Int32.ofNat (decodeLE ((bytes.drop 4).take 4))

def load (view : View) (memory : Memory) (offset : UInt64) : Except Fault Header :=
  return decode (← view.load memory offset length)

def store (header : Header) (view : View) (memory : Memory) (offset : UInt64) :
    Except Fault Memory := do
  let place ← view.slice offset length
  place.store memory 0 header.encode

theorem encode_length (header : Header) : header.encode.length = 8 := by
  simp [encode]

theorem decode_encode (header : Header) : decode header.encode = header := by
  obtain ⟨typeId, groupId, bodyLength⟩ := header
  have shortBound (n : Int16) : n.toUInt16.toNat < Nat.pow 256 2 := n.toUInt16.toNat_lt
  have longBound (n : Int32) : n.toUInt32.toNat < Nat.pow 256 4 := n.toUInt32.toNat_lt
  have short (n : Int16) : Int16.ofNat (decodeLE (encodeLE 2 n.toUInt16.toNat)) = n := by
    rw [decode_encode_le, Nat.mod_eq_of_lt (shortBound n)]
    apply Int16.toBitVec.inj
    simp
  have long (n : Int32) : Int32.ofNat (decodeLE (encodeLE 4 n.toUInt32.toNat)) = n := by
    rw [decode_encode_le, Nat.mod_eq_of_lt (longBound n)]
    apply Int32.toBitVec.inj
    simp
  simp [decode, encode, List.drop_append, List.drop_of_length_le,
    List.take_of_length_le, short, long]

theorem encode_decode {bytes : Bytes} (whole : bytes.length = 8) : (decode bytes).encode = bytes := by
  have short (part : Bytes) (two : part.length = 2) :
      encodeLE 2 (Int16.ofNat (decodeLE part)).toUInt16.toNat = part := by
    have bound := decode_le_bound part
    rw [two] at bound
    have same : (Int16.ofNat (decodeLE part)).toUInt16.toNat = decodeLE part := by
      simpa using Nat.mod_eq_of_lt bound
    rw [same, ← two, encode_decode_le]
  have long (part : Bytes) (four : part.length = 4) :
      encodeLE 4 (Int32.ofNat (decodeLE part)).toUInt32.toNat = part := by
    have bound := decode_le_bound part
    rw [four] at bound
    have same : (Int32.ofNat (decodeLE part)).toUInt32.toNat = decodeLE part := by
      simpa using Nat.mod_eq_of_lt bound
    rw [same, ← four, encode_decode_le]
  have tail : (bytes.drop 4).take 4 = (bytes.drop 2).drop 2 := by
    rw [List.take_of_length_le (by simp [whole]), List.drop_drop]
  rw [encode, decode]
  dsimp only
  rw [short _ (by simp [whole]), short _ (by simp [whole]), long _ (by simp [whole]), tail,
    List.append_assoc, List.take_append_drop, List.take_append_drop]

end Header

end RecordStore
