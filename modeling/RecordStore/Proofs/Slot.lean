import RecordStore.Cursor.Field
import RecordStore.Proofs.Access
import RecordStore.Proofs.Packing

namespace RecordStore

namespace Value

theorem trim_padded (text : Bytes) (count : Nat) (pad : UInt8) (blank : isBlank pad = true) :
    trim (text ++ List.replicate count pad) = trim text := by
  have front : (List.replicate count pad).dropWhile isBlank = [] := by
    rw [List.dropWhile_replicate, blank]
    rfl
  rw [trim, trim]
  by_cases empty : text.dropWhile isBlank = []
  · rw [List.dropWhile_append, empty, front]
    simp
  · rw [List.dropWhile_append]
    have shown : (text.dropWhile isBlank).isEmpty = false := by simpa using empty
    rw [shown]
    simp [List.reverse_append, List.dropWhile_append, front]

theorem decode_encode (value : Value) (length : Nat) :
    decode? value.type (value.encode length) = some value.stored := by
  cases value with
  | int32 value =>
    have bound : value.toUInt32.toNat < Nat.pow 256 4 := value.toUInt32.toNat_lt
    have same : Int32.ofNat value.toUInt32.toNat = value := Int32.toBitVec.inj (by simp)
    simp only [type, encode, decode?, decode_encode_le, Nat.mod_eq_of_lt bound, same]
    rfl
  | int64 value =>
    have bound : value.toUInt64.toNat < Nat.pow 256 8 := value.toUInt64.toNat_lt
    have same : Int64.ofNat value.toUInt64.toNat = value := Int64.toBitVec.inj (by simp)
    simp only [type, encode, decode?, decode_encode_le, Nat.mod_eq_of_lt bound, same]
    rfl
  | int16 value =>
    have bound : value.toUInt16.toNat < Nat.pow 256 2 := value.toUInt16.toNat_lt
    have same : Int16.ofNat value.toUInt16.toNat = value := Int16.toBitVec.inj (by simp)
    simp only [type, encode, decode?, decode_encode_le, Nat.mod_eq_of_lt bound, same]
    rfl
  | bool value => cases value <;> rfl
  | char16 unit =>
    have bound : unit.toNat < Nat.pow 256 2 := unit.toNat_lt
    have same : UInt16.ofNat unit.toNat = unit := UInt16.ofNat_toNat
    simp only [type, encode, decode?, decode_encode_le, Nat.mod_eq_of_lt bound, same]
    rfl
  | text bytes =>
    simp only [type, encode, decode?, trim_padded _ _ 0 rfl]
    rfl

theorem decode_known {type : FieldType} (known : type ≠ .varString) (bytes : Bytes) :
    ∃ value, decode? type bytes = some value := by
  cases type with
  | varString => exact absurd rfl known
  | _ => exact ⟨_, rfl⟩

end Value

namespace FieldSlot

theorem sized_known {slot : FieldSlot} (sized : slot.Sized) : slot.type ≠ .varString := by
  obtain ⟨maxLength, found⟩ := sized
  intro unknown
  rw [unknown] at found
  cases found

theorem encode_length {slot : FieldSlot} {value : Value} (sized : slot.Sized)
    (type : value.type = slot.type) (short : value.overflow? slot.length = none) :
    (value.encode slot.length.toNat).length = slot.length.toNat := by
  obtain ⟨maxLength, found⟩ := sized
  rw [← type] at found
  cases value with
  | text bytes =>
    rw [Value.overflow?] at short
    split at short
    · cases short
    · simp only [Value.encode, List.length_append, List.length_map, List.length_replicate]
      omega
  | int32 | int64 | int16 | char16 =>
    have length := Except.ok.inj found
    simp only [Value.encode, encode_le_length, ← length]
    rfl
  | bool =>
    have length := Except.ok.inj found
    simp only [Value.encode, ← length]
    rfl

end FieldSlot

section Place

variable {layout : Layout} {place : Place} {memory : Memory} {id : Nat} {slot : FieldSlot}

def Place.Holds (place : Place) (layout : Layout) : Prop :=
  place.offset.toNat + layout.stride.toNat ≤ place.buffer.size.toNat

def contentAt (bytes : Bytes) (pos : Nat) (slot : FieldSlot) : Bytes :=
  part bytes (pos + slot.offset.toNat) slot.length.toNat

def Place.contentOf (place : Place) (memory : Memory) (slot : FieldSlot) : Bytes :=
  contentAt (place.buffer.bytes memory) place.offset.toNat slot

theorem slot_position (packed : layout.Packed) (known : layout.fields[id]? = some slot)
    (holds : place.Holds layout) :
    (place.ofSlot slot).toNat = place.offset.toNat + slot.offset.toNat ∧
      place.offset.toNat + slot.offset.toNat + slot.length.toNat ≤ place.buffer.size.toNat := by
  have inside := packed.inside id slot known
  have small := place.buffer.size.toNat_lt
  rw [Place.Holds] at holds
  refine ⟨?_, by omega⟩
  rw [Place.ofSlot, UInt64.toNat_add]
  exact Nat.mod_eq_of_lt (by omega)

theorem load_content (packed : layout.Packed) (known : layout.fields[id]? = some slot)
    (holds : place.Holds layout) (memory : Memory) :
    place.buffer.load memory (place.ofSlot slot) slot.length =
      .ok (place.contentOf memory slot) := by
  obtain ⟨position, room⟩ := slot_position packed known holds
  refine View.load_ok.mpr ⟨?_, ?_⟩
  · rw [View.in_bounds_iff, position]
    exact room
  · rw [View.peek_eq_part _ _ _ _ (by rw [position]; exact room), position]
    rfl

theorem read_slot_ok (packed : layout.Packed) (known : layout.fields[id]? = some slot)
    (holds : place.Holds layout) {value : Value} :
    place.readSlot memory slot = .ok value ↔
      Value.decode? slot.type (place.contentOf memory slot) = some value := by
  rw [Place.readSlot, load_content packed known holds, except_bind_ok]
  constructor
  · intro shown
    obtain ⟨bytes, ⟨⟩, found⟩ := shown
    cases decoded : Value.decode? slot.type (place.contentOf memory slot) with
    | none =>
      rw [decoded] at found
      cases found
    | some value =>
      rw [decoded] at found
      cases found
      rfl
  · intro decoded
    refine ⟨_, rfl, ?_⟩
    rw [decoded]
    rfl

theorem write_slot_ok (packed : layout.Packed) (known : layout.fields[id]? = some slot)
    (holds : place.Holds layout) (fits : place.buffer.Fits memory) {value : Value}
    {after : Memory} (type : value.type = slot.type) (short : value.overflow? slot.length = none)
    (put : place.writeSlot memory slot value = .ok after) :
    memory.Alike after ∧ place.buffer.bytes after = splice (place.buffer.bytes memory)
      (place.offset.toNat + slot.offset.toNat) (value.encode slot.length.toNat) := by
  obtain ⟨position, room⟩ := slot_position packed known holds
  have whole := FieldSlot.encode_length (packed.sized id slot known) type short
  obtain ⟨-, -, rfl⟩ := View.store_ok.mp put
  refine ⟨View.poke_alike _ _ _ _, ?_⟩
  rw [View.bytes_poke _ _ _ _ fits (by rw [position, whole]; exact room), position]

theorem write_slot_runs (packed : layout.Packed) (known : layout.fields[id]? = some slot)
    (holds : place.Holds layout) (writable : place.buffer.isMutable = true) {value : Value}
    (type : value.type = slot.type) (short : value.overflow? slot.length = none)
    (memory : Memory) : ∃ after, place.writeSlot memory slot value = .ok after := by
  obtain ⟨position, room⟩ := slot_position packed known holds
  have whole := FieldSlot.encode_length (packed.sized id slot known) type short
  have small : (value.encode slot.length.toNat).length < UInt64.size := by
    rw [whole]
    exact slot.length.toNat_lt
  refine ⟨_, View.store_ok.mpr ⟨writable, ?_, rfl⟩⟩
  rw [View.in_bounds_small small, position, whole]
  exact room

end Place

theorem Header.load_encoded {header : Header} {view : View} {memory : Memory} {offset : UInt64}
    (room : offset.toNat + 8 ≤ view.size.toNat)
    (encoded : part (view.bytes memory) offset.toNat 8 = header.encode) :
    Header.load view memory offset = .ok header := by
  have eight : Header.length.toNat = 8 := rfl
  refine except_bind_ok.mpr ⟨header.encode, View.load_ok.mpr ⟨?_, ?_⟩, ?_⟩
  · rw [View.in_bounds_iff, eight]
    exact room
  · rw [View.peek_eq_part _ _ _ _ (by rw [eight]; exact room)]
    exact encoded
  · rw [Header.decode_encode]
    rfl

end RecordStore
