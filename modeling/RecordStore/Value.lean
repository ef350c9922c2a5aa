import RecordStore.Bytes
import RecordStore.FieldType
import Std.Data.ExtTreeMap

namespace RecordStore

inductive Value where
  | int32 (value : Int32)
  | int64 (value : Int64)
  | int16 (value : Int16)
  | bool (value : Bool)
  -- One 16-bit unit of text.
  | char16 (unit : UInt16)
  | text (bytes : Bytes)
deriving DecidableEq, Repr

namespace Value

def type : Value → FieldType
  | int32 _ => .int32
  | int64 _ => .int64
  | int16 _ => .int16
  | bool _ => .bool
  | char16 _ => .char16
  | text _ => .fixedString

def integer? : Value → Option Int64
  | int32 value => some value.toInt64
  | int64 value => some value
  | int16 value => some value.toInt64
  | bool _ | char16 _ | text _ => none

def render : Value → Bytes
  | int32 value => utf8 (toString value.toInt)
  | int64 value => utf8 (toString value.toInt)
  | int16 value => utf8 (toString value.toInt)
  | bool value => utf8 (if value then "true" else "false")
  | char16 unit => utf8 ("u+" ++ toString unit.toNat)
  | text bytes => utf8 "\"" ++ bytes ++ utf8 "\""

def encode (length : Nat) : Value → Bytes
  | int32 value => encodeLE 4 value.toUInt32.toNat
  | int64 value => encodeLE 8 value.toUInt64.toNat
  | int16 value => encodeLE 2 value.toUInt16.toNat
  | bool value => [if value then 1 else 0]
  | char16 unit => encodeLE 2 unit.toNat
  | text bytes => bytes.map asciiByte ++ List.replicate (length - bytes.length) 0

def decode? (type : FieldType) (bytes : Bytes) : Option Value :=
  match type with
  | .int32 => some (int32 (Int32.ofNat (decodeLE bytes)))
  | .int64 => some (int64 (Int64.ofNat (decodeLE bytes)))
  | .int16 => some (int16 (Int16.ofNat (decodeLE bytes)))
  | .bool => some (bool (decodeLE bytes != 0))
  | .char16 => some (char16 (UInt16.ofNat (decodeLE bytes)))
  | .fixedString => some (text (trim bytes))
  | .varString => none

def stored : Value → Value
  | text bytes => text (storedText bytes)
  | value => value

def orderKey : Value → List Nat
  | int32 value => [0, value.toUInt32.toNat]
  | int64 value => [1, value.toUInt64.toNat]
  | int16 value => [2, value.toUInt16.toNat]
  | bool value => [3, value.toNat]
  | char16 unit => [4, unit.toNat]
  | text bytes => 5 :: bytes.map UInt8.toNat

theorem order_key_injective {a b : Value} (same : a.orderKey = b.orderKey) : a = b := by
  cases a <;> cases b <;>
    simp_all [orderKey, UInt32.toNat_inj, UInt64.toNat_inj, UInt16.toNat_inj, UInt8.toNat_inj,
      List.map_inj_right]
  case int32.int32 a b => exact congrArg Int32.ofUInt32 same
  case int64.int64 a b => exact congrArg Int64.ofUInt64 same
  case int16.int16 a b => exact congrArg Int16.ofUInt16 same
  case bool.bool a b => cases a <;> cases b <;> simp_all

instance : Ord Value := ⟨compareOn orderKey⟩

instance : Std.TransOrd Value := inferInstanceAs (Std.TransCmp (compareOn orderKey))

instance : Std.LawfulEqOrd Value where
  eq_of_compare same := order_key_injective (Std.LawfulEqOrd.eq_of_compare same)

end Value

end RecordStore
