namespace RecordStore

-- `varString` can be declared, but no record layout has room for it.
inductive FieldType where
  | int32
  | int64
  | int16
  | bool
  | char16
  | fixedString
  | varString
deriving DecidableEq, Repr

namespace FieldType

def all : List FieldType := [int32, int64, int16, bool, char16, fixedString, varString]

def name : FieldType → String
  | int32 => "int32"
  | int64 => "int64"
  | int16 => "int16"
  | bool => "bool"
  | char16 => "char16"
  | fixedString => "fixed_string"
  | varString => "var_string"

def ofName? (text : String) : Option FieldType := all.find? (·.name == text)

def isInteger : FieldType → Bool
  | int32 | int64 | int16 => true
  | bool | char16 | fixedString | varString => false

theorem of_name (type : FieldType) : ofName? type.name = some type := by
  cases type <;> decide

end FieldType

end RecordStore
