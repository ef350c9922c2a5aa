import RecordStore.FieldType

namespace RecordStore

structure FieldAttrs where
  -- Identifies the record in a table; cannot change once locked.
  key : Bool := false
  -- The values of the field can be looked up.
  indexed : Bool := false
  -- No two records may be given the same value.
  unique : Bool := false
  -- A counter, set and advanced but never written.
  sequence : Bool := false
deriving DecidableEq, Repr

structure FieldDef where
  name : String
  type : FieldType
  maxLength : Option UInt32 := none
  attrs : FieldAttrs := {}
deriving DecidableEq, Repr

structure Schema where
  name : String := ""
  typeId : Int16 := 0
  groupId : Int16 := 0
  transactional : Bool := false
  keyed : Bool := false
  fields : List FieldDef := []
deriving DecidableEq, Repr

end RecordStore
