import RecordStore.Header
import RecordStore.Schema

namespace RecordStore

structure FieldSlot where
  name : String
  type : FieldType
  offset : UInt64
  length : UInt64
  attrs : FieldAttrs
deriving DecidableEq, Repr

structure Layout where
  name : String
  typeId : Int16
  groupId : Int16
  transactional : Bool
  keyed : Bool
  stride : UInt64
  fields : List FieldSlot
deriving DecidableEq, Repr

def FieldType.byteLength (type : FieldType) (maxLength : Option UInt32) : Except Fault UInt64 :=
  match type with
  | .int32 => .ok 4
  | .int64 => .ok 8
  | .int16 => .ok 2
  | .bool => .ok 1
  | .char16 => .ok 2
  | .fixedString =>
    match maxLength with
    | none => .error .noMaxLength
    | some length => if length = 0 then .error .noMaxLength else .ok length.toUInt64
  | .varString => .error .varStringLength

def FieldDef.lacksLength (field : FieldDef) : Bool :=
  field.type == .fixedString && (field.maxLength == none || field.maxLength == some 0)

namespace Layout

def bare (schema : Schema) : Layout where
  name := schema.name
  typeId := schema.typeId
  groupId := schema.groupId
  transactional := schema.transactional
  keyed := schema.keyed
  stride := Header.length
  fields := []

def position? (layout : Layout) (name : String) : Option Nat :=
  layout.fields.findIdx? (·.name == name)

def resolve (layout : Layout) (name : String) : Except Fault Nat :=
  match layout.position? name with
  | some id => .ok id
  | none => .error (.unknownField layout.name name)

def field (layout : Layout) (id : Nat) : Except Fault FieldSlot :=
  match layout.fields[id]? with
  | some slot => .ok slot
  | none => .error .noSuchField

def keySlot? (layout : Layout) : Option FieldSlot := layout.fields.find? (·.attrs.key)

def keyPosition? (layout : Layout) : Option Nat := layout.fields.findIdx? (·.attrs.key)

def positionsWith (layout : Layout) (attrs : FieldAttrs → Bool) : List Nat :=
  (layout.fields.zipIdx.filter (attrs ·.1.attrs)).map (·.2)

def indexedPositions (layout : Layout) : List Nat := layout.positionsWith (·.indexed)

def sequencePositions (layout : Layout) : List Nat := layout.positionsWith (·.sequence)

def header (layout : Layout) : Header where
  typeId := layout.typeId
  groupId := layout.groupId
  bodyLength := layout.stride.toUInt32.toInt32

def fieldFlaw? (layout : Layout) (field : FieldDef) : Option SchemaFlaw :=
  if field.name = "" then some .emptyFieldName
  else if (layout.position? field.name).isSome then some (.duplicateField field.name)
  else if field.type = .varString then some (.varString field.name)
  else if field.lacksLength then some (.noMaxLength field.name)
  else match if field.attrs.key then layout.keySlot? else none with
  | some first => some (.secondKey first.name field.name)
  | none =>
    if field.attrs.sequence ∧ ¬ field.type.isInteger then some (.sequenceNotInteger field.name)
    else if field.attrs.sequence ∧ field.attrs.indexed then some (.sequenceIndexed field.name)
    else if field.attrs.unique ∧ ¬ field.attrs.indexed then some (.uniqueNotIndexed field.name)
    else none

def append (layout : Layout) (field : FieldDef) : Except Fault Layout :=
  match layout.fieldFlaw? field with
  | some flaw => .error (.badSchema layout.name flaw)
  | none => do
    let length ← field.type.byteLength field.maxLength
    let slot : FieldSlot :=
      { name := field.name, type := field.type, offset := layout.stride, length,
        attrs := field.attrs }
    return { layout with fields := layout.fields ++ [slot], stride := layout.stride + length }

-- The longest record whose length fits the header.
def maxStride : UInt64 := 2147483647

def keyFlaw? (layout : Layout) : Option SchemaFlaw :=
  match layout.keySlot? with
  | none => some .noKey
  | some key => if key.type.isInteger then none else some .keyNotInteger

def recordFlaw? (layout : Layout) : Option SchemaFlaw :=
  match if layout.keyed then layout.keyFlaw? else none with
  | some flaw => some flaw
  | none => if layout.stride > maxStride then some .tooLarge else none

def build (schema : Schema) : Except Fault Layout := do
  let layout ← schema.fields.foldlM append (bare schema)
  match layout.recordFlaw? with
  | some flaw => .error (.badSchema layout.name flaw)
  | none => .ok layout

end Layout

end RecordStore
