import RecordStore.Fault
import RecordStore.Json.Reader
import RecordStore.Schema

/-!
Schemas as JSON documents. Reading checks the shape of the document only; whether the schema has a
layout is for `Layout.build`.
-/

namespace RecordStore

namespace FieldDef

def toJson (field : FieldDef) : Json :=
  let flag (name : String) (set : Bool) : List (String × Json) :=
    if set then [(name, .bool true)] else []
  .object (
    [("name", .string field.name), ("type", .string field.type.name)] ++
    (match field.maxLength with
      | some length => [("max_length", .unsigned length.toUInt64)]
      | none => []) ++
    flag "key" field.attrs.key ++ flag "indexed" field.attrs.indexed ++
    flag "unique" field.attrs.unique ++ flag "sequence" field.attrs.sequence)

end FieldDef

namespace Schema

def toJson (schema : Schema) : Json :=
  .object [
    ("name", .string schema.name),
    ("type_id", .signed schema.typeId.toInt64),
    ("group_id", .signed schema.groupId.toInt64),
    ("transactional", .bool schema.transactional),
    ("repository_keyed", .bool schema.keyed),
    ("fields", .array (schema.fields.map FieldDef.toJson))]

def malformed {α : Type} (flaw : DocumentFlaw) : Except Fault α := .error (.badDocument flaw)

def readId (json : Json) (member : String) : Except Fault Int16 :=
  match json.get? member with
  | none => .ok 0
  | some value =>
    match value.int64? with
    | none => malformed (.idNotInteger member)
    | some n =>
      if n < -32768 ∨ n > 32767 then malformed (.idOutOfRange member) else .ok n.toInt16

def readFlag (json : Json) (member : String) (field : Option String) : Except Fault Bool :=
  match json.get? member with
  | none => .ok false
  | some (.bool value) => .ok value
  | some _ => malformed (.flagNotBoolean field member)

def readMaxLength (json : Json) (field : String) : Except Fault (Option UInt32) :=
  match json.get? "max_length" with
  | none => .ok none
  | some (.unsigned n) =>
    if n > 4294967295 then malformed (.maxLengthTooLarge field) else .ok (some n.toUInt32)
  | some _ => malformed (.maxLengthNotUnsigned field)

def readType (json : Json) (field : String) : Except Fault FieldType :=
  match json.get? "type" with
  | some (.string text) =>
    match FieldType.ofName? text with
    | some type => .ok type
    | none => malformed (.unknownType field text)
  | _ => malformed (.fieldUntyped field)

def readField (json : Json) (position : Nat) : Except Fault FieldDef :=
  match json with
  | .object _ =>
    match json.get? "name" with
    | some (.string name) => do
      let type ← readType json name
      let maxLength ← readMaxLength json name
      let key ← readFlag json "key" (some name)
      let indexed ← readFlag json "indexed" (some name)
      let unique ← readFlag json "unique" (some name)
      let sequence ← readFlag json "sequence" (some name)
      return { name, type, maxLength, attrs := { key, indexed, unique, sequence } }
    | _ => malformed (.fieldUnnamed position)
  | _ => malformed (.fieldNotObject position)

def readFields (json : Json) : Except Fault (List FieldDef) :=
  match json.get? "fields" with
  | some (.array items) => items.zipIdx.mapM fun (item, position) => readField item position
  | _ => malformed .noFields

def readName (json : Json) : Except Fault String :=
  match json.get? "name" with
  | none => .ok ""
  | some (.string name) => .ok name
  | some _ => malformed .nameNotString

def ofJson (json : Json) : Except Fault Schema :=
  match json with
  | .object _ => do
    let name ← readName json
    let typeId ← readId json "type_id"
    let groupId ← readId json "group_id"
    let transactional ← readFlag json "transactional" none
    let keyed ← readFlag json "repository_keyed" none
    let fields ← readFields json
    return { name, typeId, groupId, transactional, keyed, fields }
  | _ => malformed .notObject

def ofText (text : String) : Except Fault Schema :=
  match Json.ofText? text with
  | some json => ofJson json
  | none => malformed .notJson

def ofFile (path : String) (contents : Option String) : Except Fault Schema :=
  match contents with
  | some text => ofText text
  | none => .error (.noSchemaFile path)

end Schema

end RecordStore
