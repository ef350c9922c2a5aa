import RecordStore.FieldType

namespace RecordStore

inductive SchemaFlaw where
  | emptyFieldName
  | duplicateField (name : String)
  | varString (name : String)
  | noMaxLength (name : String)
  | secondKey (first second : String)
  | sequenceNotInteger (name : String)
  | sequenceIndexed (name : String)
  | uniqueNotIndexed (name : String)
  | noKey
  | keyNotInteger
  | tooLarge
deriving DecidableEq, Repr

inductive DocumentFlaw where
  | notJson
  | notObject
  | nameNotString
  | idNotInteger (member : String)
  | idOutOfRange (member : String)
  | flagNotBoolean (field : Option String) (member : String)
  | noFields
  | fieldNotObject (position : Nat)
  | fieldUnnamed (position : Nat)
  | fieldUntyped (field : String)
  | unknownType (field type : String)
  | maxLengthNotUnsigned (field : String)
  | maxLengthTooLarge (field : String)
deriving DecidableEq, Repr

inductive CursorAction where
  | putHeader
  | header
  | read
  | write
  | writePadded
  | setSequence
  | advance
  | begin
  | rollback
deriving DecidableEq, Repr

inductive Fault where
  -- memory
  | outOfRange
  | readOnly
  | noAtomicAdd (bits : Nat)
  | badAlignment
  | shortBlock
  | outOfMemory
  -- schemas and layouts
  | noMaxLength
  | varStringLength
  | badSchema (schema : String) (flaw : SchemaFlaw)
  | unknownField (layout field : String)
  | noSuchField
  | badDocument (flaw : DocumentFlaw)
  | noSchemaFile (path : String)
  -- records
  | noCursorLayout
  | bindOutOfRange (offset stride size : UInt64)
  | bindElsewhere
  | unbound (action : CursorAction)
  | recordReadOnly (action : CursorAction)
  | typeMismatch (field : String) (type given : FieldType)
  | writeToSequence (field : String)
  | textTooLong (action : CursorAction) (length : Nat) (field : String) (limit : UInt64)
  | keyLocked (action : CursorAction) (field : String)
  | notSequence (action : CursorAction) (field : String)
  | sequenceNotInteger (action : CursorAction)
  | unreadableType
  | recordNotTransactional (layout : String)
  -- tables
  | noTableLayout
  | noKeyField (layout : String)
  | keyNotInteger (layout : String)
  | noCapacity
  | badBufferAlignment
  | divisionByZero
  | capacityOverflow (capacity : UInt64)
  | undecodableKey
  | keyOutOfRange (key : Int64) (type : FieldType) (field : String)
  | notIndexed (field : Nat)
  | tableNotTransactional (layout : String)
  | noMoreRecords
  -- workloads
  | appendRefused (key : Int64)
deriving DecidableEq, Repr

inductive FaultKind where
  | outOfRange
  | tooLong
  | invalidArgument
  | illegalState
  | unavailable
  | outOfMemory
  -- what the language leaves undefined
  | undefined
deriving DecidableEq, Repr

namespace SchemaFlaw

def message : SchemaFlaw → String
  | emptyFieldName => "field name must not be empty"
  | duplicateField name => s!"duplicate field '{name}'"
  | varString name => s!"field '{name}': variable length strings are not supported"
  | noMaxLength name => s!"field '{name}': fixed_string requires a positive max_length"
  | secondKey first second => s!"more than one key field ('{first}', '{second}')"
  | sequenceNotInteger name => s!"field '{name}': sequence fields must be int16, int32 or int64"
  | sequenceIndexed name => s!"field '{name}': sequence fields cannot be indexed"
  | uniqueNotIndexed name => s!"field '{name}': unique requires indexed"
  | noKey => "repository schemas must have exactly one key field"
  | keyNotInteger => "repository key must be an integer field"
  | tooLarge => "record too large"

end SchemaFlaw

namespace DocumentFlaw

def field (name : String) : String := s!"schema field '{name}'"

def message : DocumentFlaw → String
  | notJson => "schema: invalid JSON"
  | notObject => "schema: document must be an object"
  | nameNotString => "schema: 'name' must be a string"
  | idNotInteger member => s!"schema: '{member}' must be an integer"
  | idOutOfRange member => s!"schema: '{member}' out of int16 range"
  | flagNotBoolean none member => s!"schema: '{member}' must be a boolean"
  | flagNotBoolean (some name) member => s!"{field name}: '{member}' must be a boolean"
  | noFields => "schema: 'fields' must be an array"
  | fieldNotObject position => s!"schema field #{position}: must be an object"
  | fieldUnnamed position => s!"schema field #{position}: missing 'name'"
  | fieldUntyped name => s!"{field name}: missing 'type'"
  | unknownType name type => s!"{field name}: unknown type '{type}'"
  | maxLengthNotUnsigned name => s!"{field name}: 'max_length' must be a non-negative integer"
  | maxLengthTooLarge name => s!"{field name}: 'max_length' too large"

end DocumentFlaw

def CursorAction.name : CursorAction → String
  | putHeader => "write_header"
  | header => "read_header"
  | read => "read"
  | write => "write"
  | writePadded => "write_string_padded"
  | setSequence => "initialize"
  | advance => "next_sequence"
  | begin => "begin_transaction"
  | rollback => "rollback"

namespace Fault

def kind : Fault → FaultKind
  | outOfRange | noSuchField | bindOutOfRange .. | keyOutOfRange .. | noMoreRecords => .outOfRange
  | textTooLong .. => .tooLong
  | badAlignment | noMaxLength | varStringLength | badSchema .. | unknownField .. | badDocument ..
  | noCursorLayout | typeMismatch .. | notSequence .. | noTableLayout | noKeyField ..
  | keyNotInteger .. | noCapacity | badBufferAlignment | capacityOverflow .. | notIndexed .. =>
    .invalidArgument
  | readOnly | noAtomicAdd .. | bindElsewhere | unbound .. | recordReadOnly .. | writeToSequence ..
  | keyLocked .. | sequenceNotInteger .. | unreadableType | recordNotTransactional ..
  | undecodableKey | tableNotTransactional .. | appendRefused .. => .illegalState
  | noSchemaFile .. => .unavailable
  | outOfMemory => .outOfMemory
  | shortBlock | divisionByZero => .undefined

-- The wording of a fault. A field id past the end of a layout has none, nor has what the language or
-- the machine brings about by itself.
def wording : Fault → Option String
  | outOfRange => "BufferView: access out of range"
  | readOnly => "BufferView: cannot write to immutable buffer"
  | noAtomicAdd bits => s!"BufferView::fetch_add_u{bits}: atomic access not supported at offset"
  | badAlignment => "Alignment must be a power of 2"
  | shortBlock | outOfMemory | divisionByZero => none
  | noMaxLength => "FixedString requires a positive max_length"
  | varStringLength => "Variable length strings are not supported"
  | badSchema schema flaw => s!"Schema '{schema}': {flaw.message}"
  | unknownField layout field => s!"Layout '{layout}': unknown field '{field}'"
  | noSuchField => none
  | badDocument flaw => flaw.message
  | noSchemaFile path => s!"Failed to open schema file: {path}"
  | noCursorLayout => "RecordView: layout is null"
  | bindOutOfRange offset stride size =>
    s!"RecordView::bind: offset {offset} + stride {stride} exceeds buffer size {size}"
  | bindElsewhere =>
    "RecordView::bind: view reports to an index owner and cannot move to another buffer"
  | unbound action => s!"RecordView::{action.name}: view is not bound"
  | recordReadOnly action => s!"RecordView::{action.name}: buffer is read-only"
  | typeMismatch field type given =>
    s!"RecordView: field '{field}' is {type.name}, not {given.name}"
  | writeToSequence field =>
    s!"RecordView::write: '{field}' is a sequence field, use initialize() or next_sequence()"
  | textTooLong action length field limit =>
    s!"RecordView::{action.name}: value of {length} bytes exceeds '{field}' max length {limit}"
  | keyLocked action field => s!"RecordView::{action.name}: key field '{field}' is locked"
  | notSequence action field => s!"RecordView::{action.name}: '{field}' is not a sequence field"
  | sequenceNotInteger action =>
    s!"RecordView::{action.name}: sequence field is not an integer"
  | unreadableType => "RecordView::read: unsupported field type"
  | recordNotTransactional layout =>
    s!"RecordView::begin_transaction: layout '{layout}' is not transactional"
  | noTableLayout => "Repository: layout is null"
  | noKeyField layout => s!"Repository: layout '{layout}' has no key field"
  | keyNotInteger layout => s!"Repository: layout '{layout}' key field is not an integer"
  | noCapacity => "Repository: capacity must be positive"
  | badBufferAlignment => "Repository: buffer_alignment must be a power of 2"
  | capacityOverflow capacity => s!"Repository: capacity {capacity} overflows buffer size"
  | undecodableKey => "Repository: key field is not an integer"
  | keyOutOfRange key type field =>
    s!"Repository: key {key} does not fit {type.name} field '{field}'"
  | notIndexed field =>
    s!"Repository::get_all_with_index_value: field {field} is not indexed"
  | tableNotTransactional layout =>
    s!"Repository::begin_transaction: layout '{layout}' is not transactional"
  | noMoreRecords => "Repository::Iterator::next: no more records"
  | appendRefused key => s!"append of key {key} was refused"

def message (fault : Fault) : Option String :=
  fault.wording.map fun text => String.ofList (text.toList.takeWhile (· != '\x00'))

end Fault

end RecordStore
