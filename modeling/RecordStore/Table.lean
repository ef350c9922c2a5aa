import RecordStore.Cursor.Operation
import RecordStore.ValueIndex

namespace RecordStore

structure Contents where
  offsetByKey : Std.ExtTreeMap Int64 UInt64 := ∅
  -- The offsets of all records.
  occupied : OffsetSet := ∅
  count : UInt64 := 0
  -- Where the next record goes.
  nextFree : UInt64 := 0
  indexes : List ValueIndex
deriving DecidableEq

structure TableOptions where
  -- Unused bytes behind each record.
  slotPadding : UInt64 := 1
  alignment : UInt64 := 64
deriving DecidableEq, Repr

structure Table where
  layout : Layout
  keyPosition : Nat
  capacity : UInt64
  -- From the start of one record to the start of the next.
  slotStride : UInt64
  memory : Memory
  buffer : View
  contents : Contents
  -- The cursor that appends and look-ups hand out.
  finder : Cursor
  walker : Cursor
  ahead : UInt64 := 0
  -- All bytes and contents as they were when a transaction began.
  snapshot : Option (Bytes × Contents) := none
  notices : List Notice := []

namespace Contents

def blank (layout : Layout) : Contents where
  indexes := layout.fields.zipIdx.filterMap fun (slot, id) =>
    if slot.attrs.indexed then some { field := id, unique := slot.attrs.unique } else none

def index? (indexes : List ValueIndex) (field : Nat) : Option ValueIndex :=
  indexes.find? (·.field == field)

def register (contents : Contents) (key : Int64) (offset slotStride : UInt64) : Contents :=
  { contents with
    offsetByKey := contents.offsetByKey.insertIfNew key offset
    occupied := contents.occupied.insert offset
    count := contents.count + 1
    nextFree := contents.nextFree + slotStride }

end Contents

def indexOwner : IndexOwner (List ValueIndex) where
  isFree _ indexes field value := ((Contents.index? indexes field).all (·.isFree value), indexes)
  assigned _ indexes field offset value :=
    indexes.map fun index => if index.field == field then index.assign offset value else index
  remarks indexes field offset value :=
    match Contents.index? indexes field with
    | some index => index.remarks offset value
    | none => []

namespace Table

def create (memory : Memory) (layout : Option Layout) (capacity : UInt64)
    (options : TableOptions) : Except Fault Table :=
  match layout with
  | none => .error .noTableLayout
  | some layout =>
    match layout.keyPosition?, layout.keySlot? with
    | some keyPosition, some key => do
      if !key.type.isInteger then throw (.keyNotInteger layout.name)
      if capacity = 0 then throw .noCapacity
      if !isPowerOfTwo options.alignment then throw .badBufferAlignment
      let slotStride := layout.stride + options.slotPadding
      if slotStride = 0 then throw .divisionByZero
      if capacity > UInt64.ofNat (UInt64.size - 1) / slotStride then
        throw (.capacityOverflow capacity)
      let (buffer, memory) ← memory.allocate (capacity * slotStride) options.alignment
      let contents := Contents.blank layout
      return {
        layout, keyPosition, capacity, slotStride, memory, buffer, contents
        finder := { layout, reports := true }
        walker := { layout, reports := true }
        notices :=
          [.created layout.name capacity layout.stride options.slotPadding contents.indexes.length] }
    | _, _ => .error (.noKeyField layout.name)

def isFull (table : Table) : Bool := decide (table.contents.count ≥ table.capacity)

def hasKey (table : Table) (key : Int64) : Bool := table.contents.offsetByKey.contains key

def offsetOfIndex (table : Table) (i : UInt64) : Option UInt64 :=
  if i ≥ table.contents.count then none else some (i * table.slotStride)

def withValue (table : Table) (field : Nat) (value : Value) : Except Fault (List UInt64) :=
  match Contents.index? table.contents.indexes field with
  | some index => .ok (index.offsetsOf value)
  | none => .error (.notIndexed field)

def hasMore (table : Table) : Bool :=
  table.contents.count != 0 && decide (table.ahead + table.slotStride ≤ table.contents.nextFree)

def transactional (table : Table) : Bool := table.layout.transactional

def pending (table : Table) : Bool := table.snapshot.isSome

def bytes (table : Table) : Bytes := table.buffer.bytes table.memory

def crc32 (table : Table) : UInt32 := Checksum.crc32 table.bytes

def keySlot (table : Table) : Except Fault FieldSlot := table.layout.field table.keyPosition

def keyValue (table : Table) (key : Int64) : Except Fault Value := do
  let slot ← table.keySlot
  match slot.type with
  | .int64 => return .int64 key
  | .int32 =>
    if key < -2147483648 ∨ key > 2147483647 then
      throw (.keyOutOfRange key slot.type slot.name)
    else return .int32 key.toInt32
  | .int16 =>
    if key < -32768 ∨ key > 32767 then throw (.keyOutOfRange key slot.type slot.name)
    else return .int16 key.toInt16
  | _ => throw .undecodableKey

def readKey (table : Table) (source : View) (offset : UInt64) : Except Fault Int64 := do
  let slot ← table.keySlot
  let bytes ← source.load table.memory (offset + slot.offset) slot.length
  match slot.type.signed? bytes with
  | some key => return key
  | none => throw .undecodableKey

end Table

end RecordStore
