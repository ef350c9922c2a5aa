import RecordStore.Layout
import RecordStore.Value

namespace RecordStore

structure Place where
  buffer : View
  offset : UInt64
deriving DecidableEq, Repr

structure Cursor where
  layout : Layout
  reports : Bool
  place : Option Place := none
  -- Whether the key of the record may no longer change.
  keyLocked : Bool := false
  -- The bytes of the record as they were when a transaction began.
  snapshot : Option Bytes := none
deriving DecidableEq, Repr

namespace Place

def ofSlot (place : Place) (slot : FieldSlot) : UInt64 := place.offset + slot.offset

def requireMutable (place : Place) (action : CursorAction) : Except Fault Unit :=
  if place.buffer.isMutable then .ok () else .error (.recordReadOnly action)

def readSlot (place : Place) (memory : Memory) (slot : FieldSlot) : Except Fault Value := do
  let bytes ← place.buffer.load memory (place.ofSlot slot) slot.length
  match Value.decode? slot.type bytes with
  | some value => return value
  | none => throw .unreadableType

def writeSlot (place : Place) (memory : Memory) (slot : FieldSlot) (value : Value) :
    Except Fault Memory :=
  place.buffer.store memory (place.ofSlot slot) (value.encode slot.length.toNat)

end Place

namespace Cursor

def create (layout : Option Layout) (reports : Bool) : Except Fault Cursor :=
  match layout with
  | some layout => .ok { layout, reports }
  | none => .error .noCursorLayout

def isBound (cursor : Cursor) : Bool := cursor.place.isSome

def buffer (cursor : Cursor) : View := (cursor.place.map (·.buffer)).getD View.empty

def offset (cursor : Cursor) : UInt64 := (cursor.place.map (·.offset)).getD 0

def pending (cursor : Cursor) : Bool := cursor.snapshot.isSome

def bytes (cursor : Cursor) (memory : Memory) : Option Bytes :=
  cursor.place.map fun place => place.buffer.peek memory place.offset cursor.layout.stride

-- Moves to the record at an offset. The record has to lie in the buffer, and a cursor with an
-- index owner stays in its first buffer. Key lock and transaction end with the move.
def bind (cursor : Cursor) (buffer : View) (offset : UInt64) : Except Fault Cursor :=
  let stride := cursor.layout.stride
  if offset > buffer.size ∨ buffer.size - offset < stride then
    .error (.bindOutOfRange offset stride buffer.size)
  else if cursor.reports && cursor.place.any (!buffer.sameBytes ·.buffer) then
    .error .bindElsewhere
  else
    .ok { cursor with place := some ⟨buffer, offset⟩, keyLocked := false, snapshot := none }

def requirePlace (cursor : Cursor) (action : CursorAction) : Except Fault Place :=
  match cursor.place with
  | some place => .ok place
  | none => .error (.unbound action)

def putHeader (cursor : Cursor) (memory : Memory) : Except Fault Memory := do
  let place ← cursor.requirePlace .putHeader
  place.requireMutable .putHeader
  cursor.layout.header.store place.buffer memory place.offset

def headerMatches (cursor : Cursor) (memory : Memory) : Except Fault Bool :=
  match cursor.place with
  | none => .ok false
  | some place => do
    return (← Header.load place.buffer memory place.offset) == cursor.layout.header

def header (cursor : Cursor) (memory : Memory) : Except Fault Header := do
  let place ← cursor.requirePlace .header
  Header.load place.buffer memory place.offset

def lockKey (cursor : Cursor) : Cursor := { cursor with keyLocked := true }

end Cursor

end RecordStore
