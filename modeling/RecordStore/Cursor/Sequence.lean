import RecordStore.Cursor

namespace RecordStore

def Value.ofInteger? (type : FieldType) (n : Int64) : Option Value :=
  match type with
  | .int32 => some (.int32 n.toInt32)
  | .int64 => some (.int64 n)
  | .int16 => some (.int16 n.toInt16)
  | _ => none

def FieldType.signed? (type : FieldType) (bytes : Bytes) : Option Int64 :=
  (Value.decode? type bytes).bind Value.integer?

namespace Cursor

def checkSequence (cursor : Cursor) (action : CursorAction) (id : Nat) :
    Except Fault (Place × FieldSlot) := do
  let place ← cursor.requirePlace action
  let slot ← cursor.layout.field id
  if !slot.attrs.sequence then throw (.notSequence action slot.name)
  place.requireMutable action
  if slot.attrs.key && cursor.keyLocked then throw (.keyLocked action slot.name)
  return (place, slot)

def setSequence (cursor : Cursor) (memory : Memory) (id : Nat) (n : Int64) :
    Except Fault Memory := do
  let (place, slot) ← cursor.checkSequence .setSequence id
  match Value.ofInteger? slot.type n with
  | some value => place.writeSlot memory slot value
  | none => throw (.sequenceNotInteger .setSequence)

-- Counts atomically where memory allows it, else by reading and writing.
def increment (buffer : View) (memory : Memory) (offset length : UInt64) :
    Except Fault (Bytes × Memory) :=
  let width := length.toNat
  if buffer.addsAtomically offset length then do
    let (before, memory) ← buffer.addAtomic memory offset width 1
    return (encodeLE width (before + 1), memory)
  else do
    let before ← buffer.loadNat memory offset width
    let memory ← buffer.storeNat memory offset width (before + 1)
    return (← buffer.load memory offset length, memory)

def advance (cursor : Cursor) (memory : Memory) (id : Nat) : Except Fault (Int64 × Memory) := do
  let (place, slot) ← cursor.checkSequence .advance id
  if !slot.type.isInteger then throw (.sequenceNotInteger .advance)
  let (bytes, memory) ← increment place.buffer memory (place.ofSlot slot) slot.length
  match slot.type.signed? bytes with
  | some n => return (n, memory)
  | none => throw (.sequenceNotInteger .advance)

end Cursor

end RecordStore
