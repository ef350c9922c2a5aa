import RecordStore.Cursor
import RecordStore.Log

namespace RecordStore

structure IndexOwner (σ : Type) where
  -- Whether no record of the owner was ever given the value.
  isFree : Memory → σ → Nat → Value → Bool × σ
  -- The record at an offset now holds the value in the field.
  assigned : Memory → σ → Nat → UInt64 → Value → σ
  -- What the owner reports about such an assignment.
  remarks : σ → Nat → UInt64 → Value → List Notice

structure Written (σ : Type) where
  accepted : Bool
  memory : Memory
  owner : σ
  notices : List Notice

def Value.overflow? (value : Value) (length : UInt64) : Option Nat :=
  match value with
  | .text bytes => if bytes.length > length.toNat then some bytes.length else none
  | _ => none

namespace Cursor

def read (cursor : Cursor) (memory : Memory) (id : Nat) : Except Fault Value := do
  let place ← cursor.requirePlace .read
  place.readSlot memory (← cursor.layout.field id)

def readAll (cursor : Cursor) (memory : Memory) : Except Fault (List Value) :=
  (List.range cursor.layout.fields.length).mapM (cursor.read memory)

def typedField (cursor : Cursor) (type : FieldType) (id : Nat) : Except Fault FieldSlot := do
  let slot ← cursor.layout.field id
  if slot.type = type then return slot else throw (.typeMismatch slot.name slot.type type)

def readAs (cursor : Cursor) (memory : Memory) (type : FieldType) (id : Nat) :
    Except Fault Value := do
  let _ ← cursor.typedField type id
  cursor.read memory id

def checkWrite (cursor : Cursor) (id : Nat) (value : Value) :
    Except Fault (Place × FieldSlot) := do
  let place ← cursor.requirePlace .write
  let slot ← cursor.layout.field id
  if value.type ≠ slot.type then throw (.typeMismatch slot.name slot.type value.type)
  if slot.attrs.sequence then throw (.writeToSequence slot.name)
  place.requireMutable .write
  match value.overflow? slot.length with
  | some length => throw (.textTooLong .write length slot.name slot.length)
  | none =>
    if slot.attrs.key && cursor.keyLocked then throw (.keyLocked .write slot.name)
    return (place, slot)

-- A unique value that is taken is refused and nothing is stored. The owner of the indexes is asked and
-- told about the value as it will be read back.
def write {σ : Type} (owner : IndexOwner σ) (cursor : Cursor) (memory : Memory) (state : σ)
    (id : Nat) (value : Value) : Except Fault (Written σ) := do
  let (place, slot) ← cursor.checkWrite id value
  if slot.attrs.indexed && cursor.reports then
    let held := value.stored
    let (free, state) :=
      if slot.attrs.unique then owner.isFree memory state id held else (true, state)
    if free then
      let memory ← place.writeSlot memory slot value
      return {
        accepted := true
        memory
        owner := owner.assigned memory state id place.offset held
        notices := owner.remarks state id place.offset held }
    else
      return {
        accepted := false
        memory
        owner := state
        notices := [.uniqueViolation slot.name held place.offset] }
  else
    let memory ← place.writeSlot memory slot value
    return { accepted := true, memory, owner := state, notices := [] }

def writePadded {σ : Type} (owner : IndexOwner σ) (cursor : Cursor) (memory : Memory) (state : σ)
    (id : Nat) (text : Bytes) : Except Fault (Written σ) := do
  let slot ← cursor.typedField .fixedString id
  let length := slot.length.toNat
  if text.length > length then throw (.textTooLong .writePadded text.length slot.name slot.length)
  cursor.write owner memory state id (.text (text ++ List.replicate (length - text.length) 32))

end Cursor

end RecordStore
