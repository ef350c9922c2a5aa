import RecordStore.Cursor

/-!
Transactions on the one record under a cursor. Indexes are not part of them.
-/

namespace RecordStore.Cursor

def begin (cursor : Cursor) (memory : Memory) : Except Fault Cursor := do
  if !cursor.layout.transactional then throw (.recordNotTransactional cursor.layout.name)
  let place ← cursor.requirePlace .begin
  let bytes ← place.buffer.load memory place.offset cursor.layout.stride
  return { cursor with snapshot := some bytes }

def commit (cursor : Cursor) : Cursor := { cursor with snapshot := none }

def rollback (cursor : Cursor) (memory : Memory) : Except Fault (Bool × Cursor × Memory) :=
  match cursor.snapshot with
  | none => .ok (false, cursor, memory)
  | some bytes => do
    if !cursor.buffer.isMutable then throw (.recordReadOnly .rollback)
    let memory ← cursor.buffer.store memory cursor.offset bytes
    return (true, { cursor with snapshot := none }, memory)

end RecordStore.Cursor
