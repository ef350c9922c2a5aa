import RecordStore.Cursor.Sequence

namespace RecordStore.Cursor

def standalone (layout : Option Layout) (memory : Memory) : Except Fault (Cursor × Memory) := do
  let cursor ← create layout false
  let (buffer, memory) ← memory.allocate cursor.layout.stride 64
  let cursor ← cursor.bind buffer 0
  let memory ← cursor.putHeader memory
  let memory ← cursor.layout.sequencePositions.foldlM
    (fun memory id => cursor.setSequence memory id 1) memory
  return (cursor, memory)

end RecordStore.Cursor
