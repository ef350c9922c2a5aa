import RecordStore.Table

namespace RecordStore.Table

abbrev Action := EStateM Fault Table

def note (notice : Notice) : Action Unit :=
  modify fun table => { table with notices := table.notices ++ [notice] }

def refuse (notice : Notice) : Action Bool := do
  note notice
  return false

-- What a cursor of a table is for: appends and look-ups hand out one, the walk hands out the other.
inductive Role where
  | finder
  | walker
deriving DecidableEq, Repr

def cursor (table : Table) : Role → Cursor
  | .finder => table.finder
  | .walker => table.walker

def session (table : Table) (cursor : Cursor) : Session (List ValueIndex) :=
  ⟨cursor, table.memory, table.contents.indexes, table.notices⟩

def settle (table : Table) (role : Role) (session : Session (List ValueIndex)) : Table :=
  { table with
    memory := session.memory
    contents := { table.contents with indexes := session.owner }
    finder := match role with
      | .finder => session.cursor
      | .walker => table.finder
    walker := match role with
      | .finder => table.walker
      | .walker => session.cursor
    notices := session.notices }

def withCursor {α : Type} (role : Role) (work : Session.Action (List ValueIndex) α) : Action α :=
  fun table =>
    match work (table.session (table.cursor role)) with
    | .ok a session => .ok a (table.settle role session)
    | .error fault session => .error fault (table.settle role session)

abbrev onFinder {α : Type} (work : Session.Action (List ValueIndex) α) : Action α :=
  withCursor .finder work

abbrev onWalker {α : Type} (work : Session.Action (List ValueIndex) α) : Action α :=
  withCursor .walker work

def find (offset : UInt64) : Action Unit := do
  let table ← get
  onFinder do
    Session.bind table.buffer offset
    Session.lockKey

def register (key : Int64) (offset : UInt64) : Action Unit :=
  modify fun table =>
    { table with contents := table.contents.register key offset table.slotStride }

def writeKey (key : Int64) (value : Value) : Action Bool := do
  let table ← get
  let slot ← attempt table.keySlot
  if slot.attrs.sequence then
    onFinder (Session.setSequence table.keyPosition key)
    return true
  else onFinder (Session.write indexOwner table.keyPosition value)

def clear (offset : UInt64) : Action Unit := do
  let table ← get
  let memory ← attempt (table.buffer.fill table.memory offset table.layout.stride 0)
  set { table with memory }

def append (key : Int64) : Action Bool := do
  let table ← get
  if table.isFull then refuse (.appendFull table.capacity)
  else if table.hasKey key then refuse (.appendDuplicate key)
  else
    let value ← attempt (table.keyValue key)
    let offset := table.contents.nextFree
    onFinder do
      Session.bind table.buffer offset
      Session.putHeader
    if ← writeKey key value then
      onFinder Session.lockKey
      register key offset
      return true
    else
      note (.appendClaimed key)
      clear offset
      return false

def indexField (offset : UInt64) (field : Nat) : Action Unit := do
  let value ← onFinder (Session.ask fun cursor memory => cursor.read memory field)
  modify fun table =>
    let indexes := table.contents.indexes
    { table with
      contents := { table.contents with
        indexes := indexOwner.assigned table.memory indexes field offset value }
      notices := table.notices ++ indexOwner.remarks indexes field offset value }

-- Whether the unique values of the copy are free is not asked.
def appendCopy (source : View) (sourceOffset : UInt64) : Action Bool := do
  let table ← get
  if table.isFull then refuse (.copyFull table.capacity)
  else
    let key ← attempt (table.readKey source sourceOffset)
    if table.hasKey key then refuse (.copyDuplicate key)
    else
      let offset := table.contents.nextFree
      let memory ← attempt
        (table.buffer.copy table.memory offset source sourceOffset table.layout.stride)
      set { table with memory }
      find offset
      register key offset
      (table.contents.indexes.map (·.field)).forM (indexField offset)
      return true

def visit (offset : Option UInt64) : Action Bool :=
  match offset with
  | none => return false
  | some offset => do
    find offset
    return true

def seekKey (key : Int64) : Action Bool := do
  visit (← get).contents.offsetByKey[key]?

def seekIndex (i : UInt64) : Action Bool := do
  visit ((← get).offsetOfIndex i)

def seekOffset (offset : UInt64) : Action Bool := do
  visit (if (← get).contents.occupied.contains offset then some offset else none)

def next : Action Unit := do
  let table ← get
  if table.hasMore then
    onWalker do
      Session.bind table.buffer table.ahead
      Session.lockKey
    modify fun table => { table with ahead := table.ahead + table.slotStride }
  else throw .noMoreRecords

def rewind : Action Unit := modify fun table => { table with ahead := 0 }

-- Remembers all bytes and contents. The cursors are not part of it.
def begin : Action Unit := do
  let table ← get
  if table.transactional then set { table with snapshot := some (table.bytes, table.contents) }
  else throw (.tableNotTransactional table.layout.name)

def commit : Action Unit := modify fun table => { table with snapshot := none }

def rollback : Action Bool := do
  let table ← get
  match table.snapshot with
  | none => return false
  | some (bytes, contents) =>
    let memory ← attempt (table.buffer.store table.memory 0 bytes)
    set { table with memory, contents, snapshot := none }
    note (.rolledBack table.layout.name contents.count)
    return true

def poke (offset : UInt64) (bytes : Bytes) : Action Unit := do
  let table ← get
  let memory ← attempt (table.buffer.store table.memory offset bytes)
  set { table with memory }

end RecordStore.Table
