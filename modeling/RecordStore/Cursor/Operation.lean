import RecordStore.Cursor.Field
import RecordStore.Cursor.Sequence
import RecordStore.Cursor.Transaction

/-!
What can be asked of a cursor, as data. A fault leaves everything that was done before it.
-/

namespace RecordStore

structure Session (σ : Type) where
  cursor : Cursor
  memory : Memory
  owner : σ
  notices : List Notice

abbrev Session.Action (σ : Type) := EStateM Fault (Session σ)

inductive CursorOperation where
  | bind (buffer : View) (offset : UInt64)
  | bindHeader (buffer : View) (offset : UInt64)
  | putHeader
  | headerMatches
  | header
  | read (field : Nat)
  | readAll
  | readAs (type : FieldType) (field : Nat)
  | write (field : Nat) (value : Value)
  | writePadded (field : Nat) (text : Bytes)
  | lockKey
  | setSequence (field : Nat) (n : Int64)
  | advance (field : Nat)
  | begin
  | commit
  | rollback
deriving DecidableEq, Repr

inductive CursorAnswer where
  | done
  | truth (holds : Bool)
  | header (header : Header)
  | value (value : Value)
  | values (values : List Value)
  | number (n : Int64)
deriving DecidableEq, Repr

def attempt {σ α : Type} (result : Except Fault α) : EStateM Fault σ α := fun state =>
  match result with
  | .ok a => .ok a state
  | .error fault => .error fault state

namespace Session

variable {σ : Type}

def bind (buffer : View) (offset : UInt64) : Action σ Unit := do
  let session ← get
  let cursor ← attempt (session.cursor.bind buffer offset)
  set { session with cursor }

def putHeader : Action σ Unit := do
  let session ← get
  let memory ← attempt (session.cursor.putHeader session.memory)
  set { session with memory }

def settle (write : Session σ → Except Fault (Written σ)) : Action σ Bool := do
  let session ← get
  let written ← attempt (write session)
  set { session with
    memory := written.memory
    owner := written.owner
    notices := session.notices ++ written.notices }
  return written.accepted

def write (owner : IndexOwner σ) (field : Nat) (value : Value) : Action σ Bool :=
  settle fun session => session.cursor.write owner session.memory session.owner field value

def writePadded (owner : IndexOwner σ) (field : Nat) (text : Bytes) : Action σ Bool :=
  settle fun session => session.cursor.writePadded owner session.memory session.owner field text

def lockKey : Action σ Unit :=
  modify fun session => { session with cursor := session.cursor.lockKey }

def setSequence (field : Nat) (n : Int64) : Action σ Unit := do
  let session ← get
  let memory ← attempt (session.cursor.setSequence session.memory field n)
  set { session with memory }

def advance (field : Nat) : Action σ Int64 := do
  let session ← get
  let (n, memory) ← attempt (session.cursor.advance session.memory field)
  set { session with memory }
  return n

def begin : Action σ Unit := do
  let session ← get
  let cursor ← attempt (session.cursor.begin session.memory)
  set { session with cursor }

def commit : Action σ Unit :=
  modify fun session => { session with cursor := session.cursor.commit }

def rollback : Action σ Bool := do
  let session ← get
  let (restored, cursor, memory) ← attempt (session.cursor.rollback session.memory)
  set { session with cursor, memory }
  return restored

def ask {α : Type} (question : Cursor → Memory → Except Fault α) : Action σ α := do
  let session ← get
  attempt (question session.cursor session.memory)

end Session

def CursorOperation.run {σ : Type} (owner : IndexOwner σ) :
    CursorOperation → Session.Action σ CursorAnswer
  | bind buffer offset => do Session.bind buffer offset; return .done
  | bindHeader buffer offset => do
    Session.bind buffer offset
    Session.putHeader
    return .done
  | putHeader => do Session.putHeader; return .done
  | headerMatches => return .truth (← Session.ask Cursor.headerMatches)
  | header => return .header (← Session.ask Cursor.header)
  | read field => return .value (← Session.ask fun cursor memory => cursor.read memory field)
  | readAll => return .values (← Session.ask Cursor.readAll)
  | readAs type field =>
    return .value (← Session.ask fun cursor memory => cursor.readAs memory type field)
  | write field value => return .truth (← Session.write owner field value)
  | writePadded field text => return .truth (← Session.writePadded owner field text)
  | lockKey => do Session.lockKey; return .done
  | setSequence field n => do Session.setSequence field n; return .done
  | advance field => return .number (← Session.advance field)
  | begin => do Session.begin; return .done
  | commit => do Session.commit; return .done
  | rollback => return .truth (← Session.rollback)

end RecordStore
