import RecordStore.Table.Action

namespace RecordStore

inductive TableOperation where
  | append (key : Int64)
  | appendCopy (source : View) (offset : UInt64)
  | seekKey (key : Int64)
  | seekIndex (i : UInt64)
  | seekOffset (offset : UInt64)
  | hasKey (key : Int64)
  | offsetOfIndex (i : UInt64)
  | withValue (field : Nat) (value : Value)
  | hasMore
  | next
  | rewind
  | begin
  | commit
  | rollback
  | poke (offset : UInt64) (bytes : Bytes)
  | on (role : Table.Role) (operation : CursorOperation)
deriving DecidableEq, Repr

@[match_pattern] abbrev TableOperation.onFinder (operation : CursorOperation) : TableOperation :=
  on .finder operation

@[match_pattern] abbrev TableOperation.onWalker (operation : CursorOperation) : TableOperation :=
  on .walker operation

inductive TableAnswer where
  | done
  | truth (holds : Bool)
  | offset (offset : Option UInt64)
  | offsets (offsets : List UInt64)
  | record (answer : CursorAnswer)
deriving DecidableEq, Repr

def TableOperation.run : TableOperation → Table.Action TableAnswer
  | append key => return .truth (← Table.append key)
  | appendCopy source offset => return .truth (← Table.appendCopy source offset)
  | seekKey key => return .truth (← Table.seekKey key)
  | seekIndex i => return .truth (← Table.seekIndex i)
  | seekOffset offset => return .truth (← Table.seekOffset offset)
  | hasKey key => return .truth ((← get).hasKey key)
  | offsetOfIndex i => return .offset ((← get).offsetOfIndex i)
  | withValue field value => return .offsets (← attempt ((← get).withValue field value))
  | hasMore => return .truth (← get).hasMore
  | next => do Table.next; return .done
  | rewind => do Table.rewind; return .truth (← get).hasMore
  | begin => do Table.begin; return .done
  | commit => do Table.commit; return .done
  | rollback => return .truth (← Table.rollback)
  | poke offset bytes => do Table.poke offset bytes; return .done
  | on role operation => return .record (← Table.withCursor role (operation.run indexOwner))

def Table.step (table : Table) (operation : TableOperation) : Table :=
  match operation.run table with
  | .ok _ table => table
  | .error _ table => table

def Table.after (table : Table) (operations : List TableOperation) : Table :=
  operations.foldl Table.step table

end RecordStore
