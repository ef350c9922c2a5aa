import RecordStore.Value

namespace RecordStore

inductive LogLevel where
  | debug
  | info
  | warn
  | error
  | off
deriving DecidableEq, Repr

namespace LogLevel

def name : LogLevel → String
  | debug => "DEBUG"
  | info => "INFO"
  | warn => "WARN"
  | error => "ERROR"
  | off => "OFF"

def ofName (text : String) : LogLevel :=
  if text = "DEBUG" ∨ text = "debug" then debug
  else if text = "INFO" ∨ text = "info" then info
  else if text = "ERROR" ∨ text = "error" then error
  else if text = "OFF" ∨ text = "off" then off
  else warn

def rank : LogLevel → Nat
  | debug => 0
  | info => 1
  | warn => 2
  | error => 3
  | off => 4

def isEnabled (level threshold : LogLevel) : Bool :=
  level != off && decide (threshold.rank ≤ level.rank)

def entry (level : LogLevel) (component text : Bytes) : Bytes :=
  let component := component.takeWhile (· != 0)
  utf8 "[" ++ utf8 level.name ++ utf8 "]" ++
    (if component.isEmpty then [] else utf8 "[" ++ component ++ utf8 "]") ++ utf8 " " ++ text

def report (level threshold : LogLevel) (component text : Bytes) : List Bytes :=
  if level.isEnabled threshold then (level.entry component text).splitOn 10 else []

end LogLevel

inductive Notice where
  | uniqueViolation (field : String) (value : Value) (offset : UInt64)
  | indexMoved (field : Nat) (offset : UInt64) (old new : Value)
  | created (layout : String) (capacity stride slotPadding : UInt64) (indexes : Nat)
  | appendFull (capacity : UInt64)
  | appendDuplicate (key : Int64)
  | appendClaimed (key : Int64)
  | copyFull (capacity : UInt64)
  | copyDuplicate (key : Int64)
  | rolledBack (layout : String) (records : UInt64)
deriving DecidableEq, Repr

namespace Notice

def level : Notice → LogLevel
  | created .. | rolledBack .. => .info
  | _ => .debug

def component : Notice → String
  | uniqueViolation .. => "record"
  | indexMoved .. => "index"
  | _ => "repository"

def text : Notice → Bytes
  | uniqueViolation field value offset =>
    utf8 s!"unique violation on '{field}' value " ++ value.render ++ utf8 s!" at offset {offset}"
  | indexMoved field offset old new =>
    utf8 s!"field {field} offset {offset} moved " ++ old.render ++ utf8 " -> " ++ new.render
  | created layout capacity stride slotPadding indexes =>
    utf8 (s!"created '{layout}' capacity={capacity} stride={stride} " ++
      s!"slot_padding={slotPadding} indexes={indexes}")
  | appendFull capacity => utf8 s!"append rejected: full (capacity {capacity})"
  | appendDuplicate key => utf8 s!"append rejected: duplicate key {key}"
  | appendClaimed key =>
    utf8 s!"append rejected: key {key} already claimed on unique key index"
  | copyFull capacity => utf8 s!"append by copy rejected: full (capacity {capacity})"
  | copyDuplicate key => utf8 s!"append by copy rejected: duplicate key {key}"
  | rolledBack layout records => utf8 s!"rolled back '{layout}' to {records} records"

def lines (threshold : LogLevel) (notices : List Notice) : List Bytes :=
  notices.flatMap fun notice =>
    notice.level.report threshold (utf8 notice.component) notice.text

end Notice

end RecordStore
