import RecordStore.Cursor.Standalone
import RecordStore.Table.Action

namespace RecordStore.Workload

def orderCode (index : UInt64) : String :=
  let digits := Nat.toDigits 10 index.toNat
  String.ofList ("ORD".toList ++ List.replicate (9 - digits.length) '0' ++ digits)

def orderSchema : Schema where
  name := "Order"
  typeId := 7
  groupId := 1
  transactional := true
  keyed := true
  fields := [
    { name := "id", type := .int64, attrs := { key := true } },
    { name := "qty", type := .int32 },
    { name := "price", type := .int64, attrs := { indexed := true } },
    { name := "code", type := .fixedString, maxLength := some 12,
      attrs := { indexed := true, unique := true } },
    { name := "side", type := .char16 },
    { name := "active", type := .bool },
    { name := "version", type := .int32, attrs := { sequence := true } }]

structure OrderFields where
  qty : Nat
  price : Nat
  code : Nat
  side : Nat
  active : Nat
  version : Nat

def orderFields (layout : Layout) : Except Fault OrderFields := do
  return {
    qty := ← layout.resolve "qty"
    price := ← layout.resolve "price"
    code := ← layout.resolve "code"
    side := ← layout.resolve "side"
    active := ← layout.resolve "active"
    version := ← layout.resolve "version" }

def each {σ : Type} (count : Nat) (work : UInt64 → EStateM Fault σ Unit) : EStateM Fault σ Unit :=
  (List.range count).forM fun i => work (UInt64.ofNat i)

def put (field : Nat) (value : Value) : Table.Action Unit := do
  let _ ← Table.onFinder (Session.write indexOwner field value)

def appendNew (key : UInt64) : Table.Action Unit := do
  if ← Table.append key.toInt64 then return ()
  else throw (.appendRefused key.toInt64)

def onOrderBook {α : Type} (memory : Memory) (capacity : UInt64)
    (work : OrderFields → Table.Action α) : Except Fault (α × Table) := do
  let layout ← Layout.build orderSchema
  let fields ← orderFields layout
  let table ← Table.create memory (some layout) capacity {}
  match work fields table with
  | .ok a table => return (a, table)
  | .error fault _ => throw fault

def appendOrder (fields : OrderFields) (i : UInt64) : Table.Action Unit := do
  appendNew i
  put fields.qty (.int32 (i % 100).toInt64.toInt32)
  put fields.price (.int64 (1000 + i % 50).toInt64)
  put fields.code (.text (utf8 (orderCode i)))
  put fields.side (.char16 (if i % 2 = 0 then 66 else 83))
  put fields.active (.bool true)

def append (memory : Memory) (count : UInt64) : Except Fault Table := do
  let ((), table) ← onOrderBook memory count fun fields => each count.toNat (appendOrder fields)
  return table

def index (memory : Memory) (count : UInt64) : Except Fault (List UInt64) := do
  let (offsets, _) ← onOrderBook memory count fun fields => do
    each count.toNat fun i => do
      appendNew i
      put fields.price (.int64 1000)
    each count.toNat fun i => do
      if ← Table.seekKey i.toInt64 then
        put fields.price (.int64 (1000 + i % 64).toInt64)
      else throw (.appendRefused i.toInt64)
    attempt ((← get).withValue fields.price (.int64 1000))
  return offsets

def sumRecords (field : Nat) : Nat → Int64 → Table.Action Int64
  | 0, total => return total
  | fuel + 1, total => do
    if (← get).hasMore then
      Table.next
      let value ← Table.onWalker
        (Session.ask fun cursor memory => cursor.readAs memory .int32 field)
      sumRecords field fuel (total + value.integer?.getD 0)
    else return total

def iterate (memory : Memory) (count : UInt64) : Except Fault Int64 := do
  let (total, _) ← onOrderBook memory count fun fields => do
    each count.toNat fun i => do
      appendNew i
      put fields.qty (.int32 1)
    Table.rewind
    sumRecords fields.qty ((← get).contents.count.toNat + 1) 0
  return total

def sequence (memory : Memory) (count : UInt64) : Except Fault Int64 := do
  let layout ← Layout.build orderSchema
  let fields ← orderFields layout
  let (cursor, memory) ← Cursor.standalone (some layout) memory
  let (last, _) ← (List.range count.toNat).foldlM
    (fun (_, memory) _ => cursor.advance memory fields.version) ((0 : Int64), memory)
  return last

def transaction (memory : Memory) (count rounds : UInt64) : Except Fault Table := do
  let ((), table) ← onOrderBook memory (count + rounds) fun fields => do
    each count.toNat fun i => do
      appendNew i
      put fields.code (.text (utf8 (orderCode i)))
    each rounds.toNat fun r => do
      Table.begin
      let _ ← Table.append (count + r).toInt64
      let _ ← Table.rollback
  return table

def hexadecimal (n : Nat) : String := String.ofList (Nat.toDigits 16 n)

def appendLine (memory : Memory) (count : UInt64) : Except Fault String := do
  let table ← append memory count
  return s!"  records: {table.contents.count}, " ++
    "crc32: 0x" ++ hexadecimal table.crc32.toNat

def indexLine (memory : Memory) (count : UInt64) : Except Fault String := do
  return s!"  price=1000 bucket: {(← index memory count).length}"

def iterateLine (memory : Memory) (count : UInt64) : Except Fault String := do
  return s!"  total qty: {← iterate memory count}"

def sequenceLine (memory : Memory) (count : UInt64) : Except Fault String := do
  return s!"  last version: {← sequence memory count}"

def transactionLine (memory : Memory) (count rounds : UInt64) : Except Fault String := do
  return s!"  records after rollbacks: {(← transaction memory count rounds).contents.count}"

end RecordStore.Workload
