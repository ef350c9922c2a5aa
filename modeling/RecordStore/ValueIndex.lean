import RecordStore.Log
import Std.Data.ExtTreeMap
import Std.Data.ExtTreeSet

/-!
Which records hold a value in one field, and which value a record holds there: kept both ways round,
together with every value that was ever given to the field.
-/

namespace RecordStore

abbrev OffsetSet := Std.ExtTreeSet UInt64

structure ValueIndex where
  field : Nat
  unique : Bool
  -- The records that hold a value; a value that none holds is not there.
  holders : Std.ExtTreeMap Value OffsetSet := ∅
  -- The value each record was given last.
  values : Std.ExtTreeMap UInt64 Value := ∅
  -- Every value ever given to a unique field. Replacing a value does not free it.
  claimed : Std.ExtTreeSet Value := ∅
deriving DecidableEq

namespace ValueIndex

def dropHolder (holders : Std.ExtTreeMap Value OffsetSet) (value : Value) (offset : UInt64) :
    Std.ExtTreeMap Value OffsetSet :=
  match holders[value]? with
  | none => holders
  | some offsets =>
    let rest := offsets.erase offset
    if rest.isEmpty then holders.erase value else holders.insert value rest

def replaced (index : ValueIndex) (offset : UInt64) (value : Value) : Option Value :=
  index.values[offset]?.filter (· != value)

def assign (index : ValueIndex) (offset : UInt64) (value : Value) : ValueIndex :=
  let kept := match index.replaced offset value with
    | some old => dropHolder index.holders old offset
    | none => index.holders
  { index with
    holders := kept.insert value ((kept[value]?.getD ∅).insert offset)
    values := index.values.insert offset value
    claimed := if index.unique then index.claimed.insert value else index.claimed }

def remarks (index : ValueIndex) (offset : UInt64) (value : Value) : List Notice :=
  match index.replaced offset value with
  | some old => [.indexMoved index.field offset old value]
  | none => []

def offsetsOf (index : ValueIndex) (value : Value) : List UInt64 :=
  (index.holders[value]?.getD ∅).toList

def isFree (index : ValueIndex) (value : Value) : Bool := !index.claimed.contains value

def value? (index : ValueIndex) (offset : UInt64) : Option Value := index.values[offset]?

def heldCount (index : ValueIndex) : Nat := index.holders.size

def recordCount (index : ValueIndex) : Nat := index.values.size

def claimedCount (index : ValueIndex) : Nat := index.claimed.size

end ValueIndex

end RecordStore
