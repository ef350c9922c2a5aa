/-!
JSON values. Integers are told apart from other numbers, and by sign, since a schema document asks
which of them a member is.
-/

namespace RecordStore

inductive Json where
  | null
  | bool (value : Bool)
  -- An integer written without a minus sign.
  | unsigned (value : UInt64)
  -- An integer written with a minus sign.
  | signed (value : Int64)
  -- Any other number, as `mantissa * 10 ^ exponent`.
  | decimal (mantissa exponent : Int)
  | string (text : String)
  | array (items : List Json)
  | object (members : List (String × Json))
deriving Inhabited, Repr

namespace Json

def setMember (members : List (String × Json)) (name : String) (value : Json) :
    List (String × Json) :=
  members.filter (·.1 != name) ++ [(name, value)]

def get? (json : Json) (name : String) : Option Json :=
  match json with
  | object members => (members.find? (·.1 == name)).map (·.2)
  | _ => none

-- An integer as a signed word; an unsigned one past its range wraps around.
def int64? : Json → Option Int64
  | unsigned value => some value.toInt64
  | signed value => some value
  | _ => none

end Json

end RecordStore
