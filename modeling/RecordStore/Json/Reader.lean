import RecordStore.Json.Token

namespace RecordStore.Json

mutual

def readValue : Nat → List Token → Option (Json × List Token)
  | 0, _ => none
  | fuel + 1, tokens => match tokens with
    | .atom value :: rest => some (value, rest)
    | .text value :: rest => some (.string value, rest)
    | .openArray :: .closeArray :: rest => some (.array [], rest)
    | .openArray :: rest => readItems fuel [] rest
    | .openObject :: .closeObject :: rest => some (.object [], rest)
    | .openObject :: rest => readMembers fuel [] rest
    | _ => none

def readItems : Nat → List Json → List Token → Option (Json × List Token)
  | 0, _, _ => none
  | fuel + 1, items, tokens => do
    let (value, rest) ← readValue fuel tokens
    match rest with
    | .comma :: rest => readItems fuel (items ++ [value]) rest
    | .closeArray :: rest => some (.array (items ++ [value]), rest)
    | _ => none

def readMembers : Nat → List (String × Json) → List Token → Option (Json × List Token)
  | 0, _, _ => none
  | fuel + 1, members, tokens => match tokens with
    | .text name :: .colon :: rest => do
      let (value, rest) ← readValue fuel rest
      match rest with
      | .comma :: rest => readMembers fuel (setMember members name value) rest
      | .closeObject :: rest => some (.object (setMember members name value), rest)
      | _ => none
    | _ => none

end

def ofText? (text : String) : Option Json := do
  let tokens ← Token.ofText? text
  let (value, rest) ← readValue (2 * tokens.length + 1) tokens
  if rest.isEmpty then some value else none

end RecordStore.Json
