import RecordStore.Json

namespace RecordStore.Json

inductive Token where
  | openObject
  | closeObject
  | openArray
  | closeArray
  | colon
  | comma
  | text (value : String)
  -- A value that is one token: a word or a number.
  | atom (value : Json)
deriving Repr

namespace Token

def isBlank (c : Char) : Bool := c == ' ' || c == '\t' || c == '\n' || c == '\r'

def hexDigit? (c : Char) : Option Nat :=
  if '0' ≤ c ∧ c ≤ '9' then some (c.toNat - 48)
  else if 'a' ≤ c ∧ c ≤ 'f' then some (c.toNat - 87)
  else if 'A' ≤ c ∧ c ≤ 'F' then some (c.toNat - 55)
  else none

inductive Piece where
  | plain (c : Char)
  | unit (n : Nat)

def escaped? : Char → Option Char
  | '"' => some '"'
  | '\\' => some '\\'
  | '/' => some '/'
  | 'b' => some '\x08'
  | 'f' => some '\x0c'
  | 'n' => some '\n'
  | 'r' => some '\r'
  | 't' => some '\t'
  | _ => none

def pieces : List Char → Option (List Piece × List Char)
  | [] => none
  | '"' :: rest => some ([], rest)
  | '\\' :: 'u' :: a :: b :: c :: d :: rest => do
    let unit := (((← hexDigit? a) * 16 + (← hexDigit? b)) * 16 + (← hexDigit? c)) * 16
      + (← hexDigit? d)
    let (more, rest) ← pieces rest
    return (.unit unit :: more, rest)
  | '\\' :: c :: rest => do
    let plain ← escaped? c
    let (more, rest) ← pieces rest
    return (.plain plain :: more, rest)
  | c :: rest => do
    if c.toNat < 32 ∨ c = '\\' then none
    let (more, rest) ← pieces rest
    return (.plain c :: more, rest)

-- The characters that pieces stand for. Two units make one character if the first is a high and
-- the second a low surrogate; no surrogate stands alone.
def joinPieces : List Piece → Option (List Char)
  | [] => some []
  | .plain c :: rest => do return c :: (← joinPieces rest)
  | .unit high :: .unit low :: rest =>
    if 0xD800 ≤ high ∧ high ≤ 0xDBFF then
      if 0xDC00 ≤ low ∧ low ≤ 0xDFFF then do
        return Char.ofNat (0x10000 + (high - 0xD800) * 0x400 + (low - 0xDC00)) ::
          (← joinPieces rest)
      else none
    else if 0xDC00 ≤ high ∧ high ≤ 0xDFFF then none
    else do return Char.ofNat high :: (← joinPieces (.unit low :: rest))
  | .unit n :: rest =>
    if 0xD800 ≤ n ∧ n ≤ 0xDFFF then none
    else do return Char.ofNat n :: (← joinPieces rest)

def readText (input : List Char) : Option (String × List Char) := do
  let (found, rest) ← pieces input
  return (String.ofList (← joinPieces found), rest)

def digits (input : List Char) : List Char × List Char :=
  (input.takeWhile Char.isDigit, input.dropWhile Char.isDigit)

def digitsValue (ds : List Char) : Nat := ds.foldl (fun n c => 10 * n + (c.toNat - 48)) 0

def wholePart : List Char → Option (List Char × List Char)
  | '0' :: rest => some (['0'], rest)
  | input => match digits input with
    | ([], _) => none
    | found => some found

def fractionPart : List Char → Option (List Char × List Char)
  | '.' :: rest => match digits rest with
    | ([], _) => none
    | found => some found
  | input => some ([], input)

def exponentPart : List Char → Option (Option Int × List Char)
  | c :: rest =>
    if c = 'e' ∨ c = 'E' then
      let (negative, rest) := match rest with
        | '-' :: rest => (true, rest)
        | '+' :: rest => (false, rest)
        | rest => (false, rest)
      match digits rest with
      | ([], _) => none
      | (found, rest) =>
        let size : Int := digitsValue found
        some (some (if negative then -size else size), rest)
    else some (none, c :: rest)
  | [] => some (none, [])

def integer (negative : Bool) (size : Nat) : Json :=
  if negative then
    if size ≤ UInt64.size / 2 then .signed (Int64.ofInt (-size)) else .decimal (-size) 0
  else if size < UInt64.size then .unsigned (UInt64.ofNat size) else .decimal size 0

def readNumber (input : List Char) : Option (Json × List Char) := do
  let (negative, input) := match input with
    | '-' :: rest => (true, rest)
    | input => (false, input)
  let (whole, input) ← wholePart input
  let (fraction, input) ← fractionPart input
  let (exponent, input) ← exponentPart input
  if fraction.isEmpty && exponent.isNone then
    return (integer negative (digitsValue whole), input)
  let size : Int := digitsValue (whole ++ fraction)
  return (.decimal (if negative then -size else size) (exponent.getD 0 - fraction.length), input)

def read : List Char → Option (Token × List Char)
  | '{' :: rest => some (.openObject, rest)
  | '}' :: rest => some (.closeObject, rest)
  | '[' :: rest => some (.openArray, rest)
  | ']' :: rest => some (.closeArray, rest)
  | ':' :: rest => some (.colon, rest)
  | ',' :: rest => some (.comma, rest)
  | '"' :: rest => do
    let (value, rest) ← readText rest
    return (.text value, rest)
  | 't' :: 'r' :: 'u' :: 'e' :: rest => some (.atom (.bool true), rest)
  | 'f' :: 'a' :: 'l' :: 's' :: 'e' :: rest => some (.atom (.bool false), rest)
  | 'n' :: 'u' :: 'l' :: 'l' :: rest => some (.atom .null, rest)
  | input => do
    let (value, rest) ← readNumber input
    return (.atom value, rest)

-- All tokens of a text; every token takes at least one character of `fuel`.
def readAll : Nat → List Char → Option (List Token)
  | 0, _ => none
  | fuel + 1, input =>
    match input.dropWhile isBlank with
    | [] => some []
    | input => do
      let (token, rest) ← read input
      return token :: (← readAll fuel rest)

def ofText? (text : String) : Option (List Token) :=
  readAll (text.length + 1) text.toList

end Token

end RecordStore.Json
