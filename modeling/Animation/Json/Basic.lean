/-
# JSON values

A value of the data model, as it is written and as it is read. Reading never fails as a
whole: where a text has a well-formed part that stands for nothing (a number that is too
large, an ill-formed string) the tree has `unreadable`, and where the text stops being
JSON the tree ends in `broken`. So whoever takes the parts of a value in their order
meets the faults of the text in their order too.
-/

import Animation.Decimal.Layout

namespace Animation

/-- A JSON value. Whole numbers and other numbers are told apart, as their texts are. The
name of a field is missing if its string is ill-formed. -/
inductive Json where
  | null
  | bool (b : Bool)
  | natural (n : UInt64)
  | negative (z : Int)
  | float (x : Double)
  | text (s : String)
  | list (items : List Json)
  | object (fields : List (Option String × Json))
  | unreadable
  | broken
  deriving Inhabited

namespace Json

mutual

/-- Whether the text of a value is JSON to its end, readable or not. -/
def isWellFormed : Json → Bool
  | broken => false
  | list items => areWellFormed items
  | object fields => haveWellFormed fields
  | _ => true

def areWellFormed : List Json → Bool
  | [] => true
  | v :: rest => isWellFormed v && areWellFormed rest

def haveWellFormed : List (Option String × Json) → Bool
  | [] => true
  | (_, v) :: rest => isWellFormed v && haveWellFormed rest

end

private def hexDigit (n : Nat) : Char := (Nat.toDigits 16 n).headD '0'

/-- A character inside a string. -/
def escape (c : Char) : List Char :=
  if c = '"' then ['\\', '"']
  else if c = '\\' then ['\\', '\\']
  else if c = '\n' then ['\\', 'n']
  else if c = '\r' then ['\\', 'r']
  else if c = '\t' then ['\\', 't']
  else if c = '\x08' then ['\\', 'b']
  else if c = '\x0c' then ['\\', 'f']
  else if c.toNat < 32 then ['\\', 'u', '0', '0', hexDigit (c.toNat / 16), hexDigit (c.toNat % 16)]
  else [c]

/-- A string with its quotes. -/
def quote (s : String) : String :=
  String.ofList ('"' :: s.toList.flatMap escape ++ ['"'])

/-- The text of a number that is not whole; there is none for the values that are not
finite. -/
def writeFloat (x : Double) : String :=
  if x.isFinite then Decimal.Layout.interchange.render x else "null"

mutual

/-- The text of a value, without blanks. A fault has no text. -/
def write : Json → String
  | null => "null"
  | bool b => if b then "true" else "false"
  | natural n => n.toNat.repr
  | negative z => z.repr
  | float x => writeFloat x
  | text s => quote s
  | list items => "[" ++ String.intercalate "," (writeAll items) ++ "]"
  | object fields => "\x7b" ++ String.intercalate "," (writeFields fields) ++ "\x7d"
  | unreadable => ""
  | broken => ""

def writeAll : List Json → List String
  | [] => []
  | v :: rest => write v :: writeAll rest

def writeFields : List (Option String × Json) → List String
  | [] => []
  | (name, v) :: rest => (quote (name.getD "") ++ ":" ++ write v) :: writeFields rest

end

end Json

end Animation
