/-
# Reading JSON texts

A text is read into one tree, with its faults in their places. Blanks are the space, the
tab and the two line ends. Strings hold no control characters, and their escapes must
form characters for the string to be readable.
-/

import Animation.Json.Number

namespace Animation.Json

/-- A text without the blanks at its front. -/
def skipBlank (cs : List Char) : List Char :=
  cs.dropWhile fun c => c == ' ' || c == '\t' || c == '\n' || c == '\r'

/-- The value of a hexadecimal digit. -/
def hexValue? (c : Char) : Option Nat :=
  if '0' ≤ c ∧ c ≤ '9' then some (c.toNat - '0'.toNat)
  else if 'a' ≤ c ∧ c ≤ 'f' then some (c.toNat - 'a'.toNat + 10)
  else if 'A' ≤ c ∧ c ≤ 'F' then some (c.toNat - 'A'.toNat + 10)
  else none

/-- The code that four hexadecimal digits write. -/
def hexCode? (a b c d : Char) : Option Nat := do
  return ((← hexValue? a) * 16 + (← hexValue? b)) * 256 + ((← hexValue? c) * 16 + (← hexValue? d))

/-- The character of an escape of one letter. -/
def shortEscape? : Char → Option Nat
  | '"' => some 34
  | '\\' => some 92
  | '/' => some 47
  | 'b' => some 8
  | 'f' => some 12
  | 'n' => some 10
  | 'r' => some 13
  | 't' => some 9
  | _ => none

/-- The codes of a string up to its closing quote, and the text after it; nothing if the
string is not closed or not well-formed. -/
def readCodes : List Char → Option (List Nat × List Char)
  | [] => none
  | '"' :: rest => some ([], rest)
  | '\\' :: 'u' :: a :: b :: c :: d :: rest => do
      let code ← hexCode? a b c d
      let (codes, rest) ← readCodes rest
      return (code :: codes, rest)
  | '\\' :: e :: rest => do
      let code ← shortEscape? e
      let (codes, rest) ← readCodes rest
      return (code :: codes, rest)
  | c :: rest =>
      if c.toNat < 32 ∨ c = '\\' then none
      else do
        let (codes, rest) ← readCodes rest
        return (c.toNat :: codes, rest)

/-- The characters that codes stand for: a high half of a pair goes with the low half right
after it, and no half stands alone. -/
def assemble : List Nat → Option (List Char)
  | [] => some []
  | high :: codes =>
      if 0xD800 ≤ high ∧ high < 0xDC00 then
        match codes with
        | low :: codes =>
            if 0xDC00 ≤ low ∧ low < 0xE000 then
              (assemble codes).map
                (Char.ofNat (0x10000 + (high - 0xD800) * 0x400 + (low - 0xDC00)) :: ·)
            else none
        | [] => none
      else if 0xDC00 ≤ high ∧ high < 0xE000 then none
      else (assemble codes).map (Char.ofNat high :: ·)

/-- The string after an opening quote. The inner answer is missing if the string is
ill-formed. -/
def readString (cs : List Char) : Option (Option String × List Char) :=
  (readCodes cs).map fun (codes, rest) => ((assemble codes).map String.ofList, rest)

/-- What was read, and the text after it unless the text broke off. -/
abbrev Partial (α : Type) : Type := α × Option (List Char)

mutual

/-- The value at the front of a text. Every second call takes a character, so twice the
length of the text bounds the calls. -/
def readValue : Nat → List Char → Partial Json
  | 0, _ => (broken, none)
  | calls + 1, cs =>
      match skipBlank cs with
      | 'n' :: 'u' :: 'l' :: 'l' :: rest => (null, some rest)
      | 't' :: 'r' :: 'u' :: 'e' :: rest => (bool true, some rest)
      | 'f' :: 'a' :: 'l' :: 's' :: 'e' :: rest => (bool false, some rest)
      | '"' :: rest =>
          match readString rest with
          | some (some s, rest) => (text s, some rest)
          | some (none, rest) => (unreadable, some rest)
          | none => (broken, none)
      | '[' :: rest =>
          match skipBlank rest with
          | ']' :: rest => (list [], some rest)
          | rest =>
              let (items, rest) := readItems calls rest
              (list items, rest)
      | '\x7b' :: rest =>
          match skipBlank rest with
          | '\x7d' :: rest => (object [], some rest)
          | rest =>
              let (fields, rest) := readFields calls rest
              (object fields, rest)
      | cs =>
          match readNumber cs with
          | some (value, rest) => (value, some rest)
          | none => (broken, none)

/-- The items of a list up to its end. -/
def readItems : Nat → List Char → Partial (List Json)
  | 0, _ => ([broken], none)
  | calls + 1, cs =>
      let (item, rest) := readValue calls cs
      match rest with
      | none => ([item], none)
      | some rest =>
          match skipBlank rest with
          | ',' :: rest =>
              let (items, rest) := readItems calls rest
              (item :: items, rest)
          | ']' :: rest => ([item], some rest)
          | _ => ([item, broken], none)

/-- The fields of an object up to its end. -/
def readFields : Nat → List Char → Partial (List (Option String × Json))
  | 0, _ => ([(none, broken)], none)
  | calls + 1, cs =>
      match skipBlank cs with
      | '"' :: rest =>
          match readString rest with
          | none => ([(none, broken)], none)
          | some (name, rest) =>
              match skipBlank rest with
              | ':' :: rest =>
                  let (value, rest) := readValue calls rest
                  match rest with
                  | none => ([(name, value)], none)
                  | some rest =>
                      match skipBlank rest with
                      | ',' :: rest =>
                          let (fields, rest) := readFields calls rest
                          ((name, value) :: fields, rest)
                      | '\x7d' :: rest => ([(name, value)], some rest)
                      | _ => ([(name, value), (none, broken)], none)
              | _ => ([(name, broken)], none)
      | _ => ([(none, broken)], none)

end

/-- A text as a whole: its value, and whether nothing but blanks comes after it. -/
structure Document where
  root : Json
  isClosed : Bool

/-- Read a text. -/
def Document.ofText (s : String) : Document :=
  let cs := s.toList
  let (root, rest) := readValue (2 * cs.length + 2) cs
  { root, isClosed := rest.any fun rest => (skipBlank rest).isEmpty }

end Animation.Json
