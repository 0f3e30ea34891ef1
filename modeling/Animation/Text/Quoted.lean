/-
# Quoted texts

A text inside the text of a structure stands in quotes. Quotes and backslashes are
escaped, the common control characters have letters, and what is not visible by itself
is written as its code in braces.
-/

import Animation.Failure
import Animation.Text.Hidden
import Animation.Text.Record

namespace Animation

namespace Text

/-- A character by its code. -/
def codeEscape (c : Char) : List Char :=
  '\\' :: 'u' :: '\x7b' :: Nat.toDigits 16 c.toNat ++ ['\x7d']

/-- A character inside quotes. -/
def escape (c : Char) : List Char :=
  if c = '"' then ['\\', '"']
  else if c = '\\' then ['\\', '\\']
  else if c = '\n' then ['\\', 'n']
  else if c = '\r' then ['\\', 'r']
  else if c = '\t' then ['\\', 't']
  else if c = '\x00' then ['\\', '0']
  else if c.toNat < 32 ∨ c.toNat = 127 ∨ isHidden c then codeEscape c
  else [c]

/-- A text in quotes. -/
def quoted (s : String) : String :=
  String.ofList ('"' :: s.toList.flatMap escape ++ ['"'])

end Text

/-- The text of a timeline's error inside the text of a structure. -/
def TimelineError.describe : TimelineError → String
  | invalidFrameRate fps => Text.record "InvalidFrameRate" [("fps", fps.repr)]
  | frameOutOfBounds frame frames =>
      Text.record "FrameOutOfBounds" [("frame", frame.repr), ("n_frames", frames.repr)]

/-- The text of an error inside the text of a structure. -/
def Error.describe : Error → String
  | outsideRuntime => "RuntimeError"
  | timeline cause => Text.record "TimelineError" [("source", cause.describe)]
  | unknown info => Text.record "Unknown" [("info", Text.quoted info)]

end Animation
