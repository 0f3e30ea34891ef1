/-
# Library values as JSON

A fixed point number is a number, a range is a list of two, bounds are an object with a
range for each axis, and gravities, easings and directions are their names. A property
value carries no tag: what it is follows from the shape of its JSON, tried in the order
null, truth value, whole number, number, gravity.

A reader takes the parts of a value in order and reports the first fault.
-/

import Animation.Easing
import Animation.Json.Reading
import Animation.Timeline.Clock
import Animation.Value

namespace Animation

/-- Why a JSON value is not a value of the library. -/
inductive DecodeError where
  | malformed
  | outOfRange (value : Double)
  deriving DecidableEq

namespace DecodeError

/-- The wording of a fault that this library finds. -/
def message? : DecodeError → Option String
  | malformed => none
  | outOfRange value => some (value.toText ++ " does not fit in a 16.16 fixed point value")

end DecodeError

namespace Json

/-- The number that a JSON number stands for in double precision. -/
def asDouble? : Json → Option Double
  | natural n => some (.ofNat n.toNat)
  | negative z => some (.ofInt z)
  | float x => some x
  | _ => none

/-- The name that stands for a case without content: a string, or an object with that one
name and null. -/
def asName? : Json → Option String
  | text s => some s
  | object [(some s, null)] => some s
  | _ => none

/-- A case of an enumeration, by its name. -/
def readCase {α : Type} (ofName? : String → Option α) (j : Json) : Except DecodeError α :=
  match j.asName?.bind ofName? with
  | some a => .ok a
  | none => .error .malformed

/-- A list of two. -/
def readPair {α : Type} (item : Json → Except DecodeError α) : Json → Except DecodeError (Range α)
  | list (first :: rest) => do
      let start ← item first
      match rest with
      | [] => .error .malformed
      | second :: rest => do
          let finish ← item second
          if rest.isEmpty then return { start, finish } else .error .malformed
  | _ => .error .malformed

end Json

namespace Fixed

def toJson (x : Fixed) : Json := .float x.toDouble

/-- The limit of the magnitudes that are read. -/
def readLimit : Double := 32768

def ofJson (j : Json) : Except DecodeError Fixed :=
  match j.asDouble? with
  | none => .error .malformed
  | some x =>
      if !x.isFinite || readLimit.le x.abs then .error (.outOfRange x)
      else match ofDouble x with
        | .ok fixed => .ok fixed
        | .error _ => .error (.outOfRange x)

end Fixed

/-- A whole number from 0 to 255. -/
def readByte : Json → Except DecodeError UInt8
  | .natural n => if n ≤ 255 then .ok n.toUInt8 else .error .malformed
  | _ => .error .malformed

namespace Range

def toJson {α : Type} (item : α → Json) (r : Range α) : Json :=
  .list [item r.start, item r.finish]

def ofJsonFixed : Json → Except DecodeError (Range Fixed) := Json.readPair Fixed.ofJson

def ofJsonByte : Json → Except DecodeError (Range UInt8) := Json.readPair readByte

end Range

namespace ScaleBounds

def toJson (b : ScaleBounds) : Json :=
  .object [(some "x", b.x.toJson Fixed.toJson), (some "y", b.y.toJson Fixed.toJson)]

/-- The axes among the fields of an object, each exactly once; other fields are passed
over. -/
def ofFields (x y : Option (Range Fixed)) :
    List (Option String × Json) → Except DecodeError ScaleBounds
  | [] =>
      match x, y with
      | some x, some y => .ok { x, y }
      | _, _ => .error .malformed
  | (none, _) :: _ => .error .malformed
  | (some name, value) :: rest =>
      if name = "x" then
        if x.isSome then .error .malformed
        else do ofFields (some (← Range.ofJsonFixed value)) y rest
      else if name = "y" then
        if y.isSome then .error .malformed
        else do ofFields x (some (← Range.ofJsonFixed value)) rest
      else if value.isWellFormed then ofFields x y rest
      else .error .malformed

/-- Bounds are an object with both axes, or the list of the two. -/
def ofJson : Json → Except DecodeError ScaleBounds
  | .object fields => ofFields none none fields
  | .list (first :: rest) => do
      let x ← Range.ofJsonFixed first
      match rest with
      | [] => .error .malformed
      | second :: rest => do
          let y ← Range.ofJsonFixed second
          if rest.isEmpty then return { x, y } else .error .malformed
  | _ => .error .malformed

end ScaleBounds

def Gravity.toJson (g : Gravity) : Json := .text g.name

def Gravity.ofJson : Json → Except DecodeError Gravity := Json.readCase Gravity.ofName?

def Easing.toJson (easing : Easing) : Json := .text easing.name

def Easing.ofJson : Json → Except DecodeError Easing := Json.readCase Easing.ofName?

def Direction.toJson (d : Direction) : Json := .text d.name

def Direction.ofJson : Json → Except DecodeError Direction := Json.readCase Direction.ofName?

namespace Value

def toJson : Value → Json
  | null => .null
  | boolean b => .bool b
  | integer n => .natural n
  | float x => .float x
  | gravity g => g.toJson

def ofJson (j : Json) : Except DecodeError Value :=
  match j with
  | .null => .ok null
  | .bool b => .ok (boolean b)
  | .natural n => .ok (integer n)
  | j =>
      match j.asDouble? with
      | some x => .ok (float x)
      | none => do return gravity (← Gravity.ofJson j)

end Value

/-- Read a value of the library from a text that holds nothing else. -/
def Json.decode {α : Type} (read : Json → Except DecodeError α) (s : String) :
    Except DecodeError α := do
  let document := Document.ofText s
  let value ← read document.root
  if document.isClosed then return value else .error .malformed

end Animation
