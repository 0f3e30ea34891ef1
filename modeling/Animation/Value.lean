/-
# Property values

The value of a property, as observers of a change receive it.
-/

import Animation.Fixed
import Animation.Gravity
import Animation.Text.Quoted
import Animation.Text.Record

namespace Animation

/-- The value of a property. -/
inductive Value where
  | null
  | boolean (b : Bool)
  | integer (n : UInt64)
  | float (x : Double)
  | gravity (g : Gravity)
  deriving DecidableEq, Inhabited

namespace Value

instance : Coe Bool Value := ⟨boolean⟩
instance : Coe Double Value := ⟨float⟩
instance : Coe Gravity Value := ⟨gravity⟩
instance : Coe Fixed Value := ⟨fun x => float x.toDouble⟩
instance : Coe UInt8 Value := ⟨fun n => integer n.toUInt64⟩

def isNull : Value → Bool
  | null => true
  | _ => false

def asBoolean? : Value → Option Bool
  | boolean b => some b
  | _ => none

def asInteger? : Value → Option UInt64
  | integer n => some n
  | _ => none

/-- The value as a floating-point number; whole numbers are rounded to one. -/
def asFloat? : Value → Option Double
  | float x => some x
  | integer n => some (.ofNat n.toNat)
  | _ => none

def asGravity? : Value → Option Gravity
  | gravity g => some g
  | _ => none

/-- Whether two values are of one kind and equal. Floating-point numbers are compared by
what they represent, so the zeros are the same and `nan` is not the same as itself. -/
def same : Value → Value → Bool
  | null, null => true
  | boolean a, boolean b => a == b
  | integer m, integer n => m == n
  | float x, float y => x.same y
  | gravity g, gravity h => g == h
  | _, _ => false

/-- The text of a value for people. -/
def toText : Value → String
  | null => "Null"
  | boolean b => Text.bool b
  | integer n => n.toNat.repr
  | float x => x.toText
  | gravity g => g.name

/-- The text of a value inside the text of a structure. -/
def describe : Value → String
  | null => "Null"
  | boolean b => "Boolean(" ++ Text.bool b ++ ")"
  | integer n => "Integer(" ++ n.toNat.repr ++ ")"
  | float x => "Float(" ++ x.toPointedText ++ ")"
  | gravity g => "Gravity(" ++ g.describe ++ ")"

end Value

/-- The news that a property has a new value. -/
structure Change where
  name : String
  value : Value
  deriving DecidableEq, Inhabited

/-- The text of a change inside the text of a structure. -/
def Change.describe (change : Change) : String :=
  Text.record "PropertyChange"
    [("name", Text.quoted change.name), ("value", change.value.describe)]

end Animation
