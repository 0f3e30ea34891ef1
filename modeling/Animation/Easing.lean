/-
# Easing

An easing maps the progress of a timeline, a number from 0 to 1, to the shape of an
animation. Its value is then sampled as an alpha: held between 0 and 1 and counted
in 65535ths. All easings are computed in single precision, operation by operation, and most of
them by curves that are given from outside.
-/

import Animation.Binary.Elementary
import Animation.Range
import Animation.Word

namespace Animation

/-- The shape of an animation. -/
inductive Easing where
  | rampInc
  | rampDec
  | ramp
  | sineInc
  | sineDec
  | sineHalf
  | square
  | smoothstepInc
  | smoothstepDec
  | expInc
  | expDec
  | quadIn
  | quadOut
  | cubicIn
  | cubicOut
  deriving DecidableEq, Repr

namespace Easing

instance : Inhabited Easing := ⟨rampInc⟩

def all : List Easing :=
  [rampInc, rampDec, ramp, sineInc, sineDec, sineHalf, square, smoothstepInc, smoothstepDec,
    expInc, expDec, quadIn, quadOut, cubicIn, cubicOut]

theorem mem_all (easing : Easing) : easing ∈ all := by cases easing <;> decide

/-- The word for an easing. -/
def name : Easing → String
  | rampInc => "ramp-inc"
  | rampDec => "ramp-dec"
  | ramp => "ramp"
  | sineInc => "sine-inc"
  | sineDec => "sine-dec"
  | sineHalf => "sine-half"
  | square => "square"
  | smoothstepInc => "smoothstep-inc"
  | smoothstepDec => "smoothstep-dec"
  | expInc => "exp-inc"
  | expDec => "exp-dec"
  | quadIn => "quad-in"
  | quadOut => "quad-out"
  | cubicIn => "cubic-in"
  | cubicOut => "cubic-out"

/-- The easing a word stands for. -/
def ofName? (word : String) : Option Easing := all.find? (·.name == word)

theorem ofName?_name (easing : Easing) : ofName? easing.name = some easing := by
  cases easing <;> decide

/-- The text of an easing inside the text of a structure. -/
def describe : Easing → String
  | rampInc => "RampInc"
  | rampDec => "RampDec"
  | ramp => "Ramp"
  | sineInc => "SineInc"
  | sineDec => "SineDec"
  | sineHalf => "SineHalf"
  | square => "Square"
  | smoothstepInc => "SmoothstepInc"
  | smoothstepDec => "SmoothstepDec"
  | expInc => "ExpInc"
  | expDec => "ExpDec"
  | quadIn => "QuadIn"
  | quadOut => "QuadOut"
  | cubicIn => "CubicIn"
  | cubicOut => "CubicOut"

private def oneHalf : Single := 1 / 2

private def smoothstep (t : Single) : Single := t * t * (3 - 2 * t)

end Easing

/-- The curves that easings are drawn with. They come from elsewhere, and nothing is known of
their values. -/
structure Curves where
  reverse : Single → Single
  roundtrip : Single → Single
  sineIn : Single → Single
  sineOut : Single → Single
  expoIn : Single → Single
  expoOut : Single → Single
  quadIn : Single → Single
  quadOut : Single → Single
  cubicIn : Single → Single
  cubicOut : Single → Single

namespace Easing

/-- The curves as they are drawn in single precision. -/
def drawn : Curves where
  reverse t := 1 - t
  roundtrip t := if t.lt oneHalf then t * 2 else (1 - t) * 2
  sineIn t := 1 - Single.cos (t * Single.pi / 2)
  sineOut t := Single.sin (t * Single.pi / 2)
  expoIn t := if t.le 0 then 0 else Single.exp2 (Binary.fusedMulAdd 10 t (-10))
  expoOut t := if (1 : Single).le t then 1 else 1 - Single.exp2 (-10 * t)
  quadIn t := t * t
  quadOut t := Binary.fusedMulAdd (1 - t) (-(1 - t)) 1
  cubicIn t := t * t * t
  cubicOut t := 1 - (1 - t) * (1 - t) * (1 - t)

/-- The value of an easing at the progress `t`. -/
def apply (curves : Curves) (easing : Easing) (t : Single) : Single :=
  match easing with
  | rampInc => t
  | rampDec => curves.reverse t
  | ramp => curves.roundtrip t
  | sineInc => curves.sineOut t
  | sineDec => 1 - curves.sineIn t
  | sineHalf => Single.sin (t * Single.pi)
  | square => if t.lt oneHalf then 0 else 1
  | smoothstepInc => smoothstep t
  | smoothstepDec => smoothstep (1 - t)
  | expInc => curves.expoIn t
  | expDec => curves.expoOut (1 - t)
  | quadIn => curves.quadIn t
  | quadOut => curves.quadOut t
  | cubicIn => curves.cubicIn t
  | cubicOut => curves.cubicOut t

/-- The alpha nearest to a value, which is held between 0 and 1 first. What is not a
number counts as 0. -/
def alphaOf (value : Single) : Nat :=
  let held := (value.clamp 0 1).convert Format.binary64
  match (held * Binary.ofNat alphaMax).roundAway? with
  | some alpha => min alpha.toNat Word.max32
  | none => 0

/-- The alpha of an easing at the progress `t`. -/
def sample (curves : Curves) (easing : Easing) (t : Single) : Nat :=
  alphaOf (easing.apply curves t)

end Easing

end Animation
