/-
# Ranges and their interpolation

What a behaviour animates is a range: a start and an end. The alpha of an animation,
a count from 0 to 65535, selects a value between the two. Scales are interpolated as
fixed point numbers, on two axes; opacities as whole numbers, where the fraction is
dropped toward the start.
-/

import Animation.Fixed
import Animation.Text.Record

namespace Animation

/-- A start and an end, which may lie in either order. -/
structure Range (α : Type) where
  start : α
  finish : α
  deriving DecidableEq, Inhabited

namespace Range

/-- The text of a range inside the text of a structure. -/
def describe {α : Type} (item : α → String) (r : Range α) : String :=
  Text.record "Range" [("start", item r.start), ("end", item r.finish)]

/-- The value that lies the fraction `t` of the way along the range. -/
def interpolate (r : Range Fixed) (t : Fixed) : Except Violation Fixed :=
  t.lerp r.start r.finish

end Range

/-- Four scales: both starts, then both ends. -/
structure Corners (α : Type) where
  xStart : α
  yStart : α
  xEnd : α
  yEnd : α
  deriving DecidableEq

/-- The scales between which an actor is animated, axis by axis. -/
structure ScaleBounds where
  x : Range Fixed
  y : Range Fixed
  deriving DecidableEq

namespace ScaleBounds

/-- The bounds with the given corners. -/
def ofCorners (c : Corners Fixed) : ScaleBounds := ⟨⟨c.xStart, c.xEnd⟩, ⟨c.yStart, c.yEnd⟩⟩

/-- The corners of bounds. -/
def corners (b : ScaleBounds) : Corners Fixed := ⟨b.x.start, b.y.start, b.x.finish, b.y.finish⟩

@[simp]
theorem corners_ofCorners (c : Corners Fixed) : (ofCorners c).corners = c := rfl

@[simp]
theorem ofCorners_corners (b : ScaleBounds) : ofCorners b.corners = b := rfl

/-- No scaling at all. -/
instance : Inhabited ScaleBounds := ⟨ofCorners ⟨.one, .one, .one, .one⟩⟩

/-- The text of bounds inside the text of a structure. -/
def describe (b : ScaleBounds) : String :=
  Text.record "ScaleBounds"
    [("x", b.x.describe Fixed.describe), ("y", b.y.describe Fixed.describe)]

/-- The scales that lie the fraction `t` of the way along both axes. -/
def interpolate (b : ScaleBounds) (t : Fixed) : Except Violation (Fixed × Fixed) := do
  let x ← b.x.interpolate t
  let y ← b.y.interpolate t
  return (x, y)

end ScaleBounds

/-- The alpha at the end of an animation. -/
def alphaMax : Nat := 65535

/-- An alpha beyond the end of an animation is a violation. -/
def checkAlpha (alpha : Nat) : Except Violation Unit :=
  if alpha ≤ alphaMax then .ok () else .error (.alphaOutOfRange alpha)

/-- The scales at an alpha. -/
def ScaleBounds.sample (b : ScaleBounds) (alpha : Nat) : Except Violation (Fixed × Fixed) := do
  checkAlpha alpha
  let t ← Fixed.ofRatio alpha alphaMax
  b.interpolate t

/-- The opacity at an alpha. -/
def Range.sampleOpacity (r : Range UInt8) (alpha : Nat) : Except Violation UInt8 := do
  checkAlpha alpha
  let start : Int := r.start.toNat
  let finish : Int := r.finish.toNat
  return UInt8.ofInt (start + (alpha * (finish - start)).tdiv alphaMax)

end Animation
