/-
# Accepted scales

A scale is a factor that is not negative and that a fixed point number can hold. Bounds
are accepted as a whole: all four scales are checked, in order, before any is converted.
-/

import Animation.Range

namespace Animation

/-- Scales are below this, so that they are fixed point numbers. -/
def scaleLimit : Double := 32768

/-- A scale is neither negative nor too large. -/
def checkScale (scale : Double) : Except Violation Unit :=
  if scale.isFinite && (0 : Double).le scale && scale.lt scaleLimit then .ok ()
  else .error (.invalidScale scale)

/-- A scale in fixed point is not negative. -/
def checkFixedScale (scale : Fixed) : Except Violation Unit :=
  if 0 ≤ scale.toRaw then .ok () else .error (.invalidScale scale.toDouble)

namespace Corners

/-- Check the four scales in order. -/
def checkAll {α : Type} (test : α → Except Violation Unit) (c : Corners α) :
    Except Violation Unit := do
  test c.xStart
  test c.yStart
  test c.xEnd
  test c.yEnd

/-- The bounds with accepted fixed point corners. -/
def toBounds (c : Corners Fixed) : Except Violation ScaleBounds := do
  c.checkAll checkFixedScale
  return .ofCorners c

/-- Accepted corners in fixed point. -/
def toFixed (c : Corners Double) : Except Violation (Corners Fixed) := do
  c.checkAll checkScale
  let xStart ← Fixed.ofDouble c.xStart
  let yStart ← Fixed.ofDouble c.yStart
  let xEnd ← Fixed.ofDouble c.xEnd
  let yEnd ← Fixed.ofDouble c.yEnd
  return ⟨xStart, yStart, xEnd, yEnd⟩

end Corners

end Animation
