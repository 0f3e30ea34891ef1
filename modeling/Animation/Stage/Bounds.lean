/-
# Changing what a behaviour does

The bounds of a behaviour, and its gravity, can be replaced. All new values are in place
before listeners hear of the first of them, and what is not accepted changes nothing.
-/

import Animation.Property
import Animation.Scale
import Animation.Stage.Binding

namespace Animation.Script

variable {υ : Type} (host : Host υ)

/-- The notifier of a behaviour. -/
def notifierOf (b : Ref .behaviour) (s : Stage) : Ref .notifier :=
  (s.cores.get (s.behaviours.get b).core).notifier

/-- A new behaviour that scales, bound to an alpha if one is given. -/
def makeScale (corners : Corners Fixed) (gravity : Gravity) (alpha : Option (Ref .alpha)) :
    Script υ (Ref .behaviour) := do
  let bounds ← check corners.toBounds
  let b ← produce (·.addBehaviour (.scale bounds gravity))
  bindTo host b alpha
  return b

/-- A new behaviour that fades, bound to an alpha if one is given. -/
def makeOpacity (bounds : Range UInt8) (alpha : Option (Ref .alpha)) :
    Script υ (Ref .behaviour) := do
  let b ← produce (·.addBehaviour (.opacity bounds))
  bindTo host b alpha
  return b

/-- A new behaviour that calls back, bound to an alpha if one is given. -/
def makeCustom (callback : Callback) (alpha : Option (Ref .alpha)) :
    Script υ (Ref .behaviour) := do
  let b ← produce (·.addBehaviour (.custom callback))
  bindTo host b alpha
  return b

/-- Replace the bounds of a behaviour that scales. -/
def setScaleBounds (b : Ref .behaviour) (corners : Corners Fixed) : Script υ Unit := do
  let bounds ← check corners.toBounds
  let s ← stage
  match (s.behaviours.get b).drive with
  | .scale old gravity =>
      change (·.setDrive b (.scale bounds gravity))
      flush host (notifierOf b s) (old.changes bounds)
  | _ => pure ()

/-- Replace the gravity of a behaviour that scales. -/
def setGravity (b : Ref .behaviour) (gravity : Gravity) : Script υ Unit := do
  let s ← stage
  match (s.behaviours.get b).drive with
  | .scale bounds old =>
      if old = gravity then pure ()
      else
        change (·.setDrive b (.scale bounds gravity))
        notify host (notifierOf b s) ⟨ScaleProperty.gravity.name, gravity⟩
  | _ => pure ()

/-- Replace the bounds of a behaviour that fades. -/
def setOpacityBounds (b : Ref .behaviour) (bounds : Range UInt8) : Script υ Unit := do
  let s ← stage
  match (s.behaviours.get b).drive with
  | .opacity old =>
      change (·.setDrive b (.opacity bounds))
      flush host (notifierOf b s) (old.opacityChanges bounds)
  | _ => pure ()

end Animation.Script
