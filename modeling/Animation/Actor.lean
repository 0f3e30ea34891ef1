/-
# Actors

An actor has a size and can be scaled and anchored. A recording actor also has an
opacity and keeps account of what was asked of it; a plain one does as it is told and
ignores opacities.
-/

import Animation.Gravity
import Animation.Text.Record
import Animation.Decimal.Layout

namespace Animation

/-- What can be asked of an actor: to be anchored at a point, or at the point of its own
rectangle that a gravity names, to be scaled, and to take an opacity. -/
inductive ActorCall where
  | setAnchor (x y : Double)
  | anchorBy (gravity : Gravity)
  | setScale (x y : Double)
  | setOpacity (value : UInt8)
  deriving DecidableEq

/-- An actor, and how many handles there are on it. -/
structure Actor where
  isRecording : Bool
  size : Double × Double
  anchor : Double × Double
  scale : Double × Double
  opacity : UInt8
  anchorCalls : Nat
  scaleCalls : Nat
  history : List String
  holders : Nat

namespace Actor

/-- An actor that nobody has touched yet. -/
def ofSize (isRecording : Bool) (size : Double × Double) : Actor where
  isRecording
  size
  anchor := (0, 0)
  scale := (1, 1)
  opacity := 255
  anchorCalls := 0
  scaleCalls := 0
  history := []
  holders := 0

instance : Inhabited Actor := ⟨ofSize false (0, 0)⟩

/-- Note a word in the account of a recording actor. -/
def record (a : Actor) (word : String) : Actor :=
  if a.isRecording then { a with history := a.history ++ [word] } else a

/-- Be anchored at a point. -/
def setAnchor (a : Actor) (x y : Double) : Actor :=
  { a.record "anchor" with anchor := (x, y), anchorCalls := a.anchorCalls + 1 }

/-- Be scaled. -/
def setScale (a : Actor) (x y : Double) : Actor :=
  { a.record "scale" with scale := (x, y), scaleCalls := a.scaleCalls + 1 }

/-- Take an opacity, which only a recording actor does. -/
def setOpacity (a : Actor) (value : UInt8) : Actor :=
  if a.isRecording then { a.record "opacity" with opacity := value } else a

/-- Do what is asked. -/
def receive (a : Actor) : ActorCall → Actor
  | .setAnchor x y => a.setAnchor x y
  | .anchorBy gravity =>
      match gravity.anchorPoint a.size.1 a.size.2 with
      | some (x, y) => a.setAnchor x y
      | none => a
  | .setScale x y => a.setScale x y
  | .setOpacity value => a.setOpacity value

private def describePair (p : Double × Double) : String :=
  Text.pair p.1.toPointedText p.2.toPointedText

/-- The text of an actor inside the text of a structure. -/
def describe (a : Actor) : String :=
  if a.isRecording then
    Text.record "MockActor"
      [("size", describePair a.size), ("anchor_point", describePair a.anchor),
        ("scale", describePair a.scale), ("opacity", a.opacity.toNat.repr),
        ("anchor_calls", a.anchorCalls.repr), ("scale_calls", a.scaleCalls.repr),
        ("history", Text.list (a.history.map fun name => "\"" ++ name ++ "\""))]
  else
    Text.record "Plain"
      [("size", describePair a.size), ("anchor", describePair a.anchor),
        ("scale", describePair a.scale)]

end Actor

end Animation
