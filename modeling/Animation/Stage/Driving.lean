/-
# Driving actors

A behaviour is driven to an alpha: what it asks of its actors is computed once, and then
asked of each actor that is there when the driving starts, in the order in which they
were applied. On a tick a behaviour is driven to the value of the alpha it is bound to.

An actor is behind a lock of its own, which is held while the actor is asked. That lock is left
out here, like all locks but those of emitters: an actor that is asked again while it reacts is
asked at once, where under its lock it would never be. `Animation.Locking` has all of them, and
what they change is that such a question waits for good.
-/

import Animation.Stage.Binding

namespace Animation.Script

variable {υ : Type} (host : Host υ)

/-- Visit actors that one has handles on, and give up each handle after the visit. -/
def escort (visit : Ref .actor → Script υ Unit) : List (Ref .actor) → Script υ Unit
  | [] => pure ()
  | a :: rest => do
      match ← ((visit a).thenTidy (·.release (.actor a))).attempt with
      | .ok () => escort visit rest
      | .error cause =>
          change (·.releaseAll (rest.map .actor))
          throw (.violation cause)

/-- Visit the actors that a core has, in the order in which they were applied. All of them
are kept there until their visits are over. -/
def forEachActor (c : Ref .core) (visit : Ref .actor → Script υ Unit) : Script υ Unit := do
  let actors ← produce (·.gatherActors c)
  change (·.retainAll (actors.map .actor))
  escort visit actors

/-- Ask something of an actor. -/
def ask (a : Ref .actor) (call : ActorCall) : Script υ Unit := do
  change (·.modifyActor a (·.receive call))
  host.reacts a call

/-- Ask an actor to be scaled, after anchoring it by a gravity if there is one. -/
def askScale (a : Ref .actor) (gravity : Gravity) (x y : Double) : Script υ Unit := do
  if gravity ≠ .none then ask host a (.anchorBy gravity)
  ask host a (.setScale x y)

/-- Drive a behaviour to an alpha. -/
def drive (b : Ref .behaviour) (alpha : Nat) : Script υ Unit := do
  let row := (← stage).behaviours.get b
  match row.drive with
  | .scale bounds gravity =>
      let (x, y) ← check (bounds.sample alpha)
      forEachActor row.core fun a => askScale host a gravity x.toDouble y.toDouble
  | .opacity bounds =>
      let value ← check (bounds.sampleOpacity alpha)
      forEachActor row.core fun a => ask host a (.setOpacity value)
  | .custom callback => host.driven callback alpha

/-- Drive a behaviour to the value of the alpha it is bound to, if there is one. -/
def tick (b : Ref .behaviour) : Script υ Unit := do
  let s ← stage
  match s.boundAlpha? (s.behaviours.get b).core with
  | none => pure ()
  | some alpha =>
      holding [.alpha alpha] do
        let value := s.alphaValue host.curves alpha
        note (.ticked b value)
        drive host b value

end Animation.Script
