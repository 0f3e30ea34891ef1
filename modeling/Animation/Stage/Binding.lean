/-
# Binding a behaviour to an alpha

A bound behaviour is attached to the timeline of its alpha. A new binding replaces the
old attachment by a new one, and listeners to the behaviour hear whether it is bound;
binding a behaviour to the alpha it already has changes nothing.
-/

import Animation.Stage.Notification

namespace Animation

namespace Stage

variable (s : Stage)

/-- Attach a behaviour to a timeline. -/
def attach (t : Ref .timeline) (b : Ref .behaviour) : Stage × Nat :=
  let id := (s.timelines.get t).nextId
  (s.modifyTimeline t fun row =>
    { row with attachments := row.attachments ++ [⟨id, b⟩], nextId := id + 1 }, id)

/-- Remove the attachments with the given numbers from a timeline. -/
def detach (t : Ref .timeline) (ids : List Nat) : Stage :=
  s.modifyTimeline t fun row =>
    { row with attachments := row.attachments.filter fun entry => !ids.contains entry.id }

/-- How many of the behaviours attached to a timeline are still there. -/
def attachedCount (t : Ref .timeline) : Nat :=
  ((s.timelines.get t).attachments.filter fun entry =>
    s.isAlive (.behaviour entry.behaviour)).length

/-- The alpha that a core is bound to. -/
def boundAlpha? (c : Ref .core) : Option (Ref .alpha) :=
  (s.cores.get c).binding.map (·.alpha)

def setBinding (c : Ref .core) (binding : Option Binding) : Stage :=
  s.modifyCore c fun row => { row with binding }

/-- Undo the binding of a core. -/
def unbind (c : Ref .core) : Stage :=
  match (s.cores.get c).binding with
  | none => s
  | some ⟨alpha, entry⟩ =>
      ((s.detach (s.alphas.get alpha).timeline [entry]).setBinding c none).releaseAlpha alpha

/-- Replace the binding of a behaviour. -/
def rebind (b : Ref .behaviour) (alpha : Option (Ref .alpha)) : Stage :=
  let core := (s.behaviours.get b).core
  match alpha with
  | none => s.unbind core
  | some alpha =>
      let s := (s.retain (.alpha alpha)).unbind core
      let (s, entry) := s.attach (s.alphas.get alpha).timeline b
      s.setBinding core (some ⟨alpha, entry⟩)

end Stage

namespace Script

variable {υ : Type} (host : Host υ)

/-- The name under which listeners hear whether a behaviour is bound. -/
def bindingProperty : String := "alpha"

/-- Bind a behaviour to an alpha, or undo its binding. -/
def bindTo (b : Ref .behaviour) (alpha : Option (Ref .alpha)) : Script υ Unit := do
  let s ← stage
  let core := (s.behaviours.get b).core
  if s.boundAlpha? core = alpha then pure ()
  else
    change (·.rebind b alpha)
    note (.bound core alpha.isSome)
    notify host (s.cores.get core).notifier ⟨bindingProperty, alpha.isSome⟩

end Script

end Animation
