/-
# The actors of a core

A core has a set of actors, in the order in which they were applied. An actor that is no
longer there is no longer in the set; its entry is dropped when the set is next gone
through.
-/

import Animation.Stage.Holding

namespace Animation.Stage

variable (s : Stage)

/-- Those of some actors that are still there. -/
def present (actors : List (Ref .actor)) : List (Ref .actor) :=
  actors.filter fun a => s.isAlive (.actor a)

/-- The actors of a core, in the order in which they were applied. -/
def actorsOf (c : Ref .core) : List (Ref .actor) := s.present (s.cores.get c).actors

/-- Replace the actors of a core. -/
def setActors (c : Ref .core) (actors : List (Ref .actor)) : Stage :=
  s.modifyCore c fun row => { row with actors }

/-- Drop the entries of actors that are no longer there. -/
def pruneActors (c : Ref .core) : Stage := s.setActors c (s.actorsOf c)

/-- Go through the actors of a core. -/
def gatherActors (c : Ref .core) : Stage × List (Ref .actor) := (s.pruneActors c, s.actorsOf c)

/-- Add an actor to a core, unless the core already has it. -/
def applyActor (c : Ref .core) (a : Ref .actor) : Stage :=
  let actors := s.actorsOf c
  if actors.contains a then s.setActors c actors
  else (s.setActors c (actors ++ [a])).note (.applied c (actors.length + 1))

/-- Remove an actor from a core. -/
def removeActor (c : Ref .core) (a : Ref .actor) : Stage :=
  let before := (s.cores.get c).actors
  let actors := (s.actorsOf c).filter (· != a)
  let s := s.setActors c actors
  if actors.length < before.length then s.note (.removed c actors.length) else s

/-- Remove all actors from a core. -/
def clearActors (c : Ref .core) : Stage := s.setActors c []

/-- Whether a core has an actor. -/
def isApplied (c : Ref .core) (a : Ref .actor) : Bool := (s.actorsOf c).contains a

end Animation.Stage
