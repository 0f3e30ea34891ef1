/-
# Handles

The things on a stage are there as long as somebody has a handle on them. Each counts
its handles. When the last one on a thing is given up, the handles that the thing
itself has on others are given up too: those of a behaviour on its core, of a core on
the alpha it is bound to, and of an alpha on its timeline.
-/

import Animation.Stage.Basic

namespace Animation

/-- A handle on a thing whose handles are counted. -/
inductive Handle where
  | timeline (t : Ref .timeline)
  | alpha (a : Ref .alpha)
  | core (c : Ref .core)
  | behaviour (b : Ref .behaviour)
  | actor (a : Ref .actor)
  deriving DecidableEq

namespace Stage

variable (s : Stage)

/-- How many handles there are on a thing. -/
def holders : Handle → Nat
  | .timeline t => (s.timelines.get t).holders
  | .alpha a => (s.alphas.get a).holders
  | .core c => (s.cores.get c).holders
  | .behaviour b => (s.behaviours.get b).holders
  | .actor a => (s.actors.get a).holders

/-- Whether a thing is still there. -/
def isAlive (h : Handle) : Bool := decide (0 < s.holders h)

/-- Take a handle. -/
def retain : Handle → Stage
  | .timeline t => s.modifyTimeline t fun row => { row with holders := row.holders + 1 }
  | .alpha a => s.modifyAlpha a fun row => { row with holders := row.holders + 1 }
  | .core c => s.modifyCore c fun row => { row with holders := row.holders + 1 }
  | .behaviour b => s.modifyBehaviour b fun row => { row with holders := row.holders + 1 }
  | .actor a => s.modifyActor a fun row => { row with holders := row.holders + 1 }

/-- Give up a handle on an actor. -/
def releaseActor (a : Ref .actor) : Stage :=
  s.modifyActor a fun row => { row with holders := row.holders - 1 }

/-- Give up a handle on a timeline. -/
def releaseTimeline (t : Ref .timeline) : Stage :=
  s.modifyTimeline t fun row => { row with holders := row.holders - 1 }

/-- Give up a handle on an alpha. -/
def releaseAlpha (a : Ref .alpha) : Stage :=
  let row := s.alphas.get a
  let s := s.modifyAlpha a fun row => { row with holders := row.holders - 1 }
  if row.holders = 1 then s.releaseTimeline row.timeline else s

/-- Give up a handle on a core. -/
def releaseCore (c : Ref .core) : Stage :=
  let row := s.cores.get c
  let s := s.modifyCore c fun row => { row with holders := row.holders - 1 }
  match row.binding with
  | some binding => if row.holders = 1 then s.releaseAlpha binding.alpha else s
  | none => s

/-- Give up a handle on a behaviour. -/
def releaseBehaviour (b : Ref .behaviour) : Stage :=
  let row := s.behaviours.get b
  let s := s.modifyBehaviour b fun row => { row with holders := row.holders - 1 }
  if row.holders = 1 then s.releaseCore row.core else s

/-- Give up a handle. -/
def release : Handle → Stage
  | .timeline t => s.releaseTimeline t
  | .alpha a => s.releaseAlpha a
  | .core c => s.releaseCore c
  | .behaviour b => s.releaseBehaviour b
  | .actor a => s.releaseActor a

/-- Take several handles. -/
def retainAll (handles : List Handle) : Stage := handles.foldl retain s

/-- Give up several handles. -/
def releaseAll (handles : List Handle) : Stage := handles.foldl release s

/-- A new alpha, with one handle on it. The alpha has one on its timeline. -/
def addAlpha (timeline : Ref .timeline) (easing : Easing) : Stage × Ref .alpha :=
  let s := s.retain (.timeline timeline)
  ({ s with alphas := s.alphas.push ⟨timeline, easing, 1⟩ }, s.alphas.next)

end Stage

end Animation
