/-
# The state of a session

Beside the stage, a session keeps what its names stand for, what the callbacks that it
registered are to do, the routines that these have begun, and the records that they
have left during the current step. Names are handles: what a name comes to stand for
is kept, and what it no longer stands for is given up.
-/

import Animation.Session.Names
import Animation.Session.Record
import Animation.Stage.Script

namespace Animation

/-- What a callback is to do: leave a record, and then take the given steps, as long as it
has not been called too often. A listener may also read a behaviour, and a routine may
wait first and fail at the end. -/
structure Reaction where
  tag : String
  acts : List Step
  budget : Nat
  reads : Option String
  delay : Nat
  failure : Option String

/-- A routine that has begun: the reaction it carries out, the payload that it handles, if
it handles an event, and whether it has waited. -/
structure Routine where
  reaction : Callback
  payload : Option Payload
  hasWaited : Bool

/-- What is called a behaviour in a session: one that can be driven, or a core alone. -/
inductive Performer where
  | whole (b : Ref .behaviour)
  | core (c : Ref .core)
  deriving DecidableEq

/-- The handle that a name for a performer is. -/
def Performer.handle : Performer → Handle
  | whole b => .behaviour b
  | core c => .core c

structure Session where
  timelines : Names (Ref .timeline)
  alphas : Names (Ref .alpha)
  actors : Names (Ref .actor × ActorStyle)
  performers : Names Performer
  observed : Names (Ref .behaviour)
  notifiers : Names (Ref .notifier)
  emitters : Names (Ref .emitter)
  numbers : Names Nat
  tasks : Names (Ref .task)
  reactions : List Reaction
  routines : List Routine
  records : List Record
  hasClock : Bool

/-- A script of a session. -/
abbrev Play : Type → Type := Script Session

namespace Session

def empty (hasClock : Bool) : Session where
  timelines := .empty
  alphas := .empty
  actors := .empty
  performers := .empty
  observed := .empty
  notifiers := .empty
  emitters := .empty
  numbers := .empty
  tasks := .empty
  reactions := []
  routines := []
  records := []
  hasClock

/-- The session as it is. -/
def current : Play Session := return (← get).user

/-- Change the session. -/
def update (f : Session → Session) : Play Unit :=
  modify fun w => { w with user := f w.user }

/-- Leave a record. -/
def record (r : Record) : Play Unit := update fun s => { s with records := r :: s.records }

/-- The time, if the session has a clock. -/
def time? : Play (Option Nat) := do
  let now := (← Script.stage).agenda.now
  return if (← current).hasClock then some now else none

/-- Give up the handle that a name was. -/
def giveUp (old : Option Handle) : Play Unit :=
  match old with
  | some handle => Script.change (·.release handle)
  | none => pure ()

/-- Let a name be a handle on a timeline, which the session already has. -/
def nameTimeline (name : String) (t : Ref .timeline) : Play Unit := do
  let old := (← current).timelines.find? name
  update fun s => { s with timelines := s.timelines.insert name t }
  giveUp (old.map .timeline)

/-- Let a name be a handle on an alpha, which the session already has. -/
def nameAlpha (name : String) (a : Ref .alpha) : Play Unit := do
  let old := (← current).alphas.find? name
  update fun s => { s with alphas := s.alphas.insert name a }
  giveUp (old.map .alpha)

/-- Let a name be a handle on an actor, which the session already has. -/
def nameActor (name : String) (a : Ref .actor) (style : ActorStyle) : Play Unit := do
  let old := (← current).actors.find? name
  update fun s => { s with actors := s.actors.insert name (a, style) }
  giveUp (old.map fun entry => .actor entry.1)

/-- Let a name be a handle on a behaviour or a core, which the session already has. -/
def namePerformer (name : String) (p : Performer) : Play Unit := do
  let old := (← current).performers.find? name
  update fun s => { s with performers := s.performers.insert name p }
  giveUp (old.map Performer.handle)

def dropTimeline (name : String) : Play Unit := do
  let old := (← current).timelines.find? name
  update fun s => { s with timelines := s.timelines.erase name }
  giveUp (old.map .timeline)

def dropAlpha (name : String) : Play Unit := do
  let old := (← current).alphas.find? name
  update fun s => { s with alphas := s.alphas.erase name }
  giveUp (old.map .alpha)

def dropActor (name : String) : Play Unit := do
  let old := (← current).actors.find? name
  update fun s => { s with actors := s.actors.erase name }
  giveUp (old.map fun entry => .actor entry.1)

def dropPerformer (name : String) : Play Unit := do
  let old := (← current).performers.find? name
  update fun s => { s with performers := s.performers.erase name }
  giveUp (old.map Performer.handle)

/-- Remember the number of a handler or listener under its tag. -/
def nameNumber (tag : String) (number : Nat) : Play Unit :=
  update fun s => { s with numbers := s.numbers.insert tag number }

/-- Register a reaction and return the number of the callback. -/
def addReaction (reaction : Reaction) : Play Callback := do
  let callback := (← current).reactions.length
  update fun s => { s with reactions := s.reactions ++ [reaction] }
  return callback

/-- Begin a routine and return its number. -/
def addRoutine (reaction : Callback) (payload : Option Payload) : Play Nat := do
  let code := (← current).routines.length
  update fun s => { s with routines := s.routines ++ [⟨reaction, payload, false⟩] }
  return code

/-- What is to be known of the reaction to a step. -/
def reactionTo (step : Step) : Reaction where
  tag := step.tag
  acts := step.acts
  budget := step.times
  reads := none
  delay := 0
  failure := none

end Session

end Animation
