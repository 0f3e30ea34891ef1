/-
# The stage

On a stage there are timelines, alphas, behaviours with the state they share, actors,
notifiers, emitters and tasks. Whoever uses one of them has a handle on it, and some
of them have handles on others: an alpha on its timeline, a behaviour on its core, a
core on the alpha it is bound to, and an unfinished task on a timeline. The entries
that a timeline keeps of behaviours, and a core of actors, are not handles.
-/

import Animation.Actor
import Animation.Stage.Journal
import Animation.Timeline.Clock

namespace Animation

/-- A behaviour that is driven by the frames of a timeline, and the number under which
the timeline knows it. -/
structure Attachment where
  id : Nat
  behaviour : Ref .behaviour
  deriving DecidableEq

/-- A clock together with the behaviours that it drives, the task that plays it, if it
was started, and the handlers of its events. -/
structure Timeline where
  clock : Clock
  attachments : List Attachment
  nextId : Nat
  playback : Option (Ref .task)
  emitter : Ref .emitter
  holders : Nat
  deriving Inhabited

/-- The progress of a timeline under an easing. -/
structure Alpha where
  timeline : Ref .timeline
  easing : Easing
  holders : Nat
  deriving Inhabited

/-- The alpha a behaviour follows, and the number of its entry with the alpha's timeline. -/
structure Binding where
  alpha : Ref .alpha
  entry : Nat
  deriving DecidableEq

/-- What all behaviours have: a set of actors, in the order they were applied, a binding
and a notifier. -/
structure Core where
  actors : List (Ref .actor)
  binding : Option Binding
  notifier : Ref .notifier
  holders : Nat
  deriving Inhabited

/-- What a behaviour does with an alpha. -/
inductive Drive where
  | scale (bounds : ScaleBounds) (gravity : Gravity)
  | opacity (bounds : Range UInt8)
  | custom (callback : Callback)
  deriving DecidableEq, Inhabited

/-- A way to drive the actors of a core. -/
structure Behaviour where
  core : Ref .core
  drive : Drive
  holders : Nat
  deriving Inhabited

/-- What a task does. A routine is known by a number to whoever registered the callback
that made it; it may keep a handle on the timeline that it was called about. -/
inductive Job where
  | playback (t : Ref .timeline) (period : Nat)
  | routine (code : Nat) (kept : Option (Ref .timeline))
  | idle
  deriving DecidableEq, Inhabited

/-- The timeline that a job keeps a handle on. -/
def Job.timeline? : Job → Option (Ref .timeline)
  | playback t _ => some t
  | routine _ kept => kept
  | idle => none

/-- How a task has ended: by itself, well or with an error, by a violation, or because it was
aborted. -/
inductive Ending where
  | finished (failure : Option Error)
  | broken (cause : Violation)
  | aborted
  deriving DecidableEq

/-- Where a task stands. -/
inductive Phase where
  | ready
  | sleeping (wake : Nat)
  | ended (how : Ending)
  deriving DecidableEq, Inhabited

def Phase.isEnded : Phase → Bool
  | ended _ => true
  | _ => false

/-- A job that is being done bit by bit. An aborted task ends when its turn comes. -/
structure Task where
  job : Job
  phase : Phase
  isAborted : Bool
  deriving Inhabited

/-- The virtual clock and the queue of the tasks that have not ended. A channel reports every
spawned task to whoever waits for all of them; without one no task can be spawned. -/
structure Agenda where
  now : Nat
  queue : List (Ref .task)
  channel : Option (List (Ref .task))
  deriving Inhabited

/-- All there is, and the journal of what has happened, latest first. -/
structure Stage where
  timelines : Table .timeline Timeline
  alphas : Table .alpha Alpha
  cores : Table .core Core
  behaviours : Table .behaviour Behaviour
  actors : Table .actor Actor
  notifiers : Table .notifier Notifier
  emitters : Table .emitter Emitter
  tasks : Table .task Task
  agenda : Agenda
  journal : List Entry
  deriving Inhabited

namespace Stage

/-- An empty stage, on which tasks can be spawned or not. -/
def empty (hasChannel : Bool) : Stage where
  timelines := .empty
  alphas := .empty
  cores := .empty
  behaviours := .empty
  actors := .empty
  notifiers := .empty
  emitters := .empty
  tasks := .empty
  agenda := ⟨0, [], if hasChannel then some [] else none⟩
  journal := []

section Changes

variable (s : Stage)

def modifyTimeline (t : Ref .timeline) (f : Timeline → Timeline) : Stage :=
  { s with timelines := s.timelines.modify t f }

def setClock (t : Ref .timeline) (clock : Clock) : Stage :=
  s.modifyTimeline t fun row => { row with clock }

def modifyAlpha (a : Ref .alpha) (f : Alpha → Alpha) : Stage :=
  { s with alphas := s.alphas.modify a f }

def modifyCore (c : Ref .core) (f : Core → Core) : Stage :=
  { s with cores := s.cores.modify c f }

def modifyBehaviour (b : Ref .behaviour) (f : Behaviour → Behaviour) : Stage :=
  { s with behaviours := s.behaviours.modify b f }

def setDrive (b : Ref .behaviour) (drive : Drive) : Stage :=
  s.modifyBehaviour b fun row => { row with drive }

def modifyActor (a : Ref .actor) (f : Actor → Actor) : Stage :=
  { s with actors := s.actors.modify a f }

def modifyNotifier (n : Ref .notifier) (f : Notifier → Notifier) : Stage :=
  { s with notifiers := s.notifiers.modify n f }

def modifyEmitter (m : Ref .emitter) (f : Emitter → Emitter) : Stage :=
  { s with emitters := s.emitters.modify m f }

def modifyTask (k : Ref .task) (f : Task → Task) : Stage :=
  { s with tasks := s.tasks.modify k f }

/-- Note an occurrence in the journal. -/
def note (what : Occurrence) : Stage :=
  { s with journal := ⟨s.agenda.now, what⟩ :: s.journal }

end Changes

/-- The clock that an alpha follows. -/
def clockOf (s : Stage) (a : Ref .alpha) : Clock :=
  (s.timelines.get (s.alphas.get a).timeline).clock

/-- The value of an alpha. -/
def alphaValue (s : Stage) (curves : Curves) (a : Ref .alpha) : Nat :=
  (s.clockOf a).alphaBy curves (s.alphas.get a).easing

section Additions

variable (s : Stage)

def addNotifier : Stage × Ref .notifier :=
  ({ s with notifiers := s.notifiers.push .empty }, s.notifiers.next)

def addEmitter : Stage × Ref .emitter :=
  ({ s with emitters := s.emitters.push .empty }, s.emitters.next)

/-- A new timeline, with one handle on it. -/
def addTimeline (duration : Nat) : Stage × Ref .timeline :=
  let (s, emitter) := s.addEmitter
  let row : Timeline := ⟨.ofDuration duration, [], 0, none, emitter, 1⟩
  ({ s with timelines := s.timelines.push row }, s.timelines.next)

/-- A new actor, with one handle on it. -/
def addActor (actor : Actor) : Stage × Ref .actor :=
  ({ s with actors := s.actors.push { actor with holders := 1 } }, s.actors.next)

/-- A new core, with one handle on it. -/
def addCore : Stage × Ref .core :=
  let (s, notifier) := s.addNotifier
  ({ s with cores := s.cores.push ⟨[], none, notifier, 1⟩ }, s.cores.next)

/-- A new behaviour, with one handle on it. The handle on its new core is its own. -/
def addBehaviour (drive : Drive) : Stage × Ref .behaviour :=
  let (s, core) := s.addCore
  ({ s with behaviours := s.behaviours.push ⟨core, drive, 1⟩ }, s.behaviours.next)

end Additions

end Stage

end Animation
