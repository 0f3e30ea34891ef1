/-
# Tasks

A task is spawned with a job, waits for its turn, and ends when its job is done, when
its job breaks off, or, once aborted, when its next turn comes. It keeps its handle on
a timeline until it ends.

Tasks queue up for their turns: a new task goes to the end of the queue, and so does one
that falls asleep, or that is aborted in its sleep.
-/

import Animation.Stage.Holding

namespace Animation

/-- The handle that a job keeps. -/
def Job.handles (job : Job) : List Handle := (job.timeline?.map Handle.timeline).toList

namespace Stage

variable (s : Stage)

/-- Spawn a task and report it to the channel, if there is one. -/
def spawn (job : Job) : Stage × Option (Ref .task) :=
  match s.agenda.channel with
  | none => (s, none)
  | some reported =>
      let k := s.tasks.next
      let s := s.retainAll job.handles
      ({ s with
          tasks := s.tasks.push ⟨job, .ready, false⟩
          agenda := { s.agenda with
            queue := s.agenda.queue ++ [k]
            channel := some (reported ++ [k]) } }, some k)

/-- Whether a task has ended. -/
def hasEnded (k : Ref .task) : Bool := (s.tasks.get k).phase.isEnded

/-- Put a task at the end of the queue. -/
def requeue (k : Ref .task) : Stage :=
  { s with agenda := { s.agenda with queue := s.agenda.queue.filter (· != k) ++ [k] } }

/-- Tell a task to end. One that has ended is not told. -/
def abort (k : Ref .task) : Stage :=
  let row := s.tasks.get k
  match row.phase with
  | .ended _ => s
  | phase =>
      let s := s.modifyTask k fun row => { row with isAborted := true }
      match phase with
      | .sleeping _ => if row.isAborted then s else s.requeue k
      | _ => s

/-- End a task, which gives up the handle that its job keeps. -/
def endTask (how : Ending) (k : Ref .task) : Stage :=
  let job := (s.tasks.get k).job
  let s := s.modifyTask k fun row => { row with phase := .ended how }
  let s := { s with agenda := { s.agenda with queue := s.agenda.queue.filter (· != k) } }
  s.releaseAll job.handles

/-- Let a task sleep until the given time. -/
def sleepUntil (k : Ref .task) (wake : Nat) : Stage :=
  (s.modifyTask k fun row => { row with phase := .sleeping wake }).requeue k

/-- Whether it is a task's turn: it is new, aborted, or due to wake up. -/
def isRunnable (k : Ref .task) : Bool :=
  let row := s.tasks.get k
  match row.phase with
  | .ready => true
  | .sleeping wake => row.isAborted || decide (wake ≤ s.agenda.now)
  | .ended _ => false

/-- The tasks whose turn it is, in the order of the queue. -/
def runnable : List (Ref .task) := s.agenda.queue.filter s.isRunnable

/-- The time at which the next sleeping task wakes up. -/
def nextWake? : Option Nat :=
  (s.agenda.queue.filterMap fun k =>
    match (s.tasks.get k).phase with
    | .sleeping wake => some wake
    | _ => none).min?

/-- Move the virtual clock. -/
def setNow (now : Nat) : Stage := { s with agenda := { s.agenda with now } }

end Stage

end Animation
