/-
# Running a session

A session takes its steps in order. After each step the tasks whose turn it is take
their turns, and then the step is answered, with the records that were left meanwhile
and the lines of the log.

Steps that callbacks take may call back in turn. How deep this goes is bounded by the
number of steps that the session can give rise to, which is known before it runs.
-/

import Animation.Session.Performers
import Animation.Session.Signals

namespace Animation.Session

/-- How many milliseconds a session waits for all tasks. -/
def patience : Nat := 1999

/-- Take a step. -/
def act (rounds : Nat) (take : Step → Play Answer) (step : Step) : Play Answer :=
  match step.action with
  | .timeline action => takeTimeline take step action
  | .alpha action => takeAlpha step action
  | .actor action => takeActor take step action
  | .behaviour action => takeBehaviour take step action
  | .observedState => takeObserved step
  | .notifier action => takeNotifier take step action
  | .emitter action => takeEmitter take step action
  | .task action => takeTask step action
  | .wait duration => do
      Script.wait (host take) rounds duration
      return .count (← Script.stage).agenda.now
  | .waitForTasks => do
      let inTime ← Script.waitForTasks (host take) rounds patience
      return .awaited inTime (← Script.stage).agenda.now

/-- Take a step whose callbacks may call back to the given depth. -/
def perform (rounds : Nat) : Nat → Step → Play Answer
  | 0, _ => return .nothing
  | depth + 1, step => act rounds (perform rounds depth) step

/-- The answer to a step, what callbacks recorded, and the lines of the log. -/
structure Reply where
  answer : Answer
  records : List Record
  lines : List (Level × String)

/-- The answer that comes of running a step. -/
def answerOf : Except Fault Answer → Answer
  | .ok answer => answer
  | .error (.violation cause) => .broken cause
  | .error .stuck => .stuck

/-- Take a step, let tasks take their turns, and collect what is to be told. -/
def reply (bound : Nat) (step : Step) (w : World Session) : Reply × World Session :=
  let take := perform bound bound
  let (result, w) := (take step).run w
  let (_, w) := (Script.settle (host take) bound).run w
  let told : Reply :=
    { answer := answerOf result
      records := w.user.records.reverse
      lines := w.stage.journal.reverse.filterMap (·.what.line?) }
  (told, ⟨{ w.stage with journal := [] }, { w.user with records := [] }⟩)

/-- Take steps in order. -/
def replies (bound : Nat) : List Step → World Session → List Reply
  | [], _ => []
  | step :: rest, w =>
      let (told, w) := reply bound step w
      told :: replies bound rest w

/-- Run a session, with or without a clock and a channel for tasks. -/
def run (hasClock hasChannel : Bool) (steps : List Step) : List Reply :=
  replies (Step.weightAll steps + 8) steps ⟨.empty hasChannel, .empty hasClock⟩

end Animation.Session
