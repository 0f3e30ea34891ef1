/-
# The schedule of tasks

Tasks take turns in the order of their queue, at an instant of the virtual clock, until
it is nobody's turn. Only then does the clock move on, to the time at which the next task
wakes up. A task whose turn breaks off has ended.
-/

import Animation.Stage.Playback

namespace Animation.Script

variable {υ : Type} (host : Host υ)

/-- End a task. -/
def conclude (how : Ending) (k : Ref .task) : Script υ Unit := change (·.endTask how k)

/-- Let a task sleep, unless it was aborted meanwhile. -/
def rest (k : Ref .task) (wake : Nat) : Script υ Unit := do
  if ((← stage).tasks.get k).isAborted then conclude .aborted k
  else change (·.sleepUntil k wake)

/-- Do one bit of a job. A timeline that starts to play waits for a period before its first
frame. -/
def work (k : Ref .task) (row : Task) : Script υ Unit := do
  match row.job, row.phase with
  | _, .ended _ => pure ()
  | .idle, _ => conclude (.finished none) k
  | .playback _ period, .ready => rest k ((← stage).agenda.now + period)
  | .playback t period, .sleeping wake =>
      match ← (nextFrame host t).attempt with
      | .ok true => rest k (wake + period)
      | .ok false => conclude (.finished none) k
      | .error cause => conclude (.broken cause) k
  | .routine code _, _ =>
      match ← (host.resume code).attempt with
      | .ok (.sleeps duration) => rest k ((← stage).agenda.now + duration)
      | .ok (.ends failure) => conclude (.finished failure) k
      | .error cause => conclude (.broken cause) k

/-- Give a task its turn, if it has one. -/
def takeTurn (k : Ref .task) : Script υ Unit := do
  let s ← stage
  let row := s.tasks.get k
  if s.isRunnable k then
    if row.isAborted then conclude .aborted k else work host k row

/-- Let tasks take turns until it is nobody's turn, for at most so many rounds. -/
def settle : Nat → Script υ Unit
  | 0 => pure ()
  | rounds + 1 => do
      match (← stage).runnable with
      | [] => pure ()
      | tasks =>
          forEach (takeTurn host) tasks
          settle rounds

/-- Move the virtual clock to the given time, and let tasks take turns. -/
def moveTo (rounds time : Nat) : Script υ Unit := do
  change (·.setNow time)
  settle host rounds

/-- Let the time pass until `target`, in at most so many moves of the clock. -/
def elapse (rounds target : Nat) : Nat → Script υ Unit
  | 0 => moveTo host rounds target
  | moves + 1 => do
      match (← stage).nextWake? with
      | some wake =>
          if wake ≤ target then
            moveTo host rounds wake
            elapse rounds target moves
          else moveTo host rounds target
      | none => moveTo host rounds target

/-- Let so many milliseconds pass. -/
def wait (rounds duration : Nat) : Script υ Unit := do
  elapse host rounds ((← stage).agenda.now + duration) duration

/-- Take the ended tasks off the front of the channel. -/
def drainChannel (s : Stage) : Stage :=
  { s with agenda := { s.agenda with channel := s.agenda.channel.map (·.dropWhile s.hasEnded) } }

/-- Wait until all tasks reported to the channel have ended, in at most so many moves of the
clock. The wait is over at the time `limit`, before tasks take the turns that they have then.
The answer is whether all of them have ended earlier. -/
def awaitTasks (rounds limit : Nat) : Nat → Script υ Bool
  | 0 => do
      change drainChannel
      return ((← stage).agenda.channel.getD []).isEmpty
  | moves + 1 => do
      change drainChannel
      let s ← stage
      match s.agenda.channel.getD [], s.nextWake? with
      | [], _ => return true
      | _ :: _, some wake =>
          if wake < limit then
            moveTo host rounds wake
            awaitTasks rounds limit moves
          else
            moveTo host rounds limit
            return false
      | _ :: _, none =>
          moveTo host rounds limit
          return false

/-- Wait for all tasks, but less than so many milliseconds. -/
def waitForTasks (rounds duration : Nat) : Script υ Bool := do
  awaitTasks host rounds ((← stage).agenda.now + duration) (duration + 1)

end Animation.Script
