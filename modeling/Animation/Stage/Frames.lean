/-
# Frames

To play a frame a timeline moves its clock, ticks the behaviours attached to it, in the
order in which they were attached, and then emits an event for the frame. Attachments
of behaviours that are no longer there are removed after the ticks. At the end of a run
it emits another event, and a repeating timeline goes back to its start.
-/

import Animation.Stage.Driving
import Animation.Stage.Emission
import Animation.Timeline.Event

namespace Animation

namespace Stage

variable (s : Stage)

/-- The clock of a timeline. -/
def clock (t : Ref .timeline) : Clock := (s.timelines.get t).clock

/-- Take a timeline back to the start of its run. -/
def rewind (t : Ref .timeline) : Stage := s.setClock t (s.clock t).rewind

end Stage

namespace Script

variable {υ : Type} (host : Host υ)

/-- Emit an event of a timeline. -/
def announce (t : Ref .timeline) (event : TimelineEvent) (payload : Payload) :
    Script υ Unit := do
  emit host ((← stage).timelines.get t).emitter event.name payload

/-- Tick the behaviours of attachments, and collect the numbers of those that are no longer
there. -/
def tickEach : List Attachment → Script υ (List Nat)
  | [] => return []
  | entry :: rest => do
      if (← stage).isAlive (.behaviour entry.behaviour) then
        holding [.behaviour entry.behaviour] (tick host entry.behaviour)
        tickEach rest
      else
        return entry.id :: (← tickEach rest)

/-- Tick the behaviours attached to a timeline, and forget those that are no longer there. -/
def tickAttached (t : Ref .timeline) : Script υ Unit := do
  match ← tickEach host ((← stage).timelines.get t).attachments with
  | [] => pure ()
  | gone => do
      note (.pruned t gone.length)
      change (·.detach t gone)

/-- What follows the ticks of a frame: the news of it and, at the end of a run, the news of
that. The answer is whether there is a next frame. -/
def concludeFrame (t : Ref .timeline) (played : Clock) : Script υ Bool := do
  announce host t .newFrame (.frame t played.frame)
  if played.isComplete then
    announce host t .completed (.timeline t)
    if played.repeats then
      change (·.rewind t)
      return true
    else return false
  else return true

/-- Play the next frame. The answer is whether there is another one after it. -/
def nextFrame (t : Ref .timeline) : Script υ Bool := do
  let clock := (← stage).clock t
  if clock.isOver then return false
  else
    let played ← check clock.step
    change (·.setClock t played)
    note (.moved t played.frame played.frames)
    tickAttached host t
    concludeFrame host t played

/-- Play frames until there is no next one, but at most so many. The answer is how many
times a frame was asked for. -/
def playFrames (t : Ref .timeline) : Nat → Nat → Script υ Nat
  | 0, count => return count
  | most + 1, count => do
      if ← nextFrame host t then playFrames t most (count + 1) else return count + 1

end Script

end Animation
