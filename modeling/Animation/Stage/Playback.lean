/-
# Playback

A started timeline is played by a task of its own, one frame every period, until it is
paused or comes to its end.
-/

import Animation.Stage.Frames

namespace Animation

namespace Stage

variable (s : Stage)

/-- Whether a timeline is being played. -/
def isPlaying (t : Ref .timeline) : Bool :=
  match (s.timelines.get t).playback with
  | some k => !s.hasEnded k
  | none => false

def setPlayback (t : Ref .timeline) (playback : Option (Ref .task)) : Stage :=
  s.modifyTimeline t fun row => { row with playback }

/-- Stop the task that plays a timeline. -/
def cancelPlayback (t : Ref .timeline) : Stage :=
  match (s.timelines.get t).playback with
  | some k => (s.setPlayback t none).abort k
  | none => s

end Stage

namespace Script

variable {υ : Type} (host : Host υ)

/-- Let a task play a timeline, and let handlers know. -/
def launch (t : Ref .timeline) : Script υ (Except Error Unit) := do
  let clock := (← stage).clock t
  note (.started t clock.frames clock.period)
  announce host t .started (.timeline t)
  match ← produce (·.spawn (.playback t clock.period)) with
  | none => return .error .outsideRuntime
  | some k =>
      change (·.setPlayback t (some k))
      return .ok ()

/-- Play a timeline from its frame, or from the start of its run if that is over. -/
def start (t : Ref .timeline) : Script υ (Except Error Unit) := do
  if (← stage).isPlaying t then return .ok ()
  else
    if ((← stage).clock t).isComplete then change (·.rewind t)
    launch host t

/-- Pause a timeline on its frame. -/
def pause (t : Ref .timeline) : Script υ Unit := do
  let wasPlaying := (← stage).isPlaying t
  change (·.cancelPlayback t)
  if wasPlaying then
    note (.paused t ((← stage).clock t).frame)
    announce host t .paused (.timeline t)

/-- Pause a timeline and take it back to the start of its run. -/
def stop (t : Ref .timeline) : Script υ Unit := do
  pause host t
  change (·.rewind t)

end Script

end Animation
