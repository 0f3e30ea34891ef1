/-
# Setting a timeline

The duration, the rate and the direction of a timeline can be set, and whether it repeats,
and it can be put on another frame. No frame is played by that, and nobody hears of it.
-/

import Animation.Stage.Frames

namespace Animation.Script

variable {υ : Type} (t : Ref .timeline)

/-- Replace the clock of a timeline, unless that is refused. -/
def tryClock (f : Clock → Except TimelineError Clock) : Script υ (Except Error Unit) := do
  match f ((← stage).clock t) with
  | .ok clock =>
      change (·.setClock t clock)
      return .ok ()
  | .error cause => return .error (.timeline cause)

/-- Replace the clock of a timeline. -/
def changeClock (f : Clock → Clock) : Script υ Unit :=
  change fun s => s.setClock t (f (s.clock t))

def setDuration (duration : Nat) : Script υ Unit := changeClock t (·.setDuration duration)

def setFps (fps : Nat) : Script υ (Except Error Unit) := tryClock t (·.setFps fps)

def setRepeats (repeats : Bool) : Script υ Unit := changeClock t (·.setRepeats repeats)

def setDirection (direction : Direction) : Script υ Unit :=
  changeClock t (·.setDirection direction)

/-- Put a timeline on the given frame. -/
def advance (frame : Nat) : Script υ (Except Error Unit) := tryClock t (·.advance frame)

/-- Put a timeline on the frame that is so many frames on. -/
def skip (count : Nat) : Script υ Unit := do
  let clock ← check (((← stage).clock t).skip count)
  change (·.setClock t clock)

/-- Put a timeline on the first frame of its run. -/
def rewind : Script υ Unit := changeClock t (·.rewind)

end Animation.Script
