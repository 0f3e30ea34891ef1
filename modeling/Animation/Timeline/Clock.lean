/-
# The clock of a timeline

A clock counts frames. Its duration and rate fix how many there are; it stands on one
of them, and moves along them in its direction. All that a timeline does to its own
frame is here, apart from whatever else happens while a frame is played.
-/

import Animation.Easing

namespace Animation

/-- The way a timeline runs through its frames. -/
inductive Direction where
  | forward
  | backward
  deriving DecidableEq, Repr, Inhabited

namespace Direction

def all : List Direction := [forward, backward]

/-- The word for a direction. -/
def name : Direction → String
  | forward => "forward"
  | backward => "backward"

/-- The direction a word stands for. -/
def ofName? (word : String) : Option Direction := all.find? (·.name == word)

theorem ofName?_name (d : Direction) : ofName? d.name = some d := by cases d <;> decide

/-- The text of a direction inside the text of a structure. -/
def describe : Direction → String
  | forward => "Forward"
  | backward => "Backward"

end Direction

/-- The settings of a timeline and the frame it stands on. The duration is in
milliseconds, the rate in frames per second. -/
structure Clock where
  duration : Nat
  fps : Nat
  repeats : Bool
  direction : Direction
  frame : Nat
  deriving DecidableEq

namespace Clock

/-- The rate of a new clock. -/
def defaultFps : Nat := 60

/-- The duration of a clock that is made without one. -/
def defaultDuration : Nat := 1000

/-- A clock at the start of a single run forward. -/
def ofDuration (duration : Nat) : Clock where
  duration
  fps := defaultFps
  repeats := false
  direction := .forward
  frame := 0

instance : Inhabited Clock := ⟨ofDuration defaultDuration⟩

variable (c : Clock)

/-- The number of the last frame: as many frames as fit the duration, but at least one
and no more than a word can count. -/
def frames : Nat :=
  min (max (Word.mulSaturating64 c.duration c.fps / 1000) 1) Word.max32

/-- Milliseconds between two frames of a played timeline. -/
def period : Nat := max (1000 / c.fps) 1

/-- How far along the frames the clock stands. -/
def progress : Single := Binary.ofNat c.frame / Binary.ofNat c.frames

/-- The alpha of an easing at the frame on which the clock stands, by given curves. -/
def alphaBy (curves : Curves) (easing : Easing) : Nat := easing.sample curves c.progress

/-- The alpha of an easing, by the curves as they are drawn. -/
def alpha (easing : Easing) : Nat := c.alphaBy Easing.drawn easing

/-- The alphas of an easing at all frames. -/
def alphas (easing : Easing) : List Nat :=
  (List.range (c.frames + 1)).map fun frame => alpha { c with frame } easing

/-- Whether the clock stands at the end of its run. -/
def isComplete : Bool :=
  match c.direction with
  | .forward => decide (c.frames ≤ c.frame)
  | .backward => c.frame == 0

/-- Whether there is no next frame. -/
def isOver : Bool := !c.repeats && c.isComplete

/-- Bring the frame back within the frames there are. -/
def clampFrame : Clock := { c with frame := min c.frame c.frames }

def setDuration (duration : Nat) : Clock := clampFrame { c with duration }

/-- A new rate, which must not be zero. -/
def setFps (fps : Nat) : Except TimelineError Clock :=
  if fps = 0 then .error (.invalidFrameRate fps) else .ok (clampFrame { c with fps })

def setRepeats (repeats : Bool) : Clock := { c with repeats }

/-- A new direction. A clock at frame 0 that turns backward starts from the last frame. -/
def setDirection (direction : Direction) : Clock :=
  let turned := { c with direction }
  if direction = .backward ∧ c.frame = 0 then { turned with frame := c.frames } else turned

/-- Stand on the given frame. -/
def advance (frame : Nat) : Except TimelineError Clock :=
  if c.frames < frame then .error (.frameOutOfBounds frame c.frames)
  else .ok { c with frame }

/-- Go back to the start of the run. -/
def rewind : Clock :=
  match c.direction with
  | .forward => { c with frame := 0 }
  | .backward => { c with frame := c.frames }

/-- The frame `n` frames on: held at the end of a single run, and taken around the frames
`0` to `frames` of a repeated one. -/
def frameAfter (n : Nat) : Except Violation Nat :=
  match c.direction, c.repeats with
  | .forward, false => do
      let target ← Word.add64 c.frame n
      return min target c.frames
  | .forward, true => do
      let target ← Word.add64 c.frame n
      let span ← Word.add64 c.frames 1
      return target % span
  | .backward, false => return c.frame - n
  | .backward, true => do
      let span ← Word.add64 c.frames 1
      let raised ← Word.add64 c.frame span
      let target ← Word.sub raised (n % span)
      return target % span

/-- Move `n` frames on. -/
def skip (n : Nat) : Except Violation Clock := do
  let frame ← c.frameAfter n
  return { c with frame := Word.narrow32 frame }

/-- Move to the next frame, or stay at the end. -/
def step : Except Violation Clock :=
  match c.direction with
  | .forward => do
      let next ← Word.add32 c.frame 1
      return { c with frame := min next c.frames }
  | .backward => return { c with frame := c.frame - 1 }

end Clock

end Animation
