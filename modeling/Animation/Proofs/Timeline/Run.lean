/-
# The run of a clock

A clock goes along its frames in its direction, and so many of them are left of a run. Until none
is left, each step takes it one frame further. Each frame is announced, and after the last one the
end of the run.
-/

import Animation.Proofs.Timeline.Ramp

namespace Animation

/-- What a timeline announces: a frame, or the end of its run. -/
inductive Bulletin where
  | frame (number : Nat)
  | completed
  deriving DecidableEq

namespace Clock

variable {c : Clock}

/-- How many frames are left of a run. -/
def remaining (c : Clock) : Nat :=
  match c.direction with
  | .forward => c.frames - c.frame
  | .backward => c.frame

/-- The clock so many frames further in its direction. -/
def further (c : Clock) (j : Nat) : Clock :=
  match c.direction with
  | .forward => { c with frame := c.frame + j }
  | .backward => { c with frame := c.frame - j }

/-- The clock from which a run is played: one that is at the end of its run is taken back. -/
def setOut (c : Clock) : Clock := if c.isComplete then c.rewind else c

/-- Clocks with the same settings, apart from the frame. -/
def SameSettings (c c' : Clock) : Prop := c' = { c with frame := c'.frame }

theorem further_zero (c : Clock) : c.further 0 = c := by
  unfold further
  split <;> rfl

theorem further_further (c : Clock) (i j : Nat) : (c.further i).further j = c.further (i + j) := by
  unfold further
  cases c.direction <;> simp only [Nat.add_assoc, Nat.sub_sub]

theorem sameSettings_further (c : Clock) (j : Nat) : c.SameSettings (c.further j) := by
  unfold SameSettings further
  split <;> rfl

theorem sameSettings_rewind (c : Clock) : c.SameSettings c.rewind := by
  unfold SameSettings rewind
  split <;> rfl

theorem sameSettings_setOut (c : Clock) : c.SameSettings c.setOut := by
  unfold setOut
  split
  · exact c.sameSettings_rewind
  · rfl

namespace SameSettings

variable {c' c'' : Clock} (h : c.SameSettings c')

include h

theorem trans (h' : c'.SameSettings c'') : c.SameSettings c'' := by
  unfold SameSettings at *
  rw [h', h]

theorem repeats : c'.repeats = c.repeats := by rw [h]

theorem period : c'.period = c.period := by rw [h]; rfl

theorem frames : c'.frames = c.frames := by rw [h]; rfl

end SameSettings

theorem isComplete_eq (c : Clock) : c.isComplete = decide (c.remaining = 0) := by
  unfold isComplete remaining
  cases c.direction with
  | forward => exact decide_eq_decide.2 Nat.sub_eq_zero_iff_le.symm
  | backward => exact Bool.eq_iff_iff.2 (by simp only [beq_iff_eq, decide_eq_true_iff])

theorem remaining_further (c : Clock) (j : Nat) :
    (c.further j).remaining = c.remaining - j := by
  unfold further remaining
  cases c.direction with
  | forward => exact (Nat.sub_sub ..).symm
  | backward => rfl

theorem isComplete_further (c : Clock) (j : Nat) :
    (c.further j).isComplete = decide (c.remaining ≤ j) := by
  rw [isComplete_eq, remaining_further]
  exact decide_eq_decide.2 Nat.sub_eq_zero_iff_le

theorem remaining_rewind (c : Clock) : c.rewind.remaining = c.frames := by
  unfold rewind remaining
  cases c.direction <;> rfl

/-- At the start of a run all its frames are left. -/
theorem remaining_of_rewind (start : c.rewind = c) : c.remaining = c.frames := by
  rw [← remaining_rewind, start]

theorem remaining_setOut (c : Clock) : 0 < c.setOut.remaining := by
  unfold setOut
  split
  · rw [remaining_rewind]
    exact c.frames_pos
  · next incomplete =>
      rw [isComplete_eq, decide_eq_true_iff] at incomplete
      exact Nat.pos_of_ne_zero incomplete

/-- As long as frames are left, a single run is not over. -/
theorem isOver_of_remaining (left : 0 < c.remaining) : c.isOver = false := by
  rw [isOver, isComplete_eq, decide_eq_false (Nat.ne_of_gt left), Bool.and_false]

/-- As long as frames are left, the next step leads one frame further. -/
theorem step_of_remaining (left : 0 < c.remaining) : c.step = .ok (c.further 1) := by
  obtain ⟨duration, fps, repeats, direction, frame⟩ := c
  cases direction with
  | forward =>
      let c : Clock := ⟨duration, fps, repeats, .forward, frame⟩
      have left : 0 < c.frames - frame := left
      have le := c.frames_le
      have next : Word.add32 frame 1 = .ok (frame + 1) := if_pos (by omega)
      have held : min (frame + 1) c.frames = frame + 1 := by omega
      show (do return { c with frame := min (← Word.add32 frame 1) c.frames }) =
        Except.ok { c with frame := frame + 1 }
      rw [next]
      exact congrArg (fun frame => Except.ok { c with frame }) held
  | backward => rfl

/-- What is announced of the frame on which a clock stands. -/
def news (c : Clock) : List Bulletin :=
  .frame c.frame :: if c.isComplete then [.completed] else []

theorem news_eq {p : Prop} [Decidable p] (last : c.isComplete = decide p) :
    c.news = .frame c.frame :: if p then [.completed] else [] := by
  rw [news, last]
  simp only [decide_eq_true_eq]

end Clock

end Animation
