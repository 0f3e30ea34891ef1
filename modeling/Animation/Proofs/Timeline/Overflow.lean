/-
# Where the frame number overflows

A frame is moved on before it is held back at the last one. So a timeline that repeats, runs forward
and stands on the largest number that a frame can have has no next frame: the sum does not fit its
word, and the call breaks off before anything is done. On every stage that can be met this is the
only such case. A frame that moves back is held at zero first.
-/

import Animation.Proofs.Behaviours.InRange
import Animation.Proofs.Playback.Heeding
import Animation.Proofs.Timeline.Frames

namespace Animation

namespace Clock

/-- A clock runs forward, again and again, and stands on the largest number that a frame can
have. -/
structure AtBrink (c : Clock) : Prop where
  forward : c.direction = .forward
  repeated : c.repeats = true
  frame : c.frame = 2 ^ 32 - 1

/-- A clock with a next frame comes to it, unless it is at the brink. -/
theorem Sound.step_eq_error_iff {c : Clock} (sound : c.Sound) (going : c.isOver = false)
    (cause : Violation) : c.step = .error cause ↔ c.AtBrink ∧ cause = .addOverflow := by
  have fits := Nat.le_trans sound.frame_le c.frames_le
  have last : Word.max32 = 2 ^ 32 - 1 := rfl
  cases direction : c.direction with
  | backward =>
      have back : c.step = .ok { c with frame := c.frame - 1 } := by
        simp only [Clock.step, direction]
        rfl
      rw [back]
      constructor
      · intro h
        cases h
      · rintro ⟨brink, -⟩
        cases direction.symm.trans brink.forward
  | forward =>
      by_cases room : c.frame + 1 ≤ Word.max32
      · have next : c.step = .ok { c with frame := min (c.frame + 1) c.frames } := by
          have sum : Word.add32 c.frame 1 = .ok (c.frame + 1) := if_pos room
          simp only [Clock.step, direction, sum]
          rfl
        rw [next]
        constructor
        · intro h
          cases h
        · rintro ⟨brink, -⟩
          have frame := brink.frame
          omega
      · have overflow : c.step = .error .addOverflow := by
          have sum : Word.add32 c.frame 1 = .error .addOverflow := if_neg room
          simp only [Clock.step, direction, sum]
          rfl
        -- all frames are gone, so that a clock that does not repeat would be over
        have complete : c.isComplete = true := by
          simp only [isComplete, direction, decide_eq_true_eq]
          have le := c.frames_le
          omega
        have repeated : c.repeats = true := by
          rw [isOver, complete, Bool.and_true] at going
          simpa using going
        rw [overflow]
        constructor
        · intro h
          cases h
          exact ⟨⟨direction, repeated, by omega⟩, rfl⟩
        · rintro ⟨-, rfl⟩
          rfl

theorem AtBrink.isOver {c : Clock} (brink : c.AtBrink) : c.isOver = false := by
  rw [Clock.isOver, brink.repeated]
  rfl

end Clock

open Script in
/-- On every stage that can be met, to play a frame of a timeline at the brink breaks off with an
overflow, and leaves all as it was. With every other timeline a frame that breaks off has come to a
callback that does. -/
theorem Stage.Reachable.overflows_at_brink {υ : Type} {pages : υ → List Stage} {w : World υ}
    (reachable : w.stage.Reachable) {host : Host υ}
    (notified : ∀ callback change, Script.Course pages (host.notified callback change))
    (called : ∀ callback payload, Script.Course pages (host.called callback payload))
    (driven : ∀ callback alpha, Script.Course pages (host.driven callback alpha))
    (reacts : ∀ a call, Script.Course pages (host.reacts a call)) (t : Ref .timeline) :
    ((w.stage.clock t).AtBrink →
      (nextFrame host t).run w = (.error (.violation .addOverflow), w)) ∧
    (¬ (w.stage.clock t).AtBrink → ∀ cause,
      ((nextFrame host t).run w).1 = .error (.violation cause) →
        ∃ v, w.Passages pages v ∧ host.BreaksOff (nextFrame host t) w v cause) := by
  have hh : Host.Passing pages host := ⟨fun callback change => (notified callback change).passes,
    fun callback payload => (called callback payload).passes,
    fun callback alpha => (driven callback alpha).passes, fun a call => (reacts a call).passes⟩
  have sound := reachable.sound t
  refine ⟨fun brink => ?_, fun within cause broken => ?_⟩
  · exact run_nextFrame_of_step_error brink.isOver
      ((sound.step_eq_error_iff brink.isOver _).2 ⟨brink, rfl⟩)
  · cases going : (w.stage.clock t).isOver with
    | true =>
        rw [run_nextFrame_of_isOver going] at broken
        exact nomatch broken
    | false =>
        rcases hh.excused_nextFrame w t reachable.inTune broken with overflow | excused
        · exact absurd ((sound.step_eq_error_iff going _).1 overflow).1 within
        · exact excused

/-- A new timeline, the number of which is known, stands on its last frame. -/
def Script.parkNew (t : Ref .timeline) (repeats : Bool) : Script Unit Unit := do
  let _ ← Script.owning [] (Script.produce (·.addTimeline 4294967295))
  let _ ← Script.owning [.timeline t] (Script.setFps t 1000)
  let _ ← Script.owning [.timeline t] (Script.setRepeats t repeats)
  let _ ← Script.owning [.timeline t] (Script.advance t 4294967295)

theorem Script.course_parkNew (t : Ref .timeline) (repeats : Bool) :
    Script.Course (fun _ => []) (Script.parkNew t repeats) :=
  .bind (.offered (.addTimeline 4294967295)) fun _ => .bind (.offered (.setFps t 1000)) fun _ =>
    .bind (.offered (.setRepeats t repeats)) fun _ =>
      .bind (.offered (.advance t 4294967295)) fun _ => .pure ()

/-- The first timeline repeats, the second one does not. -/
def parked : World Unit :=
  ((Script.parkNew ⟨0⟩ true >>= fun _ => Script.parkNew ⟨1⟩ false).run ⟨.empty true, ()⟩).2

theorem reachable_parked : parked.stage.Reachable := by
  unfold parked
  exact Arises.reachable (@Arises.course _ (fun _ => []) _ _ _ (.opening true rfl)
    (.bind (Script.course_parkNew ⟨0⟩ true) fun _ => Script.course_parkNew ⟨1⟩ false))

theorem overflows_at_brink_parked :
    (Script.nextFrame (.silent Unit) ⟨0⟩).run parked = (.error (.violation .addOverflow), parked) ∧
      (parked.stage.clock ⟨1⟩).frame = 2 ^ 32 - 1 ∧
      ∀ cause, ((Script.nextFrame (.silent Unit) ⟨1⟩).run parked).1 ≠
        .error (.violation cause) := by
  have silent : Script.Course (fun _ : Unit => []) (pure () : Script Unit Unit) := .pure ()
  have overflows (t : Ref .timeline) := @Stage.Reachable.overflows_at_brink _ _ _ reachable_parked
    (.silent Unit) (fun _ _ => silent) (fun _ _ => .pure 0) (fun _ _ => silent)
    (fun _ _ => silent) t
  refine ⟨(overflows ⟨0⟩).1 ⟨by decide +kernel, by decide +kernel, by decide +kernel⟩,
    by decide +kernel, fun cause broken => ?_⟩
  have single : (parked.stage.clock ⟨1⟩).repeats = false := by decide +kernel
  obtain ⟨v, -, breaks⟩ := (overflows ⟨1⟩).2
    (fun brink => nomatch single.symm.trans brink.repeated) cause broken
  exact Stage.Reachable.not_breaksOff_silent breaks

/-- A frame breaks off with an overflow that no callback has to do with. -/
theorem overflow_of_frame :
    parked.stage.Reachable ∧
      ((Script.nextFrame (.silent Unit) ⟨0⟩).run parked).1 = .error (.violation .addOverflow) :=
  ⟨reachable_parked, by decide +kernel⟩

end Animation
