/-
# Skipping and playing

To skip frames is to count on: at the end of a single run the count stops, and a timeline that
repeats goes around all its frames, the first and the last one included. To play frames comes to the
same in a single run. But a timeline that repeats goes back to its start in the very frame in which
it comes to its end, so that it is on one frame more than was asked for each time. Skipping the runs
that were ended, once more, makes up for that.
-/

import Animation.Proofs.Timeline.Mirror

namespace Animation

namespace Clock

section Run

variable (c : Clock)

/-- How many frames of its run a clock has behind it. -/
def gone : Nat :=
  match c.direction with
  | .forward => c.frame
  | .backward => c.frames - c.frame

/-- The clock when it has so many frames of its run behind it. -/
def atGone (count : Nat) : Clock :=
  { c with
    frame := match c.direction with
      | .forward => count
      | .backward => c.frames - count }

/-- The count of frames after a jump. -/
def goneAfter (n : Nat) : Nat :=
  if c.repeats then (c.gone + n) % (c.frames + 1) else min (c.gone + n) c.frames

/-- The count of frames after the next frame was played. -/
def goneNext (count : Nat) : Nat :=
  if c.repeats then if count + 1 < c.frames then count + 1 else 0 else min (count + 1) c.frames

/-- How many runs are ended by so many frames, apart from one that had ended before. -/
def runsEnded (n : Nat) : Nat :=
  if c.isComplete then (n - 1) / c.frames else (c.gone + n) / c.frames

end Run

variable {c : Clock} {count n : Nat}

theorem gone_atGone (le : count ≤ c.frames) : (c.atGone count).gone = count := by
  have frames : (c.atGone count).frames = c.frames := rfl
  unfold gone
  rw [frames]
  unfold atGone
  cases c.direction with
  | forward => rfl
  | backward => exact Nat.sub_sub_self le

theorem atGone_gone (le : c.frame ≤ c.frames) : c.atGone c.gone = c := by
  obtain ⟨duration, fps, repeats, direction, frame⟩ := c
  cases direction with
  | forward => rfl
  | backward => exact congrArg (Clock.mk duration fps repeats .backward) (Nat.sub_sub_self le)

theorem atGone_atGone (count count' : Nat) : (c.atGone count).atGone count' = c.atGone count' := rfl

theorem gone_le (le : c.frame ≤ c.frames) : c.gone ≤ c.frames := by
  unfold gone
  split
  · exact le
  · exact Nat.sub_le ..

/-- The frame tells how many frames are gone. -/
theorem frame_atGone_inj {count' : Nat} (le : count ≤ c.frames) (le' : count' ≤ c.frames) :
    (c.atGone count).frame = (c.atGone count').frame ↔ count = count' := by
  unfold atGone
  cases c.direction with
  | forward => exact Iff.rfl
  | backward =>
      dsimp only
      omega

theorem isComplete_atGone (le : count ≤ c.frames) :
    (c.atGone count).isComplete = decide (count = c.frames) := by
  have frames : (c.atGone count).frames = c.frames := rfl
  rw [Bool.eq_iff_iff]
  unfold isComplete
  rw [frames]
  unfold atGone
  cases c.direction with
  | forward =>
      simp only [decide_eq_true_eq]
      omega
  | backward =>
      simp only [beq_iff_eq, decide_eq_true_eq]
      omega

/-- A run is complete when all its frames are gone. -/
theorem isComplete_eq_gone (le : c.frame ≤ c.frames) :
    c.isComplete = decide (c.gone = c.frames) := by
  have complete := isComplete_atGone (gone_le le)
  rwa [atGone_gone le] at complete

/-- The next frame is the last one unless another is left. -/
theorem isComplete_atGone_next (c : Clock) (count : Nat) :
    (c.atGone (min (count + 1) c.frames)).isComplete = !decide (count + 1 < c.frames) := by
  rw [isComplete_atGone (Nat.min_le_right ..), ← decide_not, decide_eq_decide]
  omega

theorem rewind_atGone : (c.atGone count).rewind = c.atGone 0 := by
  unfold rewind atGone
  cases c.direction <;> rfl

theorem goneAfter_le (c : Clock) (n : Nat) : c.goneAfter n ≤ c.frames := by
  unfold goneAfter
  split
  · exact Nat.le_of_lt_succ (Nat.mod_lt _ (Nat.succ_pos _))
  · exact Nat.min_le_right ..

section Few

variable (few : c.frames < Word.max32)

include few

theorem step_atGone (le : count ≤ c.frames) :
    (c.atGone count).step = .ok (c.atGone (min (count + 1) c.frames)) := by
  have next : Word.add32 count 1 = .ok (count + 1) := if_pos (by omega)
  have frames : (c.atGone count).frames = c.frames := rfl
  unfold step
  rw [frames]
  unfold atGone
  cases direction : c.direction with
  | forward => simp only [next, bind, Except.bind, pure, Except.pure]
  | backward =>
      simp only [pure, Except.pure, Except.ok.injEq]
      congr 1
      omega

theorem frameAfter_eq (le : c.frame ≤ c.frames) (fits : n ≤ Word.max32) :
    c.frameAfter n = .ok (c.atGone (c.goneAfter n)).frame := by
  have words : Word.max32 + Word.max32 ≤ Word.max64 := by decide
  have target : Word.add64 c.frame n = .ok (c.frame + n) := if_pos (by omega)
  have span : Word.add64 c.frames 1 = .ok (c.frames + 1) := if_pos (by omega)
  unfold frameAfter atGone goneAfter gone
  cases c.direction with
  | forward =>
      cases c.repeats <;> simp only [target, span, bind, Except.bind, pure, Except.pure] <;> rfl
  | backward =>
      cases c.repeats with
      | false =>
          simp only [pure, Except.pure, Except.ok.injEq, Bool.false_eq_true, if_false]
          omega
      | true =>
          have lt : n % (c.frames + 1) < c.frames + 1 := Nat.mod_lt _ (Nat.succ_pos _)
          have raised : Word.add64 c.frame (c.frames + 1) = .ok (c.frame + (c.frames + 1)) :=
            if_pos (by omega)
          have lowered : Word.sub (c.frame + (c.frames + 1)) (n % (c.frames + 1)) =
              .ok (c.frame + (c.frames + 1) - n % (c.frames + 1)) := if_pos (by omega)
          have mirrored := mirror_mod (n := c.frames) (k := n) (Nat.sub_le c.frames c.frame)
          rw [Nat.sub_sub_self le] at mirrored
          simp only [span, raised, lowered, bind, Except.bind, pure, Except.pure, if_true, mirrored]

omit few in
theorem goneAfter_atGone (repeated : c.repeats = true) (le : count ≤ c.frames) :
    (c.atGone count).goneAfter n = (count + n) % (c.frames + 1) := by
  rw [goneAfter, gone_atGone le]
  exact if_pos repeated

theorem skip_eq (le : c.frame ≤ c.frames) (fits : n ≤ Word.max32) :
    c.skip n = .ok (c.atGone (c.goneAfter n)) := by
  have within : (c.atGone (c.goneAfter n)).frame ≤ c.frames := by
    have le := c.goneAfter_le n
    unfold atGone
    cases c.direction with
    | forward => exact le
    | backward => exact Nat.sub_le ..
  unfold skip
  rw [frameAfter_eq few le fits]
  show Except.ok { c with frame := Word.narrow32 _ } = _
  rw [Word.narrow32_of_le (by omega)]
  rfl

end Few

/-- How often the end of a run is announced during so many frames of a timeline that repeats. -/
def endings (c : Clock) (count : Nat) : Nat → Nat
  | 0 => 0
  | n + 1 => (if count + 1 < c.frames then 0 else 1) + c.endings (c.goneNext count) n

theorem goneNext_le (c : Clock) (count : Nat) : c.goneNext count ≤ c.frames := by
  unfold goneNext
  split
  · split <;> omega
  · exact Nat.min_le_right ..

/-- In a single run the count of frames goes up to the last one. -/
theorem iterate_goneNext_single (single : c.repeats = false) (le : count ≤ c.frames) (n : Nat) :
    c.goneNext^[n] count = min (count + n) c.frames := by
  induction n generalizing count with
  | zero => exact (Nat.min_eq_left le).symm
  | succ n ih =>
      have next : c.goneNext count = min (count + 1) c.frames := by simp [goneNext, single]
      rw [Function.iterate_succ_apply, ih (c.goneNext_le count), next]
      omega

/-- A timeline that repeats is on its first frame again once it has come to its end. -/
theorem iterate_goneNext_repeated (repeated : c.repeats = true) (lt : count < c.frames) (n : Nat) :
    c.goneNext^[n] count = (count + n) % c.frames ∧ c.endings count n = (count + n) / c.frames := by
  induction n generalizing count with
  | zero => exact ⟨(Nat.mod_eq_of_lt lt).symm, (Nat.div_eq_of_lt lt).symm⟩
  | succ n ih =>
      have next : c.goneNext count = if count + 1 < c.frames then count + 1 else 0 := by
        simp [goneNext, repeated]
      rw [Function.iterate_succ_apply, endings, next]
      split
      · next within =>
          obtain ⟨iterate, endings⟩ := ih within
          rw [iterate, endings, Nat.zero_add, Nat.add_right_comm, Nat.add_assoc]
          exact ⟨rfl, rfl⟩
      · next last =>
          obtain ⟨iterate, endings⟩ := ih c.frames_pos
          have round : count + (n + 1) = 0 + n + c.frames := by omega
          rw [iterate, endings, round, Nat.add_mod_right, Nat.add_div_right _ c.frames_pos]
          exact ⟨rfl, Nat.add_comm 1 _⟩

/-- One that stands at its end is first taken to its start. -/
theorem iterate_goneNext_end (repeated : c.repeats = true) (n : Nat) :
    c.goneNext^[n + 1] c.frames = n % c.frames ∧ c.endings c.frames (n + 1) = 1 + n / c.frames := by
  have beyond : ¬ c.frames + 1 < c.frames := by omega
  have next : c.goneNext c.frames = 0 := by simp [goneNext, repeated, beyond]
  obtain ⟨iterate, endings⟩ := iterate_goneNext_repeated repeated c.frames_pos n
  rw [Function.iterate_succ_apply, Clock.endings, next, iterate, endings, if_neg beyond,
    Nat.zero_add]
  exact ⟨rfl, rfl⟩

/-- A count of frames within the runs is one around all frames, with one more for every run. -/
theorem add_runs_mod (c : Clock) (m : Nat) :
    (m + m / c.frames) % (c.frames + 1) = m % c.frames := by
  have whole := Nat.div_add_mod m c.frames
  have lt := Nat.mod_lt m c.frames_pos
  have sum : m + m / c.frames = m % c.frames + (c.frames + 1) * (m / c.frames) := by
    rw [Nat.succ_mul]
    omega
  rw [sum, Nat.add_mul_mod_self_left, Nat.mod_eq_of_lt (by omega)]

/-- The frames that are gone when as many were played as were skipped, and the runs that were ended
are skipped as well. -/
theorem iterate_goneNext_eq (repeated : c.repeats = true) (le : c.frame ≤ c.frames) (n : Nat) :
    c.goneNext^[n] c.gone = (c.goneAfter n + c.runsEnded n) % (c.frames + 1) ∧
      c.endings c.gone n = c.runsEnded n + if c.isComplete = true ∧ 0 < n then 1 else 0 := by
  have after : c.goneAfter n = (c.gone + n) % (c.frames + 1) := if_pos repeated
  rw [after, Nat.mod_add_mod, runsEnded, isComplete_eq_gone le]
  by_cases last : c.gone = c.frames
  · rw [last, decide_eq_true rfl, if_pos rfl]
    cases n with
    | zero =>
        refine ⟨?_, by simp [endings]⟩
        rw [Nat.zero_sub, Nat.zero_div, Nat.add_zero, Nat.mod_eq_of_lt (Nat.lt_succ_self _)]
        rfl
    | succ n =>
        obtain ⟨iterate, endings⟩ := iterate_goneNext_end repeated n
        have round : c.frames + (n + 1) + (n + 1 - 1) / c.frames =
            n + n / c.frames + (c.frames + 1) := by
          rw [Nat.add_sub_cancel]
          omega
        rw [iterate, endings, round, Nat.add_mod_right, c.add_runs_mod, Nat.add_sub_cancel,
          if_pos ⟨rfl, Nat.succ_pos n⟩, Nat.add_comm]
        exact ⟨rfl, rfl⟩
  · obtain ⟨iterate, endings⟩ :=
      iterate_goneNext_repeated repeated (Nat.lt_of_le_of_ne (gone_le le) last) n
    rw [iterate, endings, decide_eq_false last, if_neg Bool.false_ne_true, c.add_runs_mod]
    exact ⟨rfl, by simp⟩

/-- No more runs are ended than frames are played. -/
theorem runsEnded_le (le : c.frame ≤ c.frames) (n : Nat) : c.runsEnded n ≤ n := by
  have positive := c.frames_pos
  unfold runsEnded
  split
  · exact Nat.le_trans (Nat.div_le_self ..) (Nat.sub_le ..)
  · next incomplete =>
      have lt : c.gone < c.frames := by
        refine Nat.lt_of_le_of_ne (gone_le le) fun last => incomplete ?_
        rw [isComplete_eq_gone le, decide_eq_true last]
      rw [Nat.div_le_iff_le_mul_add_pred positive]
      have grows : n * 1 ≤ c.frames * n := by
        rw [Nat.mul_comm]
        exact Nat.mul_le_mul_right n positive
      omega

end Clock

/-! ## On the stage -/

/-- Play so many frames, whether there is a next one or not. -/
def Script.nextFrames {υ : Type} (host : Host υ) (t : Ref .timeline) : Nat → Script υ Unit
  | 0 => pure ()
  | n + 1 => do
      let _ ← nextFrame host t
      nextFrames host t n

namespace Pact

open Script

variable {υ : Type} {calm : υ → Prop} {t : Ref .timeline} {host : Host υ} {w : World υ}
  {c : Clock} {count : Nat}

/-- After a frame was played the clock has the next count of frames behind it. -/
theorem clockAfter_atGone (c : Clock) (count : Nat) :
    clockAfter (c.atGone (min (count + 1) c.frames)) = c.atGone (c.goneNext count) := by
  have same : (c.atGone (min (count + 1) c.frames)).repeats = c.repeats := rfl
  rw [clockAfter, Clock.isComplete_atGone_next, same, Clock.rewind_atGone, Clock.goneNext]
  cases c.repeats with
  | false => simp
  | true =>
      by_cases within : count + 1 < c.frames
      · simp [within, Nat.min_eq_left (Nat.le_of_lt within)]
      · simp [within]

/-- The end of the run is announced after the last frame. -/
theorem count_news_atGone (c : Clock) (count : Nat) :
    (c.atGone (min (count + 1) c.frames)).news.count .completed =
      if count + 1 < c.frames then 0 else 1 := by
  rw [Clock.news, Clock.isComplete_atGone_next]
  by_cases within : count + 1 < c.frames <;> simp [within]

/-- A frame is played. -/
theorem Binds.run_nextFrame_atGone (hh : (untouched calm t).Binds host)
    (few : c.frames < Word.max32) (attends : Attends calm t w)
    (clock : w.stage.clock t = c.atGone count) (le : count ≤ c.frames) :
    ∃ answer w', (nextFrame host t).run w = (.ok answer, w') ∧ Attends calm t w' ∧
      w'.stage.clock t = c.atGone (c.goneNext count) ∧
      (c.repeats = true → (w'.stage.bulletins t).count .completed =
        (w.stage.bulletins t).count .completed + if count + 1 < c.frames then 0 else 1) := by
  have complete := Clock.isComplete_atGone le
  have isOver : (w.stage.clock t).isOver = (!c.repeats && decide (count = c.frames)) := by
    rw [clock, Clock.isOver, complete]
    rfl
  cases going : (w.stage.clock t).isOver with
  | true =>
      rw [isOver, Bool.and_eq_true, Bool.not_eq_true', decide_eq_true_eq] at going
      obtain ⟨single, rfl⟩ := going
      have stays : c.goneNext c.frames = c.frames := by simp [Clock.goneNext, single]
      refine ⟨false, w, run_nextFrame_of_isOver ?_, attends, stays.symm ▸ clock, fun repeated => ?_⟩
      · rw [isOver, single]
        simp
      · rw [single] at repeated
        exact absurd repeated Bool.false_ne_true
  | false =>
      have step := Clock.step_atGone few le
      rw [← clock] at step
      obtain ⟨w', run, turned⟩ := hh.run_nextFrame attends going step
      refine ⟨_, w', run, turned.attends, ?_, fun _ => ?_⟩
      · rw [turned.clock, clockAfter_atGone]
      · rw [turned.bulletins, List.count_append, count_news_atGone]

theorem Binds.run_nextFrames (hh : (untouched calm t).Binds host) (few : c.frames < Word.max32)
    (attends : Attends calm t w) (clock : w.stage.clock t = c.atGone count)
    (le : count ≤ c.frames) (n : Nat) :
    ∃ w', (nextFrames host t n).run w = (.ok (), w') ∧
      w'.stage.clock t = c.atGone (c.goneNext^[n] count) ∧
      (c.repeats = true → (w'.stage.bulletins t).count .completed =
        (w.stage.bulletins t).count .completed + c.endings count n) := by
  induction n generalizing w count with
  | zero => exact ⟨w, rfl, clock, fun _ => rfl⟩
  | succ n ih =>
      obtain ⟨answer, w₁, run, attends₁, clock₁, ended⟩ :=
        hh.run_nextFrame_atGone few attends clock le
      obtain ⟨w₂, run', clock₂, ended'⟩ := ih attends₁ clock₁ (c.goneNext_le count)
      refine ⟨w₂, (run_bind_of_ok run _).trans run', clock₂, fun repeated => ?_⟩
      rw [ended' repeated, ended repeated, Nat.add_assoc]
      rfl

end Pact

/-- Frames of a timeline are skipped, or as many are played while callbacks leave the timeline
alone. In a single run both come to the same frame. A timeline that repeats comes to the frame to
which it comes by skipping as many frames, and then as many as it has ended runs; so the frames are
the same just if the runs that were ended lead once around all frames, as they do if there are
none. -/
theorem Stage.Reachable.skipped_and_played {υ : Type} {w : World υ} (reachable : w.stage.Reachable)
    {t : Ref .timeline} {calm : υ → Prop} {host : Host υ}
    (binds : (Pact.untouched calm t).Binds host) (atEase : calm w.user)
    (free : (w.stage.emitters.get (w.stage.emitterOf t)).isHeld = false)
    (few : (w.stage.clock t).frames < 2 ^ 32 - 1) {n : Nat} (fits : n ≤ 2 ^ 32 - 1) :
    let c := w.stage.clock t
    ∃ wₛ wₚ, (Script.skip t n).run w = (.ok (), wₛ) ∧
      (Script.nextFrames host t n).run w = (.ok (), wₚ) ∧
      (c.repeats = false → (wₚ.stage.clock t).frame = (wₛ.stage.clock t).frame) ∧
      (c.repeats = true →
        (wₚ.stage.bulletins t).count .completed = (w.stage.bulletins t).count .completed +
          (c.runsEnded n + if c.isComplete = true ∧ 0 < n then 1 else 0) ∧
        (∃ wₑ, (Script.skip t (c.runsEnded n)).run wₛ = (.ok (), wₑ) ∧
          (wₚ.stage.clock t).frame = (wₑ.stage.clock t).frame) ∧
        ((wₚ.stage.clock t).frame = (wₛ.stage.clock t).frame ↔ c.frames + 1 ∣ c.runsEnded n)) := by
  intro c
  have few : c.frames < Word.max32 := few
  have fits : n ≤ Word.max32 := fits
  have le : c.frame ≤ c.frames := (reachable.sound t).frame_le
  obtain ⟨wₚ, played, clock, ended⟩ := binds.run_nextFrames few ⟨⟨atEase, reachable.checked⟩, free⟩
    (Clock.atGone_gone le).symm (Clock.gone_le le) n
  refine ⟨_, wₚ, Script.run_skip (Clock.skip_eq few le fits), played, fun single => ?_,
    fun repeated => ?_⟩
  · rw [clock, clock_setClock, Clock.iterate_goneNext_single single (Clock.gone_le le),
      Clock.goneAfter, single]
    rfl
  · obtain ⟨last, endings⟩ := Clock.iterate_goneNext_eq repeated le n
    have within : (c.atGone (c.goneAfter n)).frame ≤ (c.atGone (c.goneAfter n)).frames :=
      ((reachable.sound t).skip (Clock.skip_eq few le fits)).frame_le
    have further : ((w.stage.setClock t (c.atGone (c.goneAfter n))).clock t).skip (c.runsEnded n) =
        .ok (c.atGone (c.goneNext^[n] c.gone)) := by
      rw [clock_setClock, Clock.skip_eq (c := c.atGone (c.goneAfter n)) few within
        (Nat.le_trans (Clock.runsEnded_le le n) fits), Clock.atGone_atGone,
        Clock.goneAfter_atGone repeated (c.goneAfter_le n), last]
    refine ⟨endings ▸ ended repeated, ⟨_, Script.run_skip further, ?_⟩, ?_⟩
    · rw [clock, clock_setClock]
    · have lt : c.goneNext^[n] c.gone < c.frames + 1 := last ▸ Nat.mod_lt _ (Nat.succ_pos _)
      rw [clock, clock_setClock, Clock.frame_atGone_inj (Nat.le_of_lt_succ lt) (c.goneAfter_le n),
        last]
      have around : c.goneAfter n % (c.frames + 1) = c.goneAfter n :=
        Nat.mod_eq_of_lt (Nat.lt_succ_of_le (c.goneAfter_le n))
      constructor
      · intro same
        have whole := Nat.div_add_mod (c.goneAfter n + c.runsEnded n) (c.frames + 1)
        exact ⟨(c.goneAfter n + c.runsEnded n) / (c.frames + 1), by omega⟩
      · rintro ⟨k, whole⟩
        rw [whole, Nat.add_mul_mod_self_left, around]

def Script.goingRound : Script Unit Unit := do
  let _ ← Script.owning [] (Script.produce (·.addTimeline 50))
  let _ ← Script.owning [.timeline ⟨0⟩] (Script.setRepeats ⟨0⟩ true)

def roundabout : World Unit := (Script.goingRound.run ⟨.empty true, ()⟩).2

theorem reachable_roundabout : roundabout.stage.Reachable := by
  unfold roundabout
  exact Arises.reachable (@Arises.course _ (fun _ => []) _ _ _ (.opening true rfl)
    (.bind (.offered (.addTimeline 50)) fun _ =>
      .bind (.offered (.setRepeats ⟨0⟩ true)) fun _ => .pure ()))

theorem skipped_and_played_roundabout :
    let c := roundabout.stage.clock ⟨0⟩
    c.repeats = true ∧ c.frames = 3 ∧ c.runsEnded 12 = 4 ∧
      ∃ wₛ wₚ, (Script.skip ⟨0⟩ 12).run roundabout = (.ok (), wₛ) ∧
        (Script.nextFrames (.silent Unit) ⟨0⟩ 12).run roundabout = (.ok (), wₚ) ∧
        (wₚ.stage.clock ⟨0⟩).frame = (wₛ.stage.clock ⟨0⟩).frame := by
  have repeated : (roundabout.stage.clock ⟨0⟩).repeats = true := by decide +kernel
  have frames : (roundabout.stage.clock ⟨0⟩).frames = 3 := by decide +kernel
  have ended : (roundabout.stage.clock ⟨0⟩).runsEnded 12 = 4 := by decide +kernel
  have binds := (Pact.untouched (fun _ : Unit => True) ⟨0⟩).binds_silent
  obtain ⟨wₛ, wₚ, skipped, played, -, agree⟩ := reachable_roundabout.skipped_and_played
    binds trivial (by decide +kernel) (by rw [frames]; decide) (n := 12) (by decide)
  obtain ⟨-, -, same⟩ := agree repeated
  refine ⟨repeated, frames, ended, wₛ, wₚ, skipped, played, same.2 ?_⟩
  rw [frames, ended]

/-- To skip three frames leads to the last one, and to play three leads to the first one again. -/
theorem skipping_is_not_playing :
    let w := roundabout
    w.stage.Reachable ∧ (w.stage.clock ⟨0⟩).frames < 2 ^ 32 - 1 ∧
      ((Script.skip ⟨0⟩ 3).run w).1 = .ok () ∧
      ((Script.nextFrames (.silent Unit) ⟨0⟩ 3).run w).1 = .ok () ∧
      ((((Script.skip ⟨0⟩ 3).run w).2.stage.clock ⟨0⟩).frame) = 3 ∧
      (((Script.nextFrames (.silent Unit) ⟨0⟩ 3).run w).2.stage.clock ⟨0⟩).frame = 0 :=
  ⟨reachable_roundabout, by decide +kernel, rfl, by decide +kernel, by decide +kernel,
    by decide +kernel⟩

end Animation
