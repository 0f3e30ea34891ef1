/-
# Jumps add up

Counted in whole numbers without end, a jump leads so many frames on in the direction of the clock.
On a clock that repeats the count goes on around all frames, the first and the last one included,
and on any other it is held between these two. The clock itself computes in words, with a formula
of its own for each case. No sum or difference leaves its word, whatever the number of frames, and
the frame that comes out is the one that was counted.

So jumps are added as counts are. To jump twice is to jump once by the sum, and a jump around all
frames of a clock that repeats leads nowhere.
-/

import Animation.Proofs.Timeline.Mirror

namespace Animation

/-- How the number of the frame changes from each frame to the next. -/
def Direction.sign : Direction → Int
  | forward => 1
  | backward => -1

namespace Clock

/-- The frame that a whole number stands for. -/
def frameAt (c : Clock) (z : Int) : Int :=
  if c.repeats then z % (c.frames + 1) else max 0 (min z c.frames)

/-- The frame to which a jump leads. -/
def landing (c : Clock) (n : Nat) : Int := c.frameAt (c.frame + c.direction.sign * n)

variable {c : Clock} {a b n : Nat}

theorem frameAt_le (c : Clock) (z : Int) : c.frameAt z ≤ c.frames := by
  unfold frameAt
  split
  · exact Int.le_of_lt_add_one (Int.emod_lt_of_pos _ (by omega))
  · omega

/-- A frame of the clock stands for itself. -/
theorem frameAt_frame (le : c.frame ≤ c.frames) : c.frameAt c.frame = c.frame := by
  unfold frameAt
  split
  · exact Int.emod_eq_of_lt (by omega) (by omega)
  · omega

/-- What is taken off is less than one round, so that with one round more there is enough to take
it from. -/
theorem cast_round_sub (f n : Nat) (span : Nat) (pos : 0 < span) :
    (((f + span - n % span) % span : Nat) : Int) = (f + -1 * n : Int) % span := by
  have lt : n % span < span := Nat.mod_lt _ pos
  calc (((f + span - n % span) % span : Nat) : Int)
      = ((f : Int) + span - (n : Int) % span) % span := by
        rw [Int.natCast_emod, Nat.cast_sub (by omega), Nat.cast_add, Int.natCast_emod]
    _ = ((f : Int) + span - n) % span := Int.sub_emod_emod ..
    _ = (f - n + span : Int) % span := by rw [sub_add_eq_add_sub]
    _ = (f + -1 * n : Int) % span := by
        rw [Int.add_emod_right, Int.neg_one_mul, ← Int.sub_eq_add_neg]

/-- No word is too small for a jump, and it leads where it should. -/
theorem exists_frameAfter_eq (le : c.frame ≤ c.frames) (fits : n ≤ Word.max32) :
    ∃ frame : Nat, c.frameAfter n = .ok frame ∧ (frame : Int) = c.landing n := by
  have few := c.frames_le
  have words : Word.max32 + Word.max32 + 1 ≤ Word.max64 := by decide
  have target : Word.add64 c.frame n = .ok (c.frame + n) := if_pos (by omega)
  have span : Word.add64 c.frames 1 = .ok (c.frames + 1) := if_pos (by omega)
  unfold frameAfter landing frameAt
  cases c.direction with
  | forward =>
      cases c.repeats with
      | false =>
          refine ⟨min (c.frame + n) c.frames, ?_, ?_⟩
          · simp only [target, bind, Except.bind, pure, Except.pure]
          · simp only [Direction.sign, Bool.false_eq_true, if_false]
            omega
      | true =>
          refine ⟨(c.frame + n) % (c.frames + 1), ?_, ?_⟩
          · simp only [target, span, bind, Except.bind, pure, Except.pure]
          · simp only [Direction.sign, if_true, Int.one_mul]
            push_cast
            rfl
  | backward =>
      cases c.repeats with
      | false =>
          refine ⟨c.frame - n, rfl, ?_⟩
          simp only [Direction.sign, Bool.false_eq_true, if_false]
          omega
      | true =>
          have lt : n % (c.frames + 1) < c.frames + 1 := Nat.mod_lt _ (Nat.succ_pos _)
          have raised : Word.add64 c.frame (c.frames + 1) = .ok (c.frame + (c.frames + 1)) :=
            if_pos (by omega)
          have lowered : Word.sub (c.frame + (c.frames + 1)) (n % (c.frames + 1)) =
              .ok (c.frame + (c.frames + 1) - n % (c.frames + 1)) := if_pos (by omega)
          refine ⟨(c.frame + (c.frames + 1) - n % (c.frames + 1)) % (c.frames + 1), ?_, ?_⟩
          · simp only [span, raised, lowered, bind, Except.bind, pure, Except.pure]
          · simp only [Direction.sign, if_true]
            exact_mod_cast cast_round_sub c.frame n (c.frames + 1) (Nat.succ_pos _)

/-- A jump changes the frame, which is still one of the clock, and nothing else. -/
theorem exists_skip_eq (le : c.frame ≤ c.frames) (fits : n ≤ Word.max32) :
    ∃ frame : Nat, c.frameAfter n = .ok frame ∧ (frame : Int) = c.landing n ∧
      frame ≤ c.frames ∧ Word.narrow32 frame = frame ∧ c.skip n = .ok { c with frame } := by
  obtain ⟨frame, after, lands⟩ := exists_frameAfter_eq le fits
  have within : frame ≤ c.frames := by
    have bound : c.landing n ≤ c.frames := c.frameAt_le _
    omega
  have narrow : Word.narrow32 frame = frame :=
    Word.narrow32_of_le (Nat.le_trans within c.frames_le)
  refine ⟨frame, after, lands, within, narrow, ?_⟩
  unfold skip
  rw [after]
  show Except.ok { c with frame := Word.narrow32 frame } = _
  rw [narrow]

/-- Counts are added whether they are taken around the frames or held at the end they run to. -/
theorem landing_add (le : c.frame ≤ c.frames) {frame : Nat} (first : (frame : Int) = c.landing a) :
    landing { c with frame } b = c.landing (a + b) := by
  have frames : Clock.frames { c with frame } = c.frames := rfl
  unfold landing frameAt at first ⊢
  dsimp only at first ⊢
  rw [frames, first]
  cases c.repeats with
  | true =>
      simp only [if_true]
      rw [Int.emod_add_emod, Nat.cast_add, Int.mul_add, Int.add_assoc]
  | false =>
      simp only [Bool.false_eq_true, if_false]
      cases c.direction with
      | forward =>
          simp only [Direction.sign]
          omega
      | backward =>
          simp only [Direction.sign]
          omega

/-- A jump around all frames leads back. -/
theorem landing_round (repeated : c.repeats = true) (le : c.frame ≤ c.frames) :
    c.landing (c.frames + 1) = c.frame := by
  rw [← frameAt_frame le]
  unfold landing frameAt
  rw [if_pos repeated, if_pos repeated]
  cases c.direction with
  | forward =>
      show (c.frame + 1 * ((c.frames + 1 : Nat) : Int)) % (c.frames + 1) = _
      rw [Int.one_mul]
      exact Int.add_emod_right ..
  | backward =>
      show (c.frame + -1 * ((c.frames + 1 : Nat) : Int)) % (c.frames + 1) = _
      rw [Int.neg_one_mul, ← Int.sub_eq_add_neg]
      exact Int.sub_emod_right ..

/-- The second of two jumps leads where both together lead. -/
theorem skip_of_skip {c' : Clock} (le : c.frame ≤ c.frames) (fits : a + b ≤ Word.max32)
    (first : c.skip a = .ok c') : c'.skip b = c.skip (a + b) := by
  obtain ⟨frame, -, lands, le', -, skipped⟩ := exists_skip_eq le (Nat.le_of_add_right_le fits)
  cases first.symm.trans skipped
  obtain ⟨last, -, landsLast, -, -, skippedLast⟩ :=
    exists_skip_eq (c := { c with frame }) le' (Nat.le_of_add_left_le fits)
  obtain ⟨both, -, landsBoth, -, -, skippedBoth⟩ := exists_skip_eq le fits
  have same : last = both := by
    rw [landing_add le lands, ← landsBoth] at landsLast
    exact_mod_cast landsLast
  rw [skippedLast, skippedBoth, same]

theorem skip_round (repeated : c.repeats = true) (le : c.frame ≤ c.frames)
    (fits : c.frames + 1 ≤ Word.max32) : c.skip (c.frames + 1) = .ok c := by
  obtain ⟨frame, -, lands, -, -, skipped⟩ := exists_skip_eq le fits
  have same : frame = c.frame := by
    rw [landing_round repeated le] at lands
    exact_mod_cast lands
  rw [skipped, same]

end Clock

namespace Stage

/-- To set the clock that a timeline of the stage has changes nothing. -/
theorem setClock_clock {s : Stage} {t : Ref .timeline} (mem : t ∈ s.timelines.refs) :
    s.setClock t (s.clock t) = s :=
  congrArg (fun timelines => { s with timelines })
    (Table.modify_eq_self _ (Table.mem_refs.1 mem) rfl)

end Stage

namespace Script

variable {υ : Type} {w : World υ} {t : Ref .timeline}

/-- To skip twice is to skip the sum. -/
theorem run_skip_bind_skip (le : (w.stage.clock t).frame ≤ (w.stage.clock t).frames) {a b : Nat}
    (fits : a + b ≤ Word.max32) :
    (skip t a >>= fun _ => skip t b).run w = (skip t (a + b)).run w := by
  obtain ⟨first, -, -, -, -, skipped⟩ := Clock.exists_skip_eq le (Nat.le_of_add_right_le fits)
  obtain ⟨both, -, -, -, -, skippedBoth⟩ := Clock.exists_skip_eq le fits
  have second : ((w.stage.setClock t { w.stage.clock t with frame := first }).clock t).skip b =
      .ok { w.stage.clock t with frame := both } := by
    rw [Stage.clock_setClock, Clock.skip_of_skip le fits skipped, skippedBoth]
  rw [run_bind_of_ok (run_skip skipped), run_skip second, run_skip skippedBoth,
    Stage.setClock_setClock]

theorem exists_run_skip (le : (w.stage.clock t).frame ≤ (w.stage.clock t).frames) {n : Nat}
    (fits : n ≤ Word.max32) : ∃ w', (skip t n).run w = (.ok (), w') ∧
      (w'.stage.clock t).frame ≤ (w'.stage.clock t).frames := by
  obtain ⟨frame, -, -, le', -, skipped⟩ := Clock.exists_skip_eq le fits
  refine ⟨_, run_skip skipped, ?_⟩
  rw [Stage.clock_setClock]
  exact le'

/-- To skip any number of times is to skip the sum. -/
theorem run_forEach_skip (le : (w.stage.clock t).frame ≤ (w.stage.clock t).frames) {n : Nat}
    {counts : List Nat} (fits : n + counts.sum ≤ Word.max32) :
    (forEach (skip t) (n :: counts)).run w = (skip t (n + counts.sum)).run w := by
  obtain ⟨w', first, le'⟩ := exists_run_skip le (Nat.le_of_add_right_le fits)
  rw [run_forEach_cons, run_bind_of_ok first]
  induction counts generalizing n w w' with
  | nil =>
      rw [List.sum_nil, Nat.add_zero, first]
      rfl
  | cons m counts ih =>
      rw [List.sum_cons] at fits ⊢
      have fits' : m + counts.sum ≤ Word.max32 := Nat.le_of_add_left_le fits
      obtain ⟨w'', second, le''⟩ := exists_run_skip le' (Nat.le_of_add_right_le fits')
      calc (forEach (skip t) (m :: counts)).run w'
          = (forEach (skip t) counts).run w'' := by rw [run_forEach_cons, run_bind_of_ok second]
        _ = (skip t (m + counts.sum)).run w' := ih le' fits' w'' second le''
        _ = (skip t n >>= fun _ => skip t (m + counts.sum)).run w := by rw [run_bind_of_ok first]
        _ = (skip t (n + (m + counts.sum))).run w := run_skip_bind_skip le fits

end Script

open Script in
/-- Whenever a timeline is met, frames are skipped to the frame that comes of counting without end,
whatever the words of the clock can hold, and its settings stay as they are. To skip several times
is to skip the sum, as long as that can be counted, and to skip all frames of a timeline that
repeats, and one more, changes nothing. -/
theorem Stage.Reachable.skips_compose {υ : Type} {w : World υ} (reachable : w.stage.Reachable)
    (t : Ref .timeline) :
    let c := w.stage.clock t
    (∀ n < 2 ^ 32, ∃ frame : Nat, c.frameAfter n = .ok frame ∧ (frame : Int) = c.landing n ∧
      frame ≤ c.frames ∧ Word.narrow32 frame = frame ∧
      (skip t n).run w = (.ok (), { w with stage := w.stage.setClock t { c with frame } })) ∧
    (∀ a b, a + b < 2 ^ 32 →
      (skip t a >>= fun _ => skip t b).run w = (skip t (a + b)).run w) ∧
    (∀ n counts, n + counts.sum < 2 ^ 32 →
      (forEach (skip t) (n :: counts)).run w = (skip t (n + counts.sum)).run w) ∧
    (c.repeats = true → c.frames + 1 < 2 ^ 32 →
      ∃ w', (skip t (c.frames + 1)).run w = (.ok (), w') ∧ w'.stage.clock t = c ∧
        (t ∈ w.stage.timelines.refs → w' = w)) := by
  intro c
  have le : c.frame ≤ c.frames := (reachable.sound t).frame_le
  have word : ∀ {n : Nat}, n < 2 ^ 32 → n ≤ Word.max32 := Nat.le_of_lt_succ
  refine ⟨fun n fits => ?_, fun a b fits => run_skip_bind_skip le (word fits),
    fun n counts fits => run_forEach_skip le (word fits), fun repeated fits => ?_⟩
  · obtain ⟨frame, after, lands, within, narrow, skipped⟩ := Clock.exists_skip_eq le (word fits)
    exact ⟨frame, after, lands, within, narrow, run_skip skipped⟩
  · refine ⟨_, run_skip (Clock.skip_round repeated le (word fits)), Stage.clock_setClock ..,
      fun mem => ?_⟩
    rw [Stage.setClock_clock mem]

/-- The timeline repeats and runs backward, and has five frames to go. -/
def Script.rollingBack : Script Unit Unit := do
  let _ ← Script.owning [] (Script.produce (·.addTimeline 4294967294))
  let _ ← Script.owning [.timeline ⟨0⟩] (Script.setFps ⟨0⟩ 1000)
  let _ ← Script.owning [.timeline ⟨0⟩] (Script.setRepeats ⟨0⟩ true)
  let _ ← Script.owning [.timeline ⟨0⟩] (Script.setDirection ⟨0⟩ .backward)
  let _ ← Script.owning [.timeline ⟨0⟩] (Script.advance ⟨0⟩ 5)

def rolledBack : World Unit := (Script.rollingBack.run ⟨.empty true, ()⟩).2

theorem reachable_rolledBack : rolledBack.stage.Reachable := by
  unfold rolledBack
  exact Arises.reachable (@Arises.course _ (fun _ => []) _ _ _ (.opening true rfl)
    (.bind (.offered (.addTimeline 4294967294)) fun _ =>
      .bind (.offered (.setFps ⟨0⟩ 1000)) fun _ =>
        .bind (.offered (.setRepeats ⟨0⟩ true)) fun _ =>
          .bind (.offered (.setDirection ⟨0⟩ .backward)) fun _ =>
            .bind (.offered (.advance ⟨0⟩ 5)) fun _ => .pure ()))

/-- Seven frames lead past the first one, and the others lead back. -/
theorem skips_compose_rolledBack :
    let c := rolledBack.stage.clock ⟨0⟩
    c.frames = 2 ^ 32 - 2 ∧ c.frame = 5 ∧ c.frameAfter 7 = .ok (2 ^ 32 - 3) ∧
      (Script.skip ⟨0⟩ 7).run rolledBack = (.ok (),
        { rolledBack with
          stage := rolledBack.stage.setClock ⟨0⟩ { c with frame := 2 ^ 32 - 3 } }) ∧
      (Script.skip ⟨0⟩ 7 >>= fun _ => Script.skip ⟨0⟩ (2 ^ 32 - 8)).run rolledBack =
        (.ok (), rolledBack) := by
  obtain ⟨jump, twice, -, around⟩ := reachable_rolledBack.skips_compose ⟨0⟩
  have frames : (rolledBack.stage.clock ⟨0⟩).frames = 2 ^ 32 - 2 := by decide +kernel
  have landing : (rolledBack.stage.clock ⟨0⟩).landing 7 = 2 ^ 32 - 3 := by decide +kernel
  obtain ⟨frame, after, lands, -, -, run⟩ := jump 7 (by decide)
  have past : frame = 2 ^ 32 - 3 := by
    rw [landing] at lands
    omega
  obtain ⟨w', back, -, same⟩ := around (by decide +kernel) (by rw [frames]; decide)
  have sum : 7 + (2 ^ 32 - 8) = 2 ^ 32 - 2 + 1 := by decide
  rw [same (by decide +kernel), frames, ← sum] at back
  subst past
  exact ⟨frames, by decide +kernel, after, run, (twice 7 (2 ^ 32 - 8) (by decide)).trans back⟩

end Animation
