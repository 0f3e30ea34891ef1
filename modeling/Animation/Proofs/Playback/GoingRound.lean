/-
# Round and round

A timeline that repeats is never at an end. It is back at its start in the very frame in which it
comes to its end, so that it goes round with a period of as many frames as it has: the start and the
end are one position of the round. A timeline that has been put on its last frame takes that one
again, and goes on as if it had just been one frame before it.
-/

import Animation.Proofs.Playback.FrameByFrame
import Animation.Proofs.Timeline.Skipping

namespace Animation

open Pact

namespace Clock

variable {c : Clock} {count p k : Nat}

/-- The next frames of a timeline that repeats and has so many frames of its run behind it, but not
all. -/
def round (c : Clock) (p k : Nat) : List Clock :=
  (List.range k).map fun i => c.atGone ((p + i) % c.frames + 1)

theorem round_succ (lt : p < c.frames) (k : Nat) :
    c.round p (k + 1) = c.atGone (p + 1) :: c.round ((p + 1) % c.frames) k := by
  have first : (p + 0) % c.frames = p := Nat.mod_eq_of_lt lt
  rw [round, List.range_succ_eq_map, List.map_cons, List.map_map, first, round]
  congr 2
  funext i
  rw [Nat.mod_add_mod, Nat.add_assoc, Nat.add_comm 1]
  rfl

theorem length_round (c : Clock) (p k : Nat) : (c.round p k).length = k := by simp [round]

/-- The last frame counts as the one before it. -/
theorem goneNext_repeated (repeated : c.repeats = true) (le : count ≤ c.frames) :
    c.goneNext count = (min count (c.frames - 1) + 1) % c.frames := by
  have positive := c.frames_pos
  rw [goneNext, if_pos repeated]
  split
  · next within => rw [Nat.min_eq_left (by omega), Nat.mod_eq_of_lt within]
  · next last => rw [Nat.min_eq_right (by omega), Nat.sub_add_cancel positive, Nat.mod_self]

/-- A timeline that repeats goes round its frames. -/
theorem playsOn_round (repeated : c.repeats = true) (few : c.frames < Word.max32)
    (le : count ≤ c.frames) (k : Nat) :
    (c.atGone count).PlaysOn (c.round (min count (c.frames - 1)) k)
      (c.atGone (if k = 0 then count else (min count (c.frames - 1) + k) % c.frames)) := by
  have positive := c.frames_pos
  induction k generalizing count with
  | zero => exact .done
  | succ k ih =>
      let p := min count (c.frames - 1)
      have next : min (count + 1) c.frames = p + 1 := by omega
      have step := step_atGone few le
      have after := clockAfter_atGone c count
      rw [next] at step after
      rw [goneNext_repeated repeated le] at after
      have lt : (p + 1) % c.frames < c.frames := Nat.mod_lt _ positive
      have others := ih (Nat.le_of_lt lt)
      rw [Nat.min_eq_left (by omega), ← after] at others
      rw [round_succ (by omega)]
      have going : (c.atGone count).isOver = false := by
        rw [isOver, show (c.atGone count).repeats = true from repeated]
        rfl
      have last : (if k = 0 then (p + 1) % c.frames else ((p + 1) % c.frames + k) % c.frames) =
          (p + (k + 1)) % c.frames := by
        rw [Nat.mod_add_mod, Nat.add_assoc, Nat.add_comm 1]
        split
        · next none => rw [none]
        · rfl
      rw [last] at others
      rw [if_neg (Nat.succ_ne_zero k)]
      exact .frame going step others

/-- There is always a next frame. -/
theorem answers_round (repeated : c.repeats = true) (p k : Nat) :
    (c.round p k).map (fun played => !played.isComplete || played.repeats) =
      List.replicate k true := by
  rw [round, List.map_map]
  refine map_range_eq_replicate fun i _ => ?_
  show (_ || c.repeats) = true
  rw [repeated, Bool.or_true]

/-- Each of the frames is announced, and after the last one of a run the end of that. -/
theorem news_round (c : Clock) (p k : Nat) :
    (c.round p k).flatMap Clock.news = (List.range k).flatMap fun i =>
      .frame (c.atGone ((p + i) % c.frames + 1)).frame ::
        if (p + i) % c.frames + 1 = c.frames then [.completed] else [] := by
  rw [round, List.flatMap_map]
  refine List.flatMap_congr fun i _ => news_eq ?_
  exact isComplete_atGone (Nat.mod_lt _ c.frames_pos)

/-- The end of a run is announced as often as the frames lead over it. -/
theorem count_news_round (repeated : c.repeats = true) (lt : p < c.frames) (k : Nat) :
    ((c.round p k).flatMap Clock.news).count .completed = (p + k) / c.frames := by
  rw [← (iterate_goneNext_repeated repeated lt k).2]
  induction k generalizing p with
  | zero => rfl
  | succ k ih =>
      have first := count_news_atGone c p
      rw [Nat.min_eq_left lt] at first
      have next := goneNext_repeated repeated (Nat.le_of_lt lt)
      rw [Nat.min_eq_left (by omega)] at next
      rw [round_succ lt, List.flatMap_cons, List.count_append, first,
        ih (Nat.mod_lt _ c.frames_pos), endings, next]

end Clock

/-- A timeline that repeats is asked for frames, while callbacks leave it alone. Let `n` be how many
frames it has, and `p` how many of them it has behind it, where the last one counts as the one
before it. There is always a next frame. The frames go round: the `j`-th one to be played is that
with `(p + j - 1) % n + 1` frames behind it, which is its number, or what it lacks of `n` if the
timeline runs backward. Each is ticked before it is announced, and the end of the run is announced
after the last frame, which makes `(p + k) / n` times in all. After that the timeline has
`(p + k) % n` frames behind it. If callbacks leave the followers alone as well then all that is
noted of the frames is known. -/
theorem Stage.Reachable.goes_round {υ : Type} {w : World υ} (reachable : w.stage.Reachable)
    {t : Ref .timeline} {calm : υ → Prop} {host : Host υ}
    (binds : (Pact.untouched calm t).Binds host) (atEase : calm w.user)
    (free : (w.stage.emitters.get (w.stage.emitterOf t)).isHeld = false)
    (repeated : (w.stage.clock t).repeats = true)
    (few : (w.stage.clock t).frames < 2 ^ 32 - 1) {k : Nat} (asks : 1 ≤ k) :
    let c := w.stage.clock t
    let n := c.frames
    let p := min c.gone (n - 1)
    let frames := (List.range k).map fun i => c.atGone ((p + i) % n + 1)
    let members := (w.stage.retinue t).map (·.1)
    ∃ w', (Script.askFrames host t k).run w = (.ok (List.replicate k true), w') ∧
      w'.stage.clock t = c.atGone ((p + k) % n) ∧
      FrameByFrame host t frames w w' ∧
      w'.stage.bulletins t = w.stage.bulletins t ++ (List.range k).flatMap (fun i =>
        .frame (c.atGone ((p + i) % n + 1)).frame ::
          if (p + i) % n + 1 = n then [.completed] else []) ∧
      (w'.stage.bulletins t).count .completed =
        (w.stage.bulletins t).count .completed + (p + k) / n ∧
      ((Pact.aloof calm t members).Binds host →
        w'.stage.cues t members = notedAt w.stage.agenda.now
          (frames.flatMap (·.cues host.curves (w.stage.retinue t))) ++ w.stage.cues t members) := by
  intro c n p frames members
  have le : c.frame ≤ c.frames := (reachable.sound t).frame_le
  have lt : p < c.frames := by
    have positive := c.frames_pos
    omega
  have plays := Clock.playsOn_round repeated few (Clock.gone_le le) k
  rw [Clock.atGone_gone le, if_neg (by omega)] at plays
  obtain ⟨w', asked, turned, played⟩ :=
    binds.run_askFrames ⟨⟨atEase, reachable.checked⟩, free⟩ plays
  rw [Clock.length_round, Clock.answers_round repeated] at asked
  refine ⟨w', asked, turned.clock, played, ?_, ?_, fun aloof => ?_⟩
  · rw [turned.bulletins, Clock.news_round]
  · rw [turned.bulletins, List.count_append, Clock.count_news_round repeated lt]
  · obtain ⟨_, v, asked', advanced⟩ := aloof.run_askFrames_of_aloof
      ⟨⟨atEase, reachable.checked⟩, free, reachable.tied.followed t⟩ plays
    rw [Clock.length_round, asked] at asked'
    cases asked'
    exact advanced.onward.cues

/-- The waltz is repeated in reverse, and begins on its last frame. -/
def reversing : Script Unit Unit := do
  waltzing
  let _ ← Script.owning [.timeline ⟨0⟩] (Script.setRepeats ⟨0⟩ true)
  let _ ← Script.owning [.timeline ⟨0⟩] (Script.setDirection ⟨0⟩ .backward)
  let _ ← Script.owning [.timeline ⟨0⟩] (Script.advance ⟨0⟩ 0)

def reversed : World Unit := (reversing.run ⟨.empty true, ()⟩).2

theorem reachable_reversed : reversed.stage.Reachable := by
  unfold reversed
  exact Arises.reachable (@Arises.course _ (fun _ => []) _ _ _ (.opening true rfl)
    (.bind course_waltzing fun _ => .bind (.offered (.setRepeats ⟨0⟩ true)) fun _ =>
      .bind (.offered (.setDirection ⟨0⟩ .backward)) fun _ =>
        .bind (.offered (.advance ⟨0⟩ 0)) fun _ => .pure ()))

theorem goes_round_reversed :
    let c := reversed.stage.clock ⟨0⟩
    c.repeats = true ∧ c.frames = 3 ∧ c.gone = 3 ∧
      ∃ w', (Script.askFrames (.silent Unit) ⟨0⟩ 5).run reversed =
          (.ok [true, true, true, true, true], w') ∧
        (w'.stage.clock ⟨0⟩).frame = 2 ∧
        w'.stage.bulletins ⟨0⟩ =
          [.frame 0, .completed, .frame 2, .frame 1, .frame 0, .completed, .frame 2] ∧
        (w'.stage.bulletins ⟨0⟩).count .completed = 2 ∧
        w'.stage.cues ⟨0⟩ [⟨0⟩] = [(0, .news (.frame 2)), (0, .ticked ⟨0⟩ 43690), (0, .frame 2),
          (0, .news .completed), (0, .news (.frame 0)), (0, .ticked ⟨0⟩ 0), (0, .frame 0),
          (0, .news (.frame 1)), (0, .ticked ⟨0⟩ 21845), (0, .frame 1),
          (0, .news (.frame 2)), (0, .ticked ⟨0⟩ 43690), (0, .frame 2),
          (0, .news .completed), (0, .news (.frame 0)), (0, .ticked ⟨0⟩ 0), (0, .frame 0)] := by
  have repeated : (reversed.stage.clock ⟨0⟩).repeats = true := by decide +kernel
  have frames : (reversed.stage.clock ⟨0⟩).frames = 3 := by decide +kernel
  have gone : (reversed.stage.clock ⟨0⟩).gone = 3 := by decide +kernel
  have members : (reversed.stage.retinue ⟨0⟩).map (·.1) = [⟨0⟩] := by decide +kernel
  obtain ⟨w', asked, clock, -, bulletins, count, cues⟩ := reachable_reversed.goes_round
    (Pact.untouched (fun _ : Unit => True) ⟨0⟩).binds_silent trivial (by decide +kernel) repeated
    (by rw [frames]; decide) (by decide : 1 ≤ 5)
  have cues := cues (Pact.binds_silent _)
  rw [frames, gone] at clock bulletins count cues
  rw [members] at cues
  refine ⟨repeated, frames, gone, w', asked, ?_, ?_, ?_, ?_⟩
  · rw [clock]
    decide +kernel
  · rw [bulletins]
    decide +kernel
  · rw [count]
    decide +kernel
  · rw [cues]
    decide +kernel

end Animation
