/-
# Frame by frame

A timeline that does not repeat and is asked for frames plays those that are left of its run, one
after another and each of them once. The answers tell when the last one has been played, the end of
the run is announced right after it, and from then on to ask changes nothing. So whoever goes on
asking for as long as there is a next frame is done.

That is so whatever callbacks do, as long as they leave the clock and the emitter of the timeline
alone. If they leave its followers alone as well then it is known what these are ticked with.
-/

import Animation.Proofs.Playback.Resuming

namespace Animation

open Pact

/-- The same for each of so many numbers. -/
theorem map_range_eq_replicate {α : Type} {f : Nat → α} {a : α} {n : Nat}
    (same : ∀ i < n, f i = a) : (List.range n).map f = List.replicate n a := by
  have all := List.map_eq_replicate_iff.2 fun i mem => same i (List.mem_range.1 mem)
  rwa [List.length_range] at all

namespace Clock

variable {c c' played : Clock} {frames : List Clock} {j : Nat}

/-- The frames that are played in a row, from one clock to another. -/
inductive PlaysOn : Clock → List Clock → Clock → Prop
  | done {c : Clock} : PlaysOn c [] c
  | frame {c played c' : Clock} {frames : List Clock} (going : c.isOver = false)
      (step : c.step = .ok played) (rest : PlaysOn (clockAfter played) frames c') :
      PlaysOn c (played :: frames) c'

/-- The next frames of a run that is not repeated. -/
def ahead (c : Clock) (j : Nat) : List Clock := (List.range j).map fun i => c.further (i + 1)

theorem ahead_succ (c : Clock) (j : Nat) :
    c.ahead (j + 1) = c.further 1 :: (c.further 1).ahead j := by
  rw [ahead, List.range_succ_eq_map, List.map_cons, List.map_map, ahead]
  congr 2
  funext i
  rw [further_further, Nat.add_comm 1]
  rfl

theorem length_ahead (c : Clock) (j : Nat) : (c.ahead j).length = j := by simp [ahead]

theorem cuesOf_eq (c : Clock) (curves : Curves) (followers : List (Ref .behaviour × Easing))
    (j : Nat) :
    c.cuesOf curves followers j = (c.ahead j).flatMap (·.cues curves followers) := by
  rw [ahead, List.flatMap_map]
  rfl

theorem playsOn_ahead (single : c.repeats = false) (le : j ≤ c.remaining) :
    c.PlaysOn (c.ahead j) (c.further j) := by
  induction j generalizing c with
  | zero =>
      rw [further_zero]
      exact .done
  | succ j ih =>
      have single' : (c.further 1).repeats = false :=
        (c.sameSettings_further 1).repeats.trans single
      have after : clockAfter (c.further 1) = c.further 1 := by
        rw [clockAfter, single', Bool.and_false, if_neg Bool.false_ne_true]
      have rest := ih (c := c.further 1) single' (by rw [remaining_further]; omega)
      rw [further_further, Nat.add_comm 1] at rest
      rw [ahead_succ]
      refine .frame (isOver_of_remaining (by omega)) (step_of_remaining (by omega)) ?_
      rw [after]
      exact rest

/-- After each of the frames that are left there is another one, apart from the last, and then there
is none. -/
theorem answers_ahead (single : c.repeats = false) (k : Nat) :
    (c.ahead (min k c.remaining)).map (fun played => !played.isComplete || played.repeats) ++
        List.replicate (k - min k c.remaining) false =
      (List.range k).map fun i => decide (i + 1 < c.remaining) := by
  let j := min k c.remaining
  have whole : k = j + (k - j) := by omega
  have first : ∀ i ∈ List.range j, ((!(c.further (i + 1)).isComplete ||
      (c.further (i + 1)).repeats) = decide (i + 1 < c.remaining)) := by
    intro i _
    rw [isComplete_further, (c.sameSettings_further (i + 1)).repeats, single, Bool.or_false,
      ← decide_not]
    exact decide_eq_decide.2 Nat.not_le
  have others : (List.range (k - j)).map (fun i => decide (j + i + 1 < c.remaining)) =
      List.replicate (k - j) false :=
    map_range_eq_replicate fun i lt => decide_eq_false (by omega)
  show _ ++ List.replicate (k - j) false = _
  conv => rhs; rw [whole, List.range_add, List.map_append, List.map_map]
  rw [ahead, List.map_map]
  exact congr (congrArg _ (List.map_congr_left first)) others.symm

/-- The first answer that there is none is the one after the last frame, or the first of all. -/
theorem answers_to_end (m : Nat) :
    (List.range (m - 1 + 1)).map (fun i => decide (i + 1 < m)) =
      List.replicate (m - 1) true ++ [false] := by
  have before : (List.range (m - 1)).map (fun i => decide (i + 1 < m)) =
      List.replicate (m - 1) true :=
    map_range_eq_replicate fun i lt => decide_eq_true (by omega)
  rw [List.range_succ, List.map_append, before, List.map_singleton,
    decide_eq_false (by omega : ¬ m - 1 + 1 < m)]

/-- Each of them is announced, and after the last one the end of the run. -/
theorem news_ahead (le : j ≤ c.remaining) :
    (c.ahead j).flatMap Clock.news = (List.range j).flatMap fun i =>
      .frame (c.further (i + 1)).frame :: if i + 1 = c.remaining then [.completed] else [] := by
  rw [ahead, List.flatMap_map]
  refine List.flatMap_congr fun i mem => news_eq ?_
  have lt := List.mem_range.1 mem
  rw [isComplete_further]
  exact decide_eq_decide.2 (by omega)

end Clock

namespace Script

variable {υ : Type} {host : Host υ} {t : Ref .timeline} {w w' : World υ}

/-- Ask for so many frames, whether there is a next one or not. The answers are whether there was
another one after each. -/
def askFrames (host : Host υ) (t : Ref .timeline) : Nat → Script υ (List Bool)
  | 0 => return []
  | k + 1 => do
      let answer ← nextFrame host t
      return answer :: (← askFrames host t k)

/-- One frame is asked for first, and then the others. -/
theorem run_askFrames_succ {k : Nat} {answer : Bool} {others : List Bool} {w₁ : World υ}
    (next : (nextFrame host t).run w = (.ok answer, w₁))
    (rest : (askFrames host t k).run w₁ = (.ok others, w')) :
    (askFrames host t (k + 1)).run w = (.ok (answer :: others), w') := by
  unfold askFrames
  rw [run_bind_of_ok next, run_bind_of_ok rest]
  rfl

theorem exists_of_run_askFrames_succ {k : Nat} {answers : List Bool}
    (asked : (askFrames host t (k + 1)).run w = (.ok answers, w')) :
    ∃ answer others w₁, (nextFrame host t).run w = (.ok answer, w₁) ∧
      (askFrames host t k).run w₁ = (.ok others, w') ∧ answers = answer :: others := by
  unfold askFrames at asked
  obtain ⟨answer, w₁, next, rest⟩ := exists_of_run_bind_eq_ok asked
  obtain ⟨others, w₂, asked', last⟩ := exists_of_run_bind_eq_ok rest
  cases last
  exact ⟨answer, others, w₁, next, asked', rfl⟩

/-- To ask for more frames is to ask on. -/
theorem run_askFrames_add {j k : Nat} {answers answers' : List Bool} {w'' : World υ}
    (asked : (askFrames host t j).run w = (.ok answers, w'))
    (asked' : (askFrames host t k).run w' = (.ok answers', w'')) :
    (askFrames host t (j + k)).run w = (.ok (answers ++ answers'), w'') := by
  induction j generalizing w answers with
  | zero =>
      cases asked
      rw [Nat.zero_add]
      exact asked'
  | succ j ih =>
      obtain ⟨answer, others, w₁, next, rest, rfl⟩ := exists_of_run_askFrames_succ asked
      rw [Nat.add_right_comm]
      exact run_askFrames_succ next (ih rest)

/-- To ask for frames once the run is over changes nothing. -/
theorem run_askFrames_of_isOver (done : (w.stage.clock t).isOver = true) (k : Nat) :
    (askFrames host t k).run w = (.ok (List.replicate k false), w) := by
  induction k with
  | zero => rfl
  | succ k ih => exact run_askFrames_succ (run_nextFrame_of_isOver done) ih

/-- Whoever goes on asking for as long as there is a next frame asks until the first answer that
there is none. -/
theorem run_playFrames_of_asked {k most : Nat} (enough : k < most)
    (asked : (askFrames host t (k + 1)).run w = (.ok (List.replicate k true ++ [false]), w'))
    (count : Nat) : (playFrames host t most count).run w = (.ok (count + (k + 1)), w') := by
  induction most generalizing w k count with
  | zero => exact absurd enough (Nat.not_lt_zero k)
  | succ most ih =>
      obtain ⟨answer, others, w₁, next, rest, answers⟩ := exists_of_run_askFrames_succ asked
      unfold playFrames
      rw [run_bind_of_ok next]
      cases k with
      | zero =>
          cases answers
          cases rest
          rfl
      | succ k =>
          cases answers
          have more := ih (Nat.lt_of_succ_lt_succ enough) rest (count + 1)
          rw [Nat.add_assoc, Nat.add_comm 1] at more
          exact more

end Script

namespace Pact

open Script

variable {υ : Type} {calm : υ → Prop} {t : Ref .timeline} {host : Host υ} {w w' : World υ}
  {frames : List Clock} {clock : Clock}

/-- Frames are played one after another on the way from one world to another. For each of them the
clock is set, then the attached behaviours are ticked, and the timeline announces nothing before all
that is done. Then it announces the frame and, if that ends a run, the end of the run. -/
inductive FrameByFrame (host : Host υ) (t : Ref .timeline) : List Clock → World υ → World υ → Prop
  | none {w : World υ} : FrameByFrame host t [] w w
  | frame {played : Clock} {frames : List Clock} {w v w₁ w' : World υ} {isNext : Bool}
      (ticks : (tickAttached host t).run
          { w with
            stage := (w.stage.setClock t played).note (.moved t played.frame played.frames) } =
        (.ok (), v))
      (stands : v.stage.clock t = played) (silent : v.stage.bulletins t = w.stage.bulletins t)
      (news : (concludeFrame host t played).run v = (.ok isNext, w₁))
      (told : w₁.stage.bulletins t = v.stage.bulletins t ++ played.news)
      (rest : FrameByFrame host t frames w₁ w') : FrameByFrame host t (played :: frames) w w'

namespace Binds

/-- Frames in a row are played one after another if they are asked for. -/
theorem run_askFrames (hh : (untouched calm t).Binds host) (attends : Attends calm t w)
    (row : (w.stage.clock t).PlaysOn frames clock) :
    ∃ w', (askFrames host t frames.length).run w =
        (.ok (frames.map fun played => !played.isComplete || played.repeats), w') ∧
      Turned calm t w w' clock (frames.flatMap Clock.news) ∧ FrameByFrame host t frames w w' := by
  generalize start : w.stage.clock t = c at row
  induction row generalizing w with
  | done => exact ⟨w, rfl, ⟨attends, start, (List.append_nil _).symm⟩, .none⟩
  | @frame _ played _ _ going step _ ih =>
      rw [← start] at going step
      obtain ⟨v, ticks, ticked⟩ := hh.run_ticks attends played
      obtain ⟨w₁, news, told⟩ := hh.run_news ticked.attends ticked.clock
      obtain ⟨w', asked, turned, others⟩ := ih told.attends told.clock
      have next : (nextFrame host t).run w = _ :=
        (run_nextFrame_of_step going step).trans ((run_bind_of_ok ticks _).trans news)
      refine ⟨w', run_askFrames_succ next asked, (ticked.trans told).trans turned, ?_⟩
      exact .frame ticks ticked.clock (ticked.bulletins.trans (List.append_nil _)) news
        told.bulletins others

/-- If the followers are left alone as well then each frame has all its cues. -/
theorem run_askFrames_of_aloof {followers : List (Ref .behaviour × Easing)}
    (hh : (aloof calm t (followers.map (·.1))).Binds host)
    (accompanies : Accompanies calm t followers w) (row : (w.stage.clock t).PlaysOn frames clock) :
    ∃ answers w', (askFrames host t frames.length).run w = (.ok answers, w') ∧
      Advanced calm t followers w w' clock
        (notedAt w.stage.agenda.now (frames.flatMap (·.cues host.curves followers))) := by
  generalize start : w.stage.clock t = c at row
  induction row generalizing w with
  | done => exact ⟨[], w, rfl, accompanies, start, .of_eq rfl rfl rfl rfl rfl rfl⟩
  | @frame _ played _ _ going step _ ih =>
      rw [← start] at going step
      obtain ⟨w₁, next, advanced⟩ := hh.run_step accompanies going step
      obtain ⟨answers, w', asked, more⟩ := ih advanced.accompanies advanced.clock
      rw [advanced.onward.now] at more
      refine ⟨_ :: answers, w', run_askFrames_succ next asked, ?_⟩
      rw [List.flatMap_cons, notedAt_append]
      exact advanced.trans more

/-- In a run that is not repeated the frames that are left are played, and then no more. -/
theorem run_askFrames_single (hh : (untouched calm t).Binds host) (attends : Attends calm t w)
    (single : (w.stage.clock t).repeats = false) (k : Nat) :
    let c := w.stage.clock t
    ∃ w', (askFrames host t k).run w =
        (.ok ((List.range k).map fun i => decide (i + 1 < c.remaining)), w') ∧
      (∃ answers, (askFrames host t (min k c.remaining)).run w = (.ok answers, w')) ∧
      Turned calm t w w' (c.further (min k c.remaining))
        ((c.ahead (min k c.remaining)).flatMap Clock.news) ∧
      FrameByFrame host t (c.ahead (min k c.remaining)) w w' := by
  intro c
  let j := min k c.remaining
  have within : j ≤ c.remaining := Nat.min_le_right ..
  obtain ⟨w', asked, turned, played⟩ :=
    hh.run_askFrames attends (Clock.playsOn_ahead single within)
  rw [Clock.length_ahead] at asked
  -- Either that were all, or the run is over.
  have ended : j < k → c.remaining ≤ j := fun lt => by omega
  have rest : (askFrames host t (k - j)).run w' = (.ok (List.replicate (k - j) false), w') := by
    rcases Nat.lt_or_ge j k with lt | ge
    · refine run_askFrames_of_isOver ?_ (k - j)
      rw [turned.clock, Clock.isOver, Clock.isComplete_further, decide_eq_true (ended lt),
        (c.sameSettings_further j).repeats, show c.repeats = false from single]
      rfl
    · rw [Nat.sub_eq_zero_of_le ge]
      rfl
  have whole : j + (k - j) = k := Nat.add_sub_of_le (Nat.min_le_left ..)
  have all := run_askFrames_add asked rest
  rw [whole] at all
  refine ⟨w', ?_, ⟨_, asked⟩, turned, played⟩
  rw [all, Clock.answers_ahead single]

end Binds

end Pact

/-- A timeline that does not repeat is asked for frames, while callbacks leave it alone. Let `m` be
how many frames are left of its run. The answers are that there is another one, up to the last frame
but one, and from then on that there is none. The frames that are played are the next ones up to the
last, each of them once, its ticks before its news, and the end of the run is announced once, after
the last of them. To ask for more than these changes nothing, so that who asks for as long as there
is a next frame is done, whatever the bound on how often to ask. If callbacks leave the followers
alone as well then all that is noted of the frames is known. -/
theorem Stage.Reachable.run_ends_exactly {υ : Type} {w : World υ} (reachable : w.stage.Reachable)
    {t : Ref .timeline} {calm : υ → Prop} {host : Host υ}
    (binds : (Pact.untouched calm t).Binds host) (atEase : calm w.user)
    (free : (w.stage.emitters.get (w.stage.emitterOf t)).isHeld = false)
    (single : (w.stage.clock t).repeats = false) (k : Nat) :
    let c := w.stage.clock t
    let m := c.remaining
    let members := (w.stage.retinue t).map (·.1)
    ∃ w', (Script.askFrames host t k).run w =
        (.ok ((List.range k).map fun i => decide (i + 1 < m)), w') ∧
      w'.stage.clock t = c.further (min k m) ∧
      FrameByFrame host t (c.ahead (min k m)) w w' ∧
      w'.stage.bulletins t = w.stage.bulletins t ++ (List.range (min k m)).flatMap (fun i =>
        .frame (c.further (i + 1)).frame :: if i + 1 = m then [.completed] else []) ∧
      (∃ answers, (Script.askFrames host t (min k m)).run w = (.ok answers, w')) ∧
      (∀ most, m - 1 < most → ∃ answers v, (Script.askFrames host t m).run w = (.ok answers, v) ∧
        (Script.playFrames host t most 0).run w = (.ok (m - 1 + 1), v)) ∧
      ((Pact.aloof calm t members).Binds host →
        w'.stage.cues t members = notedAt w.stage.agenda.now
          (c.cuesOf host.curves (w.stage.retinue t) (min k m)) ++ w.stage.cues t members) := by
  intro c m members
  have attends : Attends calm t w := ⟨⟨atEase, reachable.checked⟩, free⟩
  obtain ⟨w', asked, ⟨answers, same⟩, turned, played⟩ :=
    binds.run_askFrames_single attends single k
  refine ⟨w', asked, turned.clock, played, ?_, ⟨answers, same⟩, fun most enough => ?_,
    fun aloof => ?_⟩
  · rw [turned.bulletins, Clock.news_ahead (Nat.min_le_right ..)]
  · obtain ⟨v, asked, ⟨answers, same⟩, -⟩ := binds.run_askFrames_single attends single (m - 1 + 1)
    have all : m ≤ m - 1 + 1 := by omega
    rw [Nat.min_eq_right all] at same
    rw [Clock.answers_to_end] at asked
    have run := Script.run_playFrames_of_asked enough asked 0
    rw [Nat.zero_add] at run
    exact ⟨answers, v, same, run⟩
  · have accompanies : Accompanies calm t (w.stage.retinue t) w :=
      ⟨⟨atEase, reachable.checked⟩, free, reachable.tied.followed t⟩
    obtain ⟨_, v, asked, advanced⟩ := aloof.run_askFrames_of_aloof accompanies
      (Clock.playsOn_ahead single (Nat.min_le_right k m))
    rw [Clock.length_ahead, same] at asked
    cases asked
    rw [advanced.onward.cues, Clock.cuesOf_eq]

/-- The waltz is played to its end, and asked for two more frames. -/
theorem run_ends_exactly_waltz :
    (waltz.stage.clock ⟨0⟩).repeats = false ∧
      ∃ w', (Script.askFrames (.silent Unit) ⟨0⟩ 5).run waltz =
          (.ok [true, true, false, false, false], w') ∧
        w'.stage.bulletins ⟨0⟩ = [.frame 1, .frame 2, .frame 3, .completed] ∧
        w'.stage.cues ⟨0⟩ [⟨0⟩] =
          [(0, .news .completed), (0, .news (.frame 3)), (0, .ticked ⟨0⟩ 65535),
          (0, .frame 3), (0, .news (.frame 2)), (0, .ticked ⟨0⟩ 43690), (0, .frame 2),
          (0, .news (.frame 1)), (0, .ticked ⟨0⟩ 21845), (0, .frame 1)] := by
  have single : (waltz.stage.clock ⟨0⟩).repeats = false := by decide +kernel
  have left : (waltz.stage.clock ⟨0⟩).remaining = 3 := by decide +kernel
  have members : (waltz.stage.retinue ⟨0⟩).map (·.1) = [⟨0⟩] := by decide +kernel
  obtain ⟨w', asked, -, -, bulletins, -, -, cues⟩ := reachable_waltz.run_ends_exactly
    (Pact.untouched (fun _ : Unit => True) ⟨0⟩).binds_silent trivial (by decide +kernel) single 5
  have cues := cues (Pact.binds_silent _)
  rw [left] at asked bulletins cues
  rw [members] at cues
  refine ⟨single, w', asked, ?_, ?_⟩
  · rw [bulletins]
    decide +kernel
  · rw [cues]
    decide +kernel

end Animation
