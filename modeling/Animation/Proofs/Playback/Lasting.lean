/-
# How long a run lasts

A timeline that is started and then left to itself plays its frames one period apart, the first of
them a period after the start. So its run lasts for as many periods as it has frames, to the
millisecond. That need not be its duration: there are as many frames as fit the duration at the
given rate, but the period is a whole number of milliseconds, and what is cut off from it is missing
once for every frame. Only at rates that divide a second nothing is cut off.
-/

import Animation.Proofs.Playback.Resuming

namespace Animation

namespace Clock

/-- What is noted of so many frames that are played when they are due, with its time, first to
last. -/
def timedCues (c : Clock) (curves : Curves) (followers : List (Ref .behaviour × Easing))
    (start j : Nat) : List (Nat × Cue) :=
  (List.range j).flatMap fun i =>
    ((c.further (i + 1)).cues curves followers).map (start + (i + 1) * c.period, ·)

theorem timedCues_succ (c : Clock) (curves : Curves) (followers : List (Ref .behaviour × Easing))
    (start j : Nat) :
    c.timedCues curves followers start (j + 1) = c.timedCues curves followers start j ++
      ((c.further (j + 1)).cues curves followers).map (start + (j + 1) * c.period, ·) := by
  rw [timedCues, List.range_succ, List.flatMap_append, timedCues]
  congr 1
  exact List.flatMap_singleton ..

/-- The end of the run is noted with the last frame. -/
theorem completed_mem_timedCues {c : Clock} (left : 0 < c.remaining)
    {curves : Curves} {followers : List (Ref .behaviour × Easing)} {start j time : Nat}
    (le : j ≤ c.remaining) :
    (time, .news .completed) ∈ c.timedCues curves followers start j ↔
      j = c.remaining ∧ time = start + c.remaining * c.period := by
  constructor
  · intro mem
    obtain ⟨i, within, mem⟩ := List.mem_flatMap.1 mem
    obtain ⟨cue, told, same⟩ := List.mem_map.1 mem
    obtain ⟨rfl, rfl⟩ := Prod.mk.inj same
    rw [completed_mem_cues, isComplete_further, decide_eq_true_iff] at told
    have lt := List.mem_range.1 within
    have last : i + 1 = c.remaining := by omega
    exact ⟨by omega, by rw [last]⟩
  · rintro ⟨rfl, rfl⟩
    have last : c.remaining - 1 + 1 = c.remaining := Nat.sub_add_cancel left
    refine List.mem_flatMap.2 ⟨c.remaining - 1, List.mem_range.2 (by omega), ?_⟩
    rw [last]
    refine List.mem_map.2 ⟨.news .completed, ?_, rfl⟩
    rw [completed_mem_cues, isComplete_further, decide_eq_true (Nat.le_refl _)]

end Clock

namespace Reel

variable {c : Clock} {curves : Curves} {followers : List (Ref .behaviour × Easing)} {start j : Nat}

/-- The reel of a clock that was started at a time and has been left to itself since, when so many
frames have been played. -/
def unwound (c : Clock) (curves : Curves) (followers : List (Ref .behaviour × Easing))
    (start j : Nat) : Reel where
  clock := c.further j
  mode := if j < c.remaining then .playing start j else .idle
  log := (c.timedCues curves followers start j).reverse ++ [(start, .started)]

theorem mode_unwound {start' n : Nat}
    (playing : (unwound c curves followers start j).mode = .playing start' n) :
    j < c.remaining ∧ start' = start ∧ n = j := by
  unfold unwound at playing
  dsimp only at playing
  split at playing
  · next left =>
      cases playing
      exact ⟨left, rfl, rfl⟩
  · exact nomatch playing

/-- By the next frame the reel is unwound further. -/
theorem framed_unwound (c : Clock) (curves : Curves) (followers : List (Ref .behaviour × Easing))
    (start j : Nat) :
    (unwound c curves followers start j).framed curves followers start j =
      unwound c curves followers start (j + 1) := by
  have period : (c.further j).period = c.period := (c.sameSettings_further j).period
  have log : notedAt (start + (j + 1) * c.period) ((c.further (j + 1)).cues curves followers) ++
      ((c.timedCues curves followers start j).reverse ++ [(start, .started)]) =
        (c.timedCues curves followers start (j + 1)).reverse ++ [(start, .started)] := by
    rw [Clock.timedCues_succ, List.reverse_append, List.append_assoc]
    rfl
  rw [framed, unwound]
  dsimp only
  rw [Clock.further_further, Clock.isComplete_further, period, log, unwound]
  congr 1
  by_cases left : j + 1 < c.remaining
  · rw [if_pos left, decide_eq_false (Nat.not_le.2 left), if_neg Bool.false_ne_true]
  · rw [if_neg left, decide_eq_true (Nat.not_lt.1 left), if_pos rfl]

/-- A reel that unwinds is played until no frames are left. -/
theorem playable_unwound (single : c.repeats = false) :
    Playable curves followers fun r =>
      ∃ j ≤ c.remaining, r = unwound c curves followers start j where
  single := by
    rintro _ ⟨j, -, rfl⟩
    exact (c.sameSettings_further j).repeats.trans single
  left := by
    rintro _ _ _ ⟨j, -, rfl⟩ playing
    obtain ⟨left, -⟩ := mode_unwound playing
    show 0 < (c.further j).remaining
    rw [Clock.remaining_further]
    exact Nat.sub_pos_of_lt left
  framed := by
    rintro _ _ _ ⟨j, -, rfl⟩ playing
    obtain ⟨left, rfl, rfl⟩ := mode_unwound playing
    exact ⟨_, left, framed_unwound c curves followers _ _⟩

end Reel

namespace Clock

variable {c : Clock} (rate : 1 ≤ c.fps) (few : c.duration * c.fps / 1000 < 2 ^ 32)

include few in
theorem frames_of_few : c.frames = max 1 (c.duration * c.fps / 1000) := by
  rw [frames_eq]
  unfold Word.max32
  omega

include rate few

/-- What the run lacks of the duration: the part of a period that is cut off, for every frame, and
the part of a frame that is. -/
theorem drift (slow : c.fps ≤ 1000) (full : 1000 ≤ c.duration * c.fps) :
    c.frames * c.period * c.fps + (c.frames * (1000 % c.fps) + c.duration * c.fps % 1000) =
      c.duration * c.fps := by
  have frames : c.frames = c.duration * c.fps / 1000 := by
    rw [frames_of_few few]
    omega
  have period : c.period = 1000 / c.fps := Nat.max_eq_left (Nat.div_pos slow rate)
  have second : 1000 / c.fps * c.fps + 1000 % c.fps = 1000 := Nat.div_add_mod' 1000 c.fps
  calc
    _ = c.frames * (1000 / c.fps * c.fps + 1000 % c.fps) + c.duration * c.fps % 1000 := by
      rw [period]
      ring
    _ = c.duration * c.fps := by
      rw [second, frames]
      exact Nat.div_add_mod' _ 1000

/-- At a rate that divides a second a run lasts for its duration, give or take a period. -/
theorem near_of_dvd (dvd : c.fps ∣ 1000) :
    c.duration ≤ c.frames * c.period + c.period ∧
      c.frames * c.period ≤ c.duration + c.period := by
  have slow : c.fps ≤ 1000 := Nat.le_of_dvd (by decide) dvd
  have period : c.period * c.fps = 1000 := by
    rw [show c.period = 1000 / c.fps from Nat.max_eq_left (Nat.div_pos slow rate),
      Nat.div_mul_cancel dvd]
  -- A run of one frame may last longer than its duration, and any other lasts no longer.
  rcases Nat.lt_or_ge (c.duration * c.fps) 1000 with short | full
  · have frames : c.frames = 1 := by
      rw [frames_of_few few]
      omega
    have lt : c.duration < c.period := Nat.lt_of_mul_lt_mul_right (period ▸ short)
    rw [frames, Nat.one_mul]
    omega
  · have lacks := drift rate few slow full
    rw [Nat.mod_eq_zero_of_dvd dvd, Nat.mul_zero, Nat.zero_add] at lacks
    have least : c.frames * c.period * c.fps ≤ c.duration * c.fps := by omega
    have most : c.duration * c.fps < (c.frames * c.period + c.period) * c.fps := by
      rw [Nat.add_mul, period, ← lacks]
      omega
    have le := Nat.le_of_mul_le_mul_right least rate
    have lt := Nat.lt_of_mul_lt_mul_right most
    omega

end Clock

namespace Pact

open Script

variable {υ : Type}

/-! ## Left to itself -/

/-- The worlds that come of the turns of tasks, whatever these play and whatever they do that keeps
to a pact, and of the passing of time, while nobody starts or pauses a timeline. Time does not pass
as long as it is the turn of the task that plays the timeline, nor beyond the moment at which it
is. Anything else may happen that keeps to the pact. All frames are drawn with the same curves. -/
inductive Undisturbed (p : Pact υ) (curves : Curves) (t : Ref .timeline) (w : World υ) :
    World υ → Prop
  | here : Undisturbed p curves t w w
  | turn {v : World υ} {host : Host υ} {k : Ref .task} (h : Undisturbed p curves t w v)
      (binds : p.Binds host) (drawn : host.curves = curves)
      (resume : ∀ code, p.Grants fun w => ((host.resume code).run w).2)
      (added : k.index < v.stage.tasks.size) :
      Undisturbed p curves t w ((takeTurn host k).run v).2
  | time {v : World υ} {now : Nat} (h : Undisturbed p curves t w v)
      (later : v.stage.agenda.now ≤ now)
      (timely : ∀ k row, v.stage.Engages t k row → ¬ row.IsSpent → v.stage.isRunnable k = false ∧
        ∀ wake, row.phase = .sleeping wake → now ≤ wake) :
      Undisturbed p curves t w { v with stage := v.stage.setNow now }
  | aside {v v' : World υ} (h : Undisturbed p curves t w v) (follows : p.Follows v v') :
      Undisturbed p curves t w v'

variable {calm : υ → Prop} {t : Ref .timeline} {followers : List (Ref .behaviour × Easing)}
  {base : List (Nat × Cue)} {reels : Reel → Prop} {r : Reel} {w v w' : World υ} {host : Host υ}
  {k : Ref .task} {c : Clock} {curves : Curves} {start n : Nat}

/-- A timeline that is left to itself is played on. -/
theorem Undisturbed.shown (playable : Reel.Playable curves followers reels)
    (undisturbed : Undisturbed (aloof calm t (followers.map (·.1))) curves t w w')
    (h : Shown calm t followers base reels w) : Shown calm t followers base reels w' := by
  induction undisturbed with
  | here => exact h
  | turn _ binds drawn resume added ih =>
      subst drawn
      refine binds.takeTurn_shown playable ih added fun code => ?_
      obtain ⟨r, mem, shows⟩ := ih
      have follows := resume code _ shows.toKeeps
      exact ⟨⟨r, mem, shows.follow follows⟩, .onward follows.leaves.toOnward⟩
  | time _ later timely ih =>
      obtain ⟨r, mem, shows⟩ := ih
      exact ⟨r, mem, shows.setNow (shows.mode.setNow later timely)⟩
  | aside _ follows ih =>
      obtain ⟨r, mem, shows⟩ := ih
      exact ⟨r, mem, shows.follow follows⟩

/-- A task that is awake and was not aborted works when it has its turn. -/
theorem run_takeTurn_of_runnable (runnable : w.stage.isRunnable k = true)
    (unaborted : (w.stage.tasks.get k).isAborted = false) :
    (takeTurn host k).run w = (work host k (w.stage.tasks.get k)).run w := by
  simp [takeTurn, runnable, unaborted]

section Progress

variable (hh : (aloof calm t (followers.map (·.1))).Binds host)
  (resume : ∀ code,
    (aloof calm t (followers.map (·.1))).Grants fun w => ((host.resume code).run w).2)
  (undisturbed : Undisturbed (aloof calm t (followers.map (·.1))) host.curves t w v)
  (h : Shows calm t followers base r v) (mode : r.mode = .playing start n)

include hh resume undisturbed h mode

/-- The player falls asleep, if it does not sleep already. -/
theorem Undisturbed.exists_asleep :
    ∃ v' k, Undisturbed (aloof calm t (followers.map (·.1))) host.curves t w v' ∧
      Shows calm t followers base r v' ∧
      v'.stage.Engages t k ⟨.playback t (v'.stage.clock t).period,
        .sleeping (start + (n + 1) * (v'.stage.clock t).period), false⟩ := by
  have inMode := h.mode
  rw [mode] at inMode
  cases inMode with
  | @playing k phase _ _ taken engaged others due early late =>
      rcases due with ⟨rfl, rfl, now⟩ | rfl
      · have ready : Shows calm t followers base r
            ((work host k ⟨.playback t (v.stage.clock t).period, .ready, false⟩).run v).2 :=
          h.work_ready mode taken engaged others now
        obtain ⟨added, row, plays⟩ := engaged
        have runnable : v.stage.isRunnable k = true := by
          unfold Stage.isRunnable
          rw [row]
        have turn : (takeTurn host k).run v = _ :=
          run_takeTurn_of_runnable runnable (by rw [row])
        rw [row] at turn
        have slept : ((takeTurn host k).run v).2 = { v with
            stage := v.stage.sleepUntil k (v.stage.agenda.now + (v.stage.clock t).period) } := by
          rw [turn]
          simp [work, rest, row]
        rw [← turn] at ready
        refine ⟨_, k, undisturbed.turn hh rfl resume added, ready, ?_⟩
        rw [slept, ← now, Nat.zero_add, Nat.one_mul]
        refine (Stage.engages_sleepUntil added _).2 ?_
        rw [if_pos rfl, row]
        exact ⟨plays, rfl⟩
      · exact ⟨v, k, undisturbed, h, engaged⟩

/-- And then it plays the next frame when that is due. -/
theorem Undisturbed.exists_framed (single : r.clock.repeats = false)
    (left : 0 < r.clock.remaining) :
    ∃ v', Undisturbed (aloof calm t (followers.map (·.1))) host.curves t w v' ∧
      Shows calm t followers base (r.framed host.curves followers start n) v' := by
  obtain ⟨v, k, undisturbed, h, engaged⟩ := undisturbed.exists_asleep hh resume h mode
  obtain ⟨_, _, mode', -, -, others, -, late⟩ :=
    h.mode.of_unspent engaged (Task.not_isSpent_of_due (p := True) (.inr rfl))
  cases mode.symm.trans mode'
  -- The clock moves on to the moment at which the player wakes up.
  obtain ⟨v', undisturbed', h', ⟨added, row, plays⟩, now⟩ : ∃ v',
      Undisturbed (aloof calm t (followers.map (·.1))) host.curves t w v' ∧
      Shows calm t followers base r v' ∧
      v'.stage.Engages t k ⟨.playback t (v'.stage.clock t).period,
        .sleeping (start + (n + 1) * (v'.stage.clock t).period), false⟩ ∧
      v'.stage.agenda.now = start + (n + 1) * (v'.stage.clock t).period := by
    rcases Nat.eq_or_lt_of_le late with now | early
    · exact ⟨v, undisturbed, h, engaged, now⟩
    · have timely : ∀ k' row, v.stage.Engages t k' row → ¬ row.IsSpent →
          v.stage.isRunnable k' = false ∧ ∀ wake, row.phase = .sleeping wake →
            start + (n + 1) * (v.stage.clock t).period ≤ wake := by
        intro k' row engaged' unspent
        by_cases own : k' = k
        · subst own
          obtain ⟨-, asleep, -⟩ := engaged
          obtain ⟨-, rfl, -⟩ := engaged'
          rw [asleep]
          refine ⟨?_, fun wake same => by cases same; exact Nat.le_refl _⟩
          unfold Stage.isRunnable
          rw [asleep]
          simp [early]
        · exact absurd (others k' row own engaged') unspent
      exact ⟨_, undisturbed.time (Nat.le_of_lt early) timely,
        h.setNow (h.mode.setNow (Nat.le_of_lt early) timely), engaged, rfl⟩
  have runnable : v'.stage.isRunnable k = true := by
    unfold Stage.isRunnable
    rw [row]
    simp [now]
  refine ⟨_, undisturbed'.turn hh rfl resume added, ?_⟩
  rw [run_takeTurn_of_runnable runnable (by rw [row]), row]
  exact hh.work_asleep h' single left mode ⟨added, row, plays⟩ now

end Progress

/-- So it can be played until no frames are left. -/
theorem exists_unwound (hh : (aloof calm t (followers.map (·.1))).Binds host)
    (resume : ∀ code,
      (aloof calm t (followers.map (·.1))).Grants fun w => ((host.resume code).run w).2)
    (single : c.repeats = false)
    (h : Shows calm t followers base (.unwound c host.curves followers start 0) w)
    {j : Nat} (le : j ≤ c.remaining) :
    ∃ v, Undisturbed (aloof calm t (followers.map (·.1))) host.curves t w v ∧
      Shows calm t followers base (.unwound c host.curves followers start j) v := by
  induction j with
  | zero => exact ⟨w, .here, h⟩
  | succ j ih =>
      obtain ⟨v, undisturbed, shows⟩ := ih (Nat.le_of_succ_le le)
      have playable : Reel.Playable host.curves followers fun r =>
          ∃ i ≤ c.remaining, r = .unwound c host.curves followers start i :=
        Reel.playable_unwound single
      have mode : (Reel.unwound c host.curves followers start j).mode = .playing start j :=
        if_pos le
      have mem : ∃ i ≤ c.remaining,
          Reel.unwound c host.curves followers start j = .unwound c host.curves followers start i :=
        ⟨j, Nat.le_of_succ_le le, rfl⟩
      obtain ⟨v', undisturbed', shows'⟩ := undisturbed.exists_framed hh resume shows mode
        (playable.single mem) (playable.left mem mode)
      exact ⟨v', undisturbed', Reel.framed_unwound c host.curves followers start j ▸ shows'⟩

end Pact

/-- A timeline that does not repeat is on its first frame and is not being played. It is started on
the virtual clock, and then it and its followers are left alone. It plays its frames one period
apart, the first of them a period after the start, so that its run ends just as many periods after
the start as it has frames, and it does come to that end. This is not to say that its run lasts for
its duration. At rates up to a thousand a second it lacks what is cut off from the period, once for
every frame, and the part of a frame by which the frames fall short of the duration; at higher rates
the period is a millisecond all the same. But at a rate that divides a second it lasts for its
duration, give or take a period. -/
theorem Stage.Reachable.lasts_whole_periods {υ : Type} {w : World υ} (reachable : w.stage.Reachable)
    {t : Ref .timeline} {calm : υ → Prop} {host : Host υ}
    (binds : (Pact.aloof calm t ((w.stage.retinue t).map (·.1))).Binds host)
    (resume : ∀ code, (Pact.aloof calm t ((w.stage.retinue t).map (·.1))).Grants fun w =>
      ((host.resume code).run w).2)
    (atEase : calm w.user) (free : (w.stage.emitters.get (w.stage.emitterOf t)).isHeld = false)
    (channel : w.stage.agenda.channel.isSome = true) (single : (w.stage.clock t).repeats = false)
    (rests : w.stage.InMode t .idle)
    (fresh : (w.stage.clock t).remaining = (w.stage.clock t).frames)
    (few : (w.stage.clock t).duration * (w.stage.clock t).fps / 1000 < 2 ^ 32) :
    let c := w.stage.clock t
    let start := w.stage.agenda.now
    let members := (w.stage.retinue t).map (·.1)
    let noted (j : Nat) := (c.timedCues host.curves (w.stage.retinue t) start j).reverse ++
      [(start, .started)] ++ w.stage.cues t members
    ∃ w₁, (Script.start host t).run w = (.ok (.ok ()), w₁) ∧
      (∀ w', (Pact.aloof calm t members).Undisturbed host.curves t w₁ w' → ∃ j ≤ c.frames,
        w'.stage.clock t = c.further j ∧ w'.stage.cues t members = noted j ∧
        (j < c.frames → start + j * c.period ≤ w'.stage.agenda.now ∧
          w'.stage.agenda.now ≤ start + (j + 1) * c.period)) ∧
      (∃ w', (Pact.aloof calm t members).Undisturbed host.curves t w₁ w' ∧
        w'.stage.cues t members = noted c.frames) ∧
      (∀ j ≤ c.frames, ∀ time,
        (time, .news .completed) ∈ c.timedCues host.curves (w.stage.retinue t) start j ↔
        j = c.frames ∧ time = start + c.frames * c.period) ∧
      (c.fps ≤ 1000 → 1000 ≤ c.duration * c.fps → c.frames * c.period * c.fps +
        (c.frames * (1000 % c.fps) + c.duration * c.fps % 1000) = c.duration * c.fps) ∧
      (1000 ≤ c.fps → c.period = 1) ∧
      (c.fps ∣ 1000 → c.duration ≤ c.frames * c.period + c.period ∧
        c.frames * c.period ≤ c.duration + c.period) := by
  intro c start members noted
  have rate : 1 ≤ c.fps := (reachable.sound t).fps_pos
  have left : 0 < c.remaining := fresh ▸ c.frames_pos
  have opening : Pact.Shows calm t (w.stage.retinue t) (w.stage.cues t members) ⟨c, .idle, []⟩ w :=
    ⟨⟨⟨atEase, reachable.checked⟩, free, reachable.tied.followed t⟩, channel, rfl, rfl, rests⟩
  obtain ⟨w₁, run, started, -⟩ := binds.run_start_idle opening rfl
  have wound : Pact.Shows calm t (w.stage.retinue t) (w.stage.cues t members)
      (.unwound c host.curves (w.stage.retinue t) start 0) w₁ := by
    have goes : c.isComplete = false := by
      rw [Clock.isComplete_eq, decide_eq_false (Nat.ne_of_gt left)]
    rw [Reel.unwound, Clock.further_zero, if_pos left]
    rw [Clock.setOut, goes] at started
    exact started
  refine ⟨w₁, run, fun w' undisturbed => ?_, ?_, fun j le time => ?_, Clock.drift rate few,
    fun fast => ?_, Clock.near_of_dvd rate few⟩
  · obtain ⟨_, ⟨j, le, rfl⟩, shows⟩ := undisturbed.shown
      (Reel.playable_unwound single) ⟨_, ⟨0, Nat.zero_le _, rfl⟩, wound⟩
    refine ⟨j, fresh ▸ le, shows.clock, shows.log, fun before => ?_⟩
    have mode : (Reel.unwound c host.curves (w.stage.retinue t) start j).mode = .playing start j :=
      if_pos (fresh ▸ before)
    have inMode := shows.mode
    rw [mode] at inMode
    have period : (w'.stage.clock t).period = c.period := by
      rw [shows.clock]
      exact (c.sameSettings_further j).period
    cases inMode with
    | playing _ _ _ _ early late => exact ⟨period ▸ early, period ▸ late⟩
  · obtain ⟨w', undisturbed, shows⟩ :=
      Pact.exists_unwound binds resume single wound (Nat.le_refl c.remaining)
    exact ⟨w', undisturbed, by rw [shows.log, ← fresh]; rfl⟩
  · rw [← show c.remaining = c.frames from fresh] at le ⊢
    exact Clock.completed_mem_timedCues left le
  · exact Nat.max_eq_right (Nat.div_le_of_le_mul (by omega))

/-- The waltz is over two milliseconds before its time. -/
theorem lasts_whole_periods_waltz :
    (waltz.stage.clock ⟨0⟩).duration = 50 ∧
      ∃ w₁ w', (Script.start (.silent Unit) ⟨0⟩).run waltz = (.ok (.ok ()), w₁) ∧
        (Pact.aloof (fun _ => True) ⟨0⟩ [⟨0⟩]).Undisturbed Easing.drawn ⟨0⟩ w₁ w' ∧
        w'.stage.cues ⟨0⟩ [⟨0⟩] =
          [(48, .news .completed), (48, .news (.frame 3)), (48, .ticked ⟨0⟩ 65535),
          (48, .frame 3), (32, .news (.frame 2)), (32, .ticked ⟨0⟩ 43690), (32, .frame 2),
          (16, .news (.frame 1)), (16, .ticked ⟨0⟩ 21845), (16, .frame 1), (0, .started)] := by
  have members : (waltz.stage.retinue ⟨0⟩).map (·.1) = [⟨0⟩] := by decide +kernel
  obtain ⟨w₁, run, -, ⟨w', undisturbed, cues⟩, -⟩ := reachable_waltz.lasts_whole_periods
    (Pact.aloof (fun _ : Unit => True) ⟨0⟩ _).binds_silent (fun _ _ keeps => .refl keeps) trivial
    (by decide +kernel) (by decide +kernel) (by decide +kernel) rests_waltz (by decide +kernel)
    (by decide +kernel)
  rw [members] at undisturbed cues
  refine ⟨by decide +kernel, w₁, w', run, undisturbed, ?_⟩
  rw [cues]
  decide +kernel

/-- Half a second at the usual rate of sixty frames a second. -/
def brief : World Unit :=
  ((Script.owning [] (Script.produce (·.addTimeline 500))).run ⟨.empty true, ()⟩).2

theorem reachable_brief : brief.stage.Reachable := by
  unfold brief
  exact Arises.reachable (@Arises.course _ (fun _ => []) _ _ _ (.opening true rfl)
    (.offered (.addTimeline 500)))

/-- It is started, and nothing else is done until it should be over. -/
def whiled : World Unit :=
  ((do
    let _ ← Script.start (.silent Unit) ⟨0⟩
    Script.settle (.silent Unit) 1
    Script.wait (.silent Unit) 1 500 : Script Unit Unit).run brief).2

/-- The last of the thirty frames was played twenty milliseconds before its time, which is more than
a period. -/
theorem over_before_its_time :
    brief.stage.Reachable ∧ brief.stage.clock ⟨0⟩ = .ofDuration 500 ∧
      brief.stage.agenda.channel.isSome = true ∧ brief.stage.agenda.now = 0 ∧
      whiled.stage.agenda.now = 500 ∧ (whiled.stage.clock ⟨0⟩).frame = 30 ∧
      (480, .frame 30) ∈ whiled.stage.cues ⟨0⟩ [] ∧ 480 + (1000 + 60 - 1) / 60 < 500 :=
  ⟨reachable_brief, by decide +kernel, by decide +kernel, by decide +kernel, by decide +kernel,
    by decide +kernel, by decide +kernel, by decide⟩

end Animation
