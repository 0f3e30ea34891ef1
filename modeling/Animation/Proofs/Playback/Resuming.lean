/-
# To pause loses no frame

A timeline that is started, paused and started again, at whatever times, plays the frames that it
would have played at one go: none is left out and none is played twice, and the end of the run is
announced once, after the last of them. As long as nobody pauses, frames are played when they are
due.

For this the timeline is shown as a reel. Whatever is done with it while it and its followers are
otherwise left alone is a step of the reel, or none.
-/

import Animation.Proofs.Playback.Engaging

namespace Animation

namespace Script

variable {υ : Type} (host : Host υ) (t : Ref .timeline)

/-- Play the frames of a run by hand, from the start if it is over, until there is no next one, but
at most so many. The answer is how many times a frame was asked for. -/
def playOut (most : Nat) : Script υ Nat := do
  if ((← stage).clock t).isComplete then change (·.rewind t)
  playFrames host t most 0

end Script

namespace Pact

open Script

variable {υ : Type}

/-- A timeline is started and paused, in any order, and whatever else is done keeps to a pact. -/
inductive Directs (p : Pact υ) (t : Ref .timeline) : {α : Type} → Script υ α → Prop
  | start {host : Host υ} (binds : p.Binds host) : Directs p t (start host t)
  | pause {host : Host υ} (binds : p.Binds host) : Directs p t (pause host t)
  | aside {α : Type} {x : Script υ α} (h : p.Grants fun w => (x.run w).2) : Directs p t x
  | bind {α β : Type} {x : Script υ α} {f : α → Script υ β} (hx : Directs p t x)
      (hf : ∀ a, Directs p t (f a)) : Directs p t (x >>= f)

/-- The worlds that come of starting and pausing a timeline, by hand and in the routines of tasks,
of the turns of tasks, whatever they play, and of the passing of time. Time does not pass as long
as it is the turn of a task that plays the timeline, nor beyond the moment at which it is. Anything
else may happen that keeps to a pact. All frames are drawn with the same curves. -/
inductive Scheduled (p : Pact υ) (curves : Curves) (t : Ref .timeline) (w : World υ) :
    World υ → Prop
  | here : Scheduled p curves t w w
  | course {v : World υ} {α : Type} {x : Script υ α} (h : Scheduled p curves t w v)
      (directs : Directs p t x) : Scheduled p curves t w (x.run v).2
  | turn {v : World υ} {host : Host υ} {k : Ref .task} (h : Scheduled p curves t w v)
      (binds : p.Binds host) (drawn : host.curves = curves)
      (resume : ∀ code, Directs p t (host.resume code))
      (added : k.index < v.stage.tasks.size) : Scheduled p curves t w ((takeTurn host k).run v).2
  | time {v : World υ} {now : Nat} (h : Scheduled p curves t w v)
      (later : v.stage.agenda.now ≤ now)
      (timely : ∀ k row, v.stage.Engages t k row → v.stage.isRunnable k = false ∧
        ∀ wake, row.phase = .sleeping wake → now ≤ wake) :
      Scheduled p curves t w { v with stage := v.stage.setNow now }
  | aside {v v' : World υ} (h : Scheduled p curves t w v) (follows : p.Follows v v') :
      Scheduled p curves t w v'

/-! ## A timeline as a reel -/

variable {calm : υ → Prop} {t : Ref .timeline} {followers : List (Ref .behaviour × Easing)}
  {base new : List (Nat × Cue)} {r : Reel} {w w' : World υ} {host : Host υ} {clock : Clock}

/-- A reel shows a timeline and what has been noted of it since. -/
structure Shows (calm : υ → Prop) (t : Ref .timeline) (followers : List (Ref .behaviour × Easing))
    (base : List (Nat × Cue)) (r : Reel) (w : World υ) : Prop
    extends Accompanies calm t followers w where
  channel : w.stage.agenda.channel.isSome = true
  clock : w.stage.clock t = r.clock
  log : w.stage.cues t (followers.map (·.1)) = r.log ++ base
  mode : w.stage.InMode t r.mode

namespace Shows

variable (h : Shows calm t followers base r w)

include h

theorem advance (advanced : Advanced calm t followers w w' clock new)
    (period : clock.period = r.clock.period) :
    Shows calm t followers base { r with clock, log := new ++ r.log } w' where
  toAccompanies := advanced.accompanies
  channel := advanced.onward.channel.trans h.channel
  clock := advanced.clock
  log := by rw [advanced.onward.cues, h.log, List.append_assoc]
  mode := h.mode.congr advanced.onward.playback advanced.onward.engages advanced.onward.now
    (by rw [advanced.clock, h.clock, period])

theorem cued (advanced : Advanced calm t followers w w' (w.stage.clock t) new) :
    Shows calm t followers base { r with log := new ++ r.log } w' := by
  rw [h.clock] at advanced
  exact h.advance advanced rfl

theorem follow (follows : (aloof calm t (followers.map (·.1))).Follows w w') :
    Shows calm t followers base r w' :=
  h.cued (h.toAccompanies.follow follows)

/-- Tasks change, and with them the mode. -/
theorem retask {s : Stage} (retasked : w.stage.Retasked s) {mode : Mode} (mode' : s.InMode t mode) :
    Shows calm t followers base { r with mode } { w with stage := s } := by
  obtain ⟨clock, emitter, cues⟩ := retasked.readings t (followers.map (·.1))
  refine ⟨⟨⟨h.calm, fun b => ?_⟩, ?_, retasked.followed h.followed⟩,
    retasked.channel.trans h.channel, clock.trans h.clock, cues.trans h.log, mode'⟩
  · rw [retasked.behaviours]
    exact h.checked b
  · rw [retasked.emitters, emitter]
    exact h.free

/-- Only time passes. -/
theorem setNow {now : Nat} (mode : (w.stage.setNow now).InMode t r.mode) :
    Shows calm t followers base r { w with stage := w.stage.setNow now } where
  calm := h.calm
  checked := h.checked
  free := h.free
  followed := ⟨h.followed.entries, h.followed.role, h.followed.ids_nodup, h.followed.faithful⟩
  channel := h.channel
  clock := h.clock
  log := h.log
  mode := mode

end Shows

/-- So far a timeline has been played as one of some reels. -/
def Shown (calm : υ → Prop) (t : Ref .timeline) (followers : List (Ref .behaviour × Easing))
    (base : List (Nat × Cue)) (reels : Reel → Prop) (w : World υ) : Prop :=
  ∃ r, reels r ∧ Shows calm t followers base r w

/-- It is played on so, and tasks play it or not as they did. -/
structure ShownOn (calm : υ → Prop) (t : Ref .timeline)
    (followers : List (Ref .behaviour × Easing)) (base : List (Nat × Cue)) (reels : Reel → Prop)
    (w w' : World υ) : Prop where
  shown : Shown calm t followers base reels w'
  enduring : w.stage.Enduring t w'.stage

/-- So far a timeline has been played as a reel that began with a given clock, and tasks play it or
not as they did. -/
structure Conforms (calm : υ → Prop) (t : Ref .timeline) (curves : Curves)
    (followers : List (Ref .behaviour × Easing)) (base : List (Nat × Cue)) (c : Clock)
    (w : World υ) : Prop where
  reel : ∃ r, Reel.Runs c curves followers r ∧ Shows calm t followers base r w

/-- It is played on so. -/
structure Continues (calm : υ → Prop) (t : Ref .timeline) (curves : Curves)
    (followers : List (Ref .behaviour × Easing)) (base : List (Nat × Cue)) (c : Clock)
    (w w' : World υ) : Prop where
  conforms : Conforms calm t curves followers base c w'
  enduring : w.stage.Enduring t w'.stage

variable {c : Clock} {curves : Curves} (hh : (aloof calm t (followers.map (·.1))).Binds host)

theorem Continues.trans {w'' : World υ} (h : Continues calm t curves followers base c w w')
    (h' : Continues calm t curves followers base c w' w'') :
    Continues calm t curves followers base c w w'' :=
  ⟨h'.conforms, h.enduring.trans h'.enduring⟩

namespace Binds

include hh

/-- An event that is neither a frame nor the end of a run is announced. -/
theorem run_tell (h : Accompanies calm t followers w) (event : TimelineEvent)
    (other : event ≠ .completed) :
    ∃ w', (announce host t event (.timeline t)).run w = (.ok (), w') ∧
      Advanced calm t followers w w' (w.stage.clock t) [] := by
  obtain ⟨w', run, keeps, announces⟩ := hh.run_announce event (.timeline t) h.toKeeps h.free
  have silent : (Occurrence.emitted (w.stage.emitterOf t) event.name (.timeline t)).cue? t
      (w.stage.emitterOf t) (followers.map (·.1)) = none := by
    cases event <;> simp_all [Occurrence.cue?, Occurrence.bulletin?, TimelineEvent.name]
  have noted := h.note (.emitted (w.stage.emitterOf t) event.name (.timeline t))
  rw [silent] at noted
  exact ⟨w', run, noted.trans (noted.accompanies.follow ⟨keeps, announces⟩)⟩

/-- A timeline that is not played is launched: its start is noted, and a task is taken to play
it. -/
theorem run_launch (h : Shows calm t followers base r w) (idle : r.mode = .idle) :
    ∃ w', (launch host t).run w = (.ok (.ok ()), w') ∧
      Shows calm t followers base
        ⟨r.clock, .playing w.stage.agenda.now 0, (w.stage.agenda.now, .started) :: r.log⟩ w' ∧
      w.stage.Enduring t w'.stage := by
  have noted := h.toAccompanies.note (.started t (w.stage.clock t).frames (w.stage.clock t).period)
  rw [Occurrence.cue?, if_pos rfl] at noted
  obtain ⟨w₂, run, told⟩ := hh.run_tell noted.accompanies .started (by decide)
  have advanced := noted.trans told
  have shows := h.cued advanced
  have mode := shows.mode
  rw [show _ = Mode.idle from idle] at mode
  obtain ⟨k, spawned, launched⟩ := mode.launch shows.channel
  rw [show w₂.stage.clock t = w.stage.clock t from advanced.clock] at spawned launched
  have retasked := (Stage.Retasked.spawn w₂.stage (.playback t (w.stage.clock t).period)).trans
    (.setPlayback _ t (some k))
  refine ⟨_, ?_, advanced.onward.now ▸ shows.retask retasked launched, ?_⟩
  · simp [launch, run_bind_of_ok run, spawned]
  · have taken : Stage.Enduring t (w₂.stage.spawn (.playback t (w.stage.clock t).period)).1
        ((w₂.stage.spawn (.playback t (w.stage.clock t).period)).1.setPlayback t (some k)) :=
      .of_tasks_eq rfl
    exact (Stage.Enduring.onward advanced.onward).trans ((Stage.Enduring.spawn _ t _).trans taken)

/-- A timeline that is not played is started, from the start of its run if that is over. -/
theorem run_start_idle (h : Shows calm t followers base r w) (idle : r.mode = .idle) :
    ∃ w', (start host t).run w = (.ok (.ok ()), w') ∧
      Shows calm t followers base ⟨r.clock.setOut, .playing w.stage.agenda.now 0,
        (w.stage.agenda.now, .started) :: r.log⟩ w' ∧
      w.stage.Enduring t w'.stage := by
  have inMode := h.mode
  rw [idle] at inMode
  unfold start
  rw [run_stage_bind, inMode.isPlaying_of_idle, if_neg Bool.false_ne_true, run_stage_bind,
    Clock.setOut, ← h.clock]
  split
  · have set := h.setClock (w.stage.clock t).rewind
    have rewound := h.advance set
      (by rw [h.clock]; exact (Clock.sameSettings_rewind _).period)
    obtain ⟨w', run, shows, enduring⟩ := hh.run_launch rewound idle
    exact ⟨w', run, shows, (Stage.Enduring.onward set.onward).trans enduring⟩
  · obtain ⟨w', run, shows, enduring⟩ := hh.run_launch h idle
    exact ⟨w', run, h.clock ▸ shows, enduring⟩

/-- To start a timeline is a step of the reel, unless it is being played. Then it is played. -/
theorem run_start (h : Conforms calm t curves followers base c w) :
    ∃ w', (start host t).run w = (.ok (.ok ()), w') ∧ w'.stage.isPlaying t = true ∧
      Continues calm t curves followers base c w w' := by
  obtain ⟨r, runs, shows⟩ := h
  cases mode : r.mode with
  | playing begun n =>
      have inMode := shows.mode
      rw [mode] at inMode
      unfold start
      rw [run_stage_bind, inMode.isPlaying_of_playing]
      exact ⟨w, rfl, inMode.isPlaying_of_playing, ⟨r, runs, shows⟩, .of_tasks_eq rfl⟩
  | idle =>
      obtain ⟨w', run, started, enduring⟩ := hh.run_start_idle shows mode
      exact ⟨w', run, started.mode.isPlaying_of_playing, ⟨_, runs.step (.start mode), started⟩,
        enduring⟩

/-- To pause a timeline is a step of the reel. Then it is not played. -/
theorem run_halt (h : Conforms calm t curves followers base c w) :
    ∃ w', (pause host t).run w = (.ok (), w') ∧ w'.stage.isPlaying t = false ∧
      Continues calm t curves followers base c w w' := by
  obtain ⟨r, runs, shows⟩ := h
  have paused : Reel.Runs c curves followers { r with mode := .idle } :=
    runs.step (@Reel.Step.pause curves followers w.stage.agenda.now r)
  have halted := shows.retask (.cancelPlayback w.stage t) shows.mode.halt
  have enduring : w.stage.Enduring t (w.stage.cancelPlayback t) := .cancelPlayback w.stage t
  unfold pause
  rw [run_stage_bind, run_change_bind]
  cases w.stage.isPlaying t with
  | false => exact ⟨_, rfl, halted.mode.isPlaying_of_idle, ⟨_, paused, halted⟩, enduring⟩
  | true =>
      have noted := halted.toAccompanies.note (.paused t ((w.stage.cancelPlayback t).clock t).frame)
      obtain ⟨w', run, told⟩ := hh.run_tell noted.accompanies .paused (by decide)
      have advanced := noted.trans told
      have still := halted.cued advanced
      refine ⟨w', ?_, still.mode.isPlaying_of_idle, ⟨_, paused, still⟩,
        enduring.trans (.onward advanced.onward)⟩
      simpa using run

end Binds

/-- Whatever is done with the timeline, it is played on as a reel. -/
theorem Directs.continues {α : Type} {x : Script υ α}
    (h : Directs (aloof calm t (followers.map (·.1))) t x)
    (conforms : Conforms calm t curves followers base c w) :
    Continues calm t curves followers base c w (x.run w).2 := by
  induction h generalizing w with
  | start binds =>
      obtain ⟨w', run, -, continues⟩ := binds.run_start conforms
      rw [run]
      exact continues
  | pause binds =>
      obtain ⟨w', run, -, continues⟩ := binds.run_halt conforms
      rw [run]
      exact continues
  | aside grants =>
      obtain ⟨r, runs, shows⟩ := conforms
      have follows := grants w shows.toKeeps
      exact ⟨⟨r, runs, shows.follow follows⟩, .onward follows.leaves.toOnward⟩
  | bind _ _ hx hf =>
      have first := hx conforms
      rw [run_bind]
      split
      · exact first.trans (hf _ first.conforms)
      · exact first

variable {k : Ref .task}

/-- A frame is played by a task that is awake again, which then sleeps or ends. -/
theorem run_work_of_asleep {period wake : Nat} {isAborted isNext : Bool}
    (run : (nextFrame host t).run w = (.ok isNext, w')) :
    (work host k ⟨.playback t period, .sleeping wake, isAborted⟩).run w =
      (if isNext then rest k (wake + period) else conclude (.finished none) k : Script υ Unit).run
        w' := by
  unfold work
  dsimp only
  rw [run_bind_of_ok (run_attempt_of_ok run)]
  cases isNext <;> rfl

variable {reels : Reel → Prop}

/-- A task ends that does not play the timeline any more, or never did. -/
theorem Shows.conclude_of_spent (h : Shows calm t followers base r w)
    (added : k.index < w.stage.tasks.size)
    (idle : ∀ row, w.stage.Engages t k row → row.IsSpent) (how : Ending) :
    Shows calm t followers base r ((conclude how k : Script υ Unit).run w).2 :=
  h.retask (.endTask w.stage how k) (h.mode.dismiss added idle how)

/-- A task falls asleep that does not play the timeline. -/
theorem Shows.rest_of_stranger (h : Shows calm t followers base r w)
    (added : k.index < w.stage.tasks.size)
    (stranger : (w.stage.tasks.get k).plays t = false) (wake : Nat) :
    Shows calm t followers base r ((rest k wake : Script υ Unit).run w).2 := by
  unfold rest
  rw [run_stage_bind]
  split
  · refine h.conclude_of_spent added (fun row ⟨_, same, plays⟩ => ?_) .aborted
    rw [same] at stranger
    exact nomatch stranger.symm.trans plays
  · have mode : (w.stage.sleepUntil k wake).InMode t r.mode := h.mode.congr rfl
      (fun j row => Stage.engages_modify_of_stranger
        (f := fun row => { row with phase := .sleeping wake }) added rfl rfl stranger) rfl rfl
    exact h.retask (.sleepUntil w.stage k wake) mode

/-- A task does one bit of a job that is not to play the timeline. -/
theorem Shown.work_stranger (h : Shown calm t followers base reels w)
    (hh : (aloof calm t (followers.map (·.1))).Binds host) (added : k.index < w.stage.tasks.size)
    (stranger : (w.stage.tasks.get k).plays t = false)
    (resume : ∀ code, ShownOn calm t followers base reels w ((host.resume code).run w).2) :
    Shown calm t followers base reels ((work host k (w.stage.tasks.get k)).run w).2 := by
  have ends : ∀ (how : Ending) (w' : World υ), ShownOn calm t followers base reels w w' →
      Shown calm t followers base reels
        ((conclude how k : Script υ Unit).run w').2 := by
    rintro how w' ⟨⟨r, mem, shows⟩, enduring⟩
    have still := (enduring.plays k added).trans stranger
    refine ⟨r, mem, shows.conclude_of_spent (Nat.lt_of_lt_of_le added enduring.size)
      (fun row ⟨_, same, plays⟩ => ?_) how⟩
    rw [same] at still
    exact nomatch still.symm.trans plays
  have rests : ∀ (wake : Nat) (w' : World υ), ShownOn calm t followers base reels w w' →
      Shown calm t followers base reels ((rest k wake : Script υ Unit).run w').2 := by
    rintro wake w' ⟨⟨r, mem, shows⟩, enduring⟩
    exact ⟨r, mem, shows.rest_of_stranger (Nat.lt_of_lt_of_le added enduring.size)
      ((enduring.plays k added).trans stranger) wake⟩
  have idle : ShownOn calm t followers base reels w w := ⟨h, .of_tasks_eq rfl⟩
  unfold work
  split
  · exact h
  · exact ends _ w idle
  · exact rests _ w idle
  · next u _ _ job _ =>
      -- It plays another timeline, and the frames of that are no concern of this one.
      have ne : u ≠ t := by simpa [Task.plays, job] using stranger
      have first : ShownOn calm t followers base reels w ((nextFrame host u).run w).2 := by
        obtain ⟨r, mem, shows⟩ := h
        have follows := hh.nextFrame_elsewhere shows.toAccompanies ne
        exact ⟨⟨r, mem, shows.follow follows⟩, .onward follows.leaves.toOnward⟩
      rw [run_bind, run_attempt_snd]
      split
      · split
        · exact rests _ _ first
        · exact ends _ _ first
        · exact ends _ _ first
      · exact first.shown
  · next code _ _ _ =>
      have first := resume code
      rw [run_bind, run_attempt_snd]
      split
      · split
        · exact rests _ _ first
        · exact ends _ _ first
        · exact ends _ _ first
      · exact first.shown

section Player

/-- The task that plays the timeline goes to sleep until the next frame is due. -/
theorem Shows.run_rest (h : Shows calm t followers base r w) {start n : Nat}
    (taken : (w.stage.timelines.get t).playback = some k) {phase : Phase}
    (engaged : w.stage.Engages t k ⟨.playback t (w.stage.clock t).period, phase, false⟩)
    (others : ∀ k' row, k' ≠ k → w.stage.Engages t k' row → row.IsSpent)
    (early : start + n * (w.stage.clock t).period ≤ w.stage.agenda.now)
    (late : w.stage.agenda.now ≤ start + (n + 1) * (w.stage.clock t).period) :
    Shows calm t followers base { r with mode := .playing start n }
      ((rest k (start + (n + 1) * (w.stage.clock t).period) : Script υ Unit).run w).2 := by
  obtain ⟨added, row, -⟩ := engaged
  unfold rest
  rw [run_stage_bind, row, if_neg Bool.false_ne_true]
  exact h.retask (.sleepUntil w.stage k _) (.sleep added (by rw [row]) taken others early late)

/-- After a frame it goes to sleep again, or it ends. -/
theorem Shows.after_frame (h : Shows calm t followers base r w) {start n : Nat}
    (mode : r.mode = .playing start n) {row : Task} (engaged : w.stage.Engages t k row)
    (unspent : ¬ row.IsSpent)
    (now : w.stage.agenda.now = start + (n + 1) * (w.stage.clock t).period) :
    Shows calm t followers base { r with mode := .playing start (n + 1) }
        ((rest k (w.stage.agenda.now + (w.stage.clock t).period) : Script υ Unit).run w).2 ∧
      ∀ how, Shows calm t followers base { r with mode := .idle }
        ((conclude how k : Script υ Unit).run w).2 := by
  obtain ⟨start', n', mode', taken, same, others, -, -⟩ := h.mode.of_unspent engaged unspent
  cases mode.symm.trans mode'
  obtain ⟨added, rfl, plays⟩ := engaged
  constructor
  · have next : w.stage.agenda.now + (w.stage.clock t).period =
        start + (n + 1 + 1) * (w.stage.clock t).period := by
      rw [now, Nat.add_assoc, ← Nat.succ_mul]
    rw [next]
    refine h.run_rest taken ⟨added, same, ?_⟩ others (Nat.le_of_eq now.symm) ?_
    · exact decide_eq_true rfl
    · rw [← next]
      exact Nat.le_add_right ..
  · exact fun how => h.retask (.endTask w.stage how k) (.finish added plays taken others how)

/-- The player sleeps for a period at first. -/
theorem Shows.work_ready (h : Shows calm t followers base r w) {start : Nat}
    (mode : r.mode = .playing start 0)
    (taken : (w.stage.timelines.get t).playback = some k)
    (engaged : w.stage.Engages t k ⟨.playback t (w.stage.clock t).period, .ready, false⟩)
    (others : ∀ k' row, k' ≠ k → w.stage.Engages t k' row → row.IsSpent)
    (now : w.stage.agenda.now = start) :
    Shows calm t followers base r
      ((work host k ⟨.playback t (w.stage.clock t).period, .ready, false⟩).run w).2 := by
  subst now
  have early : w.stage.agenda.now + 0 * (w.stage.clock t).period ≤ w.stage.agenda.now := by omega
  have slept := h.run_rest taken engaged others early (by omega)
  rw [Nat.zero_add, Nat.one_mul, ← mode] at slept
  exact slept

/-- Then it plays a frame whenever one is due. -/
theorem Binds.work_asleep (hh : (aloof calm t (followers.map (·.1))).Binds host)
    (h : Shows calm t followers base r w) (single : r.clock.repeats = false)
    (left : 0 < r.clock.remaining) {start n : Nat} (mode : r.mode = .playing start n)
    (engaged : w.stage.Engages t k ⟨.playback t (w.stage.clock t).period,
      .sleeping (start + (n + 1) * (w.stage.clock t).period), false⟩)
    (now : w.stage.agenda.now = start + (n + 1) * (w.stage.clock t).period) :
    Shows calm t followers base (r.framed host.curves followers start n)
      ((work host k ⟨.playback t (w.stage.clock t).period,
        .sleeping (start + (n + 1) * (w.stage.clock t).period), false⟩).run w).2 := by
  have single' : (w.stage.clock t).repeats = false := by rw [h.clock, single]
  obtain ⟨w₁, run, advanced⟩ := hh.run_frame h.toAccompanies single' (h.clock ▸ left)
  have period : (w₁.stage.clock t).period = (w.stage.clock t).period := by
    rw [advanced.clock, (Clock.sameSettings_further _ 1).period]
  have engaged₁ := (advanced.onward.engages k _).2 engaged
  have now₁ := advanced.onward.now
  rw [h.clock] at run advanced
  have shows₁ := h.advance advanced (Clock.sameSettings_further _ 1).period
  obtain ⟨sleeps, ends⟩ := shows₁.after_frame mode engaged₁
    (Task.not_isSpent_of_due (p := True) (.inr rfl)) (by rw [now₁, period, now])
  rw [now₁, period] at sleeps
  have due : start + (n + 1) * r.clock.period = w.stage.agenda.now := by rw [now, h.clock]
  rw [run_work_of_asleep run, ← now, Reel.framed, due]
  cases (r.clock.further 1).isComplete with
  | true => exact ends _
  | false => exact sleeps

variable (playable : Reel.Playable host.curves followers reels)
  (h : Shown calm t followers base reels w)
  (hh : (aloof calm t (followers.map (·.1))).Binds host)

include hh playable h

/-- A task that plays the timeline waits for a period at first, and then plays a frame whenever it
is due. -/
theorem Binds.work_player (added : k.index < w.stage.tasks.size)
    (plays : (w.stage.tasks.get k).plays t = true) (runnable : w.stage.isRunnable k = true)
    (unaborted : (w.stage.tasks.get k).isAborted = false) :
    Shown calm t followers base reels ((work host k (w.stage.tasks.get k)).run w).2 := by
  obtain ⟨r, mem, shows⟩ := h
  have unspent : ¬ (w.stage.tasks.get k).IsSpent := by
    rintro (ended | aborted)
    · have unended := Stage.hasEnded_of_isRunnable runnable
      exact absurd (unended.symm.trans ended) Bool.false_ne_true
    · exact absurd (unaborted.symm.trans aborted) Bool.false_ne_true
  have engaged : w.stage.Engages t k (w.stage.tasks.get k) := ⟨added, rfl, plays⟩
  obtain ⟨start, n, mode, taken, row, others, due, late⟩ := shows.mode.of_unspent engaged unspent
  rw [row] at engaged ⊢
  rcases due with ⟨ready, rfl, now⟩ | asleep
  · rw [ready] at engaged ⊢
    exact ⟨r, mem, shows.work_ready mode taken engaged others now⟩
  · -- The player is awake just when the next frame is due, and frames are left.
    rw [asleep] at engaged ⊢
    have now : w.stage.agenda.now = start + (n + 1) * (w.stage.clock t).period := by
      unfold Stage.isRunnable at runnable
      rw [row, asleep] at runnable
      exact Nat.le_antisymm late (of_decide_eq_true (by simpa using runnable))
    exact ⟨_, playable.framed mem mode, hh.work_asleep shows (playable.single mem)
      (playable.left mem mode) mode engaged now⟩

/-- A task has its turn. -/
theorem Binds.takeTurn_shown (added : k.index < w.stage.tasks.size)
    (resume : ∀ code, ShownOn calm t followers base reels w ((host.resume code).run w).2) :
    Shown calm t followers base reels ((Script.takeTurn host k).run w).2 := by
  unfold Script.takeTurn
  rw [run_stage_bind]
  dsimp only
  split
  · next runnable =>
      split
      · next aborted =>
          obtain ⟨r, mem, shows⟩ := h
          exact ⟨r, mem, shows.conclude_of_spent added
            (fun row ⟨_, same, _⟩ => .inr (same ▸ aborted)) .aborted⟩
      · next unaborted =>
          rw [Bool.not_eq_true] at unaborted
          cases plays : (w.stage.tasks.get k).plays t with
          | true => exact hh.work_player playable h added plays runnable unaborted
          | false => exact h.work_stranger hh added plays resume
  · exact h

end Player

theorem Binds.takeTurn (hh : (aloof calm t (followers.map (·.1))).Binds host)
    (drawn : host.curves = curves) (single : c.repeats = false)
    (h : Conforms calm t curves followers base c w)
    (resume : ∀ code, Directs (aloof calm t (followers.map (·.1))) t (host.resume code))
    (added : k.index < w.stage.tasks.size) :
    Conforms calm t curves followers base c ((Script.takeTurn host k).run w).2 := by
  subst drawn
  refine ⟨hh.takeTurn_shown (Reel.Runs.playable single) h.reel added fun code => ?_⟩
  obtain ⟨conforms, enduring⟩ := (resume code).continues h
  exact ⟨conforms.reel, enduring⟩

/-- Whatever happens by a schedule, the timeline is played on as a reel. -/
theorem Scheduled.conforms (single : c.repeats = false)
    (scheduled : Scheduled (aloof calm t (followers.map (·.1))) curves t w w')
    (h : Conforms calm t curves followers base c w) :
    Conforms calm t curves followers base c w' := by
  induction scheduled with
  | here => exact h
  | course _ directs ih => exact (directs.continues ih).conforms
  | turn _ binds drawn resume added ih => exact binds.takeTurn drawn single ih resume added
  | @time v now _ later timely ih =>
      obtain ⟨r, runs, shows⟩ := ih
      exact ⟨r, runs,
        shows.setNow (shows.mode.setNow later fun k row engaged _ => timely k row engaged)⟩
  | aside _ follows ih =>
      obtain ⟨r, runs, shows⟩ := ih
      exact ⟨r, runs, shows.follow follows⟩

/-! ## By hand -/

namespace Binds

include hh

/-- Frames that are played by hand are those of the run, until none is left. -/
theorem run_playFrames (h : Accompanies calm t followers w)
    (single : (w.stage.clock t).repeats = false) (left : 0 < (w.stage.clock t).remaining)
    (most count : Nat) :
    ∃ w', (playFrames host t most count).run w =
        (.ok (count + min most (w.stage.clock t).remaining), w') ∧
      w.stage.Onward t (followers.map (·.1)) (notedAt w.stage.agenda.now
        ((w.stage.clock t).cuesOf host.curves followers
          (min most (w.stage.clock t).remaining))) w'.stage := by
  induction most generalizing w count with
  | zero =>
      rw [Nat.zero_min]
      exact ⟨w, rfl, .of_eq rfl rfl rfl rfl rfl rfl⟩
  | succ most ih =>
      obtain ⟨w₁, run, advanced⟩ := hh.run_frame h single left
      unfold playFrames
      rw [run_bind_of_ok run]
      have rest := Clock.remaining_further (w.stage.clock t) 1
      cases complete : ((w.stage.clock t).further 1).isComplete with
      | true =>
          rw [Clock.isComplete_eq, decide_eq_true_iff, rest] at complete
          have last : min (most + 1) (w.stage.clock t).remaining = 0 + 1 := by omega
          rw [last, Clock.cuesOf_succ', notedAt_append]
          exact ⟨w₁, rfl, advanced.onward⟩
      | false =>
          rw [Clock.isComplete_eq, decide_eq_false_iff_not, rest] at complete
          have others : min (most + 1) (w.stage.clock t).remaining =
              min most ((w.stage.clock t).remaining - 1) + 1 := by omega
          obtain ⟨w', run', onward⟩ := ih advanced.accompanies
            (by rw [advanced.clock, (Clock.sameSettings_further _ 1).repeats, single])
            (by rw [advanced.clock, rest]; omega) (count + 1)
          rw [advanced.clock, rest, advanced.onward.now] at onward
          rw [advanced.clock, rest, Nat.add_right_comm] at run'
          rw [others, Clock.cuesOf_succ', notedAt_append]
          exact ⟨w', run', advanced.onward.trans onward⟩

/-- A run is played out by hand. -/
theorem run_playOut (h : Accompanies calm t followers w)
    (single : (w.stage.clock t).repeats = false) (most : Nat) :
    ∃ w', (playOut host t most).run w = (.ok (min most (w.stage.clock t).setOut.remaining), w') ∧
      w'.stage.cues t (followers.map (·.1)) = notedAt w.stage.agenda.now
        ((w.stage.clock t).setOut.cuesOf host.curves followers
          (min most (w.stage.clock t).setOut.remaining)) ++
          w.stage.cues t (followers.map (·.1)) := by
  have left := (w.stage.clock t).remaining_setOut
  have single' : (w.stage.clock t).setOut.repeats = false :=
    (Clock.sameSettings_setOut _).repeats.trans single
  have rest : ∀ w₁ : World υ, Advanced calm t followers w w₁ (w.stage.clock t).setOut [] →
      ∃ w', (playFrames host t most 0).run w₁ =
          (.ok (min most (w.stage.clock t).setOut.remaining), w') ∧
        w'.stage.cues t (followers.map (·.1)) = notedAt w.stage.agenda.now
          ((w.stage.clock t).setOut.cuesOf host.curves followers
            (min most (w.stage.clock t).setOut.remaining)) ++
          w.stage.cues t (followers.map (·.1)) := by
    intro w₁ set
    obtain ⟨w', run, onward⟩ := hh.run_playFrames set.accompanies (by rw [set.clock, single'])
      (by rw [set.clock]; exact left) most 0
    rw [set.clock, Nat.zero_add] at run
    rw [set.clock, set.onward.now] at onward
    exact ⟨w', run, by rw [onward.cues, set.onward.cues]; rfl⟩
  unfold playOut
  rw [run_stage_bind]
  split
  · next complete =>
      have set := h.setClock (w.stage.clock t).rewind
      exact rest _ (by rw [Clock.setOut, if_pos complete]; exact set)
  · next incomplete =>
      refine rest w ⟨h, ?_, .of_eq rfl rfl rfl rfl rfl rfl⟩
      rw [Clock.setOut, if_neg incomplete]

end Binds

end Pact

/-- A timeline that does not repeat is not being played. Then, whenever it is started, paused and
started again, on the virtual clock and by whomever, as long as it and its followers are
otherwise left alone: it plays the frames that are played by hand, one after another and with all
their cues, until they end with the only news that the run is completed. Every frame is played so
many periods after the last start as frames have been played since, and none is left behind while
the timeline is being played. It can be started and paused at any time, and then it is being played
or is not. -/
theorem Stage.Reachable.pause_loses_nothing {υ : Type} {w : World υ} (reachable : w.stage.Reachable)
    {t : Ref .timeline} {calm : υ → Prop} {host : Host υ}
    (binds : (Pact.aloof calm t ((w.stage.retinue t).map (·.1))).Binds host) (atEase : calm w.user)
    (free : (w.stage.emitters.get (w.stage.emitterOf t)).isHeld = false)
    (channel : w.stage.agenda.channel.isSome = true) (single : (w.stage.clock t).repeats = false)
    (rests : w.stage.InMode t .idle) :
    ∃ (hand : Nat → List Cue) (n : Nat),
      (∀ most, ∃ v, (Script.playOut host t most).run w = (.ok (min most n), v) ∧
        v.stage.cues t ((w.stage.retinue t).map (·.1)) =
          notedAt w.stage.agenda.now (hand (min most n)) ++
            w.stage.cues t ((w.stage.retinue t).map (·.1))) ∧
      (∃ before, hand n = before ++ [.news .completed] ∧ .news .completed ∉ before) ∧
      ∀ w', (Pact.aloof calm t ((w.stage.retinue t).map (·.1))).Scheduled host.curves t w w' →
        (∃ new, w'.stage.cues t ((w.stage.retinue t).map (·.1)) =
            new ++ w.stage.cues t ((w.stage.retinue t).map (·.1)) ∧
          ((∃ j < n, played new = hand j) ∨ hand n <+: played new) ∧
          Punctual (w.stage.clock t).period new ∧
          (w'.stage.isPlaying t = true → ∃ start j, lastSegment new = some (start, j) ∧
            start + j * (w.stage.clock t).period ≤ w'.stage.agenda.now ∧
            w'.stage.agenda.now ≤ start + (j + 1) * (w.stage.clock t).period)) ∧
        (∃ v, (Script.start host t).run w' = (.ok (.ok ()), v) ∧ v.stage.isPlaying t = true) ∧
        ∃ v, (Script.pause host t).run w' = (.ok (), v) ∧ v.stage.isPlaying t = false := by
  have accompanies : Pact.Accompanies calm t (w.stage.retinue t) w :=
    ⟨⟨atEase, reachable.checked⟩, free, reachable.tied.followed t⟩
  have opening : Pact.Conforms calm t host.curves (w.stage.retinue t)
      (w.stage.cues t ((w.stage.retinue t).map (·.1))) (w.stage.clock t) w :=
    ⟨_, .opening, accompanies, channel, rfl, rfl, rests⟩
  refine ⟨(w.stage.clock t).setOut.cuesOf host.curves (w.stage.retinue t),
    (w.stage.clock t).setOut.remaining, binds.run_playOut accompanies single,
    Clock.cuesOf_remaining (Clock.remaining_setOut _),
    fun w' scheduled => ?_⟩
  have conforms := scheduled.conforms single opening
  obtain ⟨v, started, playing, -⟩ := binds.run_start conforms
  obtain ⟨v', paused, idle, -⟩ := binds.run_halt conforms
  refine ⟨?_, ⟨v, started, playing⟩, v', paused, idle⟩
  obtain ⟨r, runs, shows⟩ := conforms
  have sound := runs.sound
  have content : (∃ j < (w.stage.clock t).setOut.remaining,
      played r.log = (w.stage.clock t).setOut.cuesOf host.curves (w.stage.retinue t) j) ∨ _ :=
    sound.content.imp_left fun ⟨j, lt, same, _⟩ => ⟨j, lt, same⟩
  refine ⟨r.log, shows.log, content, sound.punctual, fun playing => ?_⟩
  have inMode := shows.mode
  have period : (w'.stage.clock t).period = (w.stage.clock t).period := by
    rw [shows.clock, sound.settings.period]
  cases mode : r.mode with
  | idle =>
      rw [mode] at inMode
      exact nomatch inMode.isPlaying_of_idle.symm.trans playing
  | playing start n =>
      rw [mode] at inMode
      refine ⟨start, n, (sound.segment start n mode).1, ?_⟩
      cases inMode with
      | playing _ _ _ _ early late => exact ⟨period ▸ early, period ▸ late⟩

/-- A timeline of three frames, with a behaviour that follows it: it is paused after the first
frame, started again at once, and then plays the second one a period later. -/
def waltzing : Script Unit Unit := do
  let _ ← Script.owning [] (Script.produce (·.addTimeline 50))
  let _ ← Script.owning [.timeline ⟨0⟩] (Script.produce (·.addAlpha ⟨0⟩ .rampInc))
  let _ ← Script.owning [.alpha ⟨0⟩] (Script.makeCustom (.silent Unit) 0 (some ⟨0⟩))

def waltz : World Unit := (waltzing.run ⟨.empty true, ()⟩).2

theorem course_waltzing : Script.Course (fun _ => []) waltzing :=
  .bind (.offered (.addTimeline 50)) fun _ =>
    .bind (.offered (.addAlpha ⟨0⟩ .rampInc)) fun _ =>
      .bind (.offered (.makeCustom 0 (some ⟨0⟩))) fun _ => .pure ()

theorem reachable_waltz : waltz.stage.Reachable := by
  unfold waltz
  exact Arises.reachable (@Arises.course _ (fun _ => []) _ _ _ (.opening true rfl) course_waltzing)

/-- Nobody dances yet. -/
theorem rests_waltz : waltz.stage.InMode ⟨0⟩ .idle := by
  have size : waltz.stage.tasks.size = 0 := by decide +kernel
  have untaken : (waltz.stage.timelines.get ⟨0⟩).playback = none := by decide +kernel
  exact .idle (fun k row ⟨added, _⟩ => absurd (size ▸ added) (Nat.not_lt_zero _))
    fun k taken => nomatch untaken.symm.trans taken

namespace World

def startWaltz (w : World Unit) : World Unit := ((Script.start (.silent Unit) ⟨0⟩).run w).2

def pauseWaltz (w : World Unit) : World Unit := ((Script.pause (.silent Unit) ⟨0⟩).run w).2

def turnOf (k : Nat) (w : World Unit) : World Unit := ((Script.takeTurn (.silent Unit) ⟨k⟩).run w).2

def waitUntil (now : Nat) (w : World Unit) : World Unit := { w with stage := w.stage.setNow now }

end World

/-- In this phase a task does not wake up before the given time. -/
def Phase.rests (now : Nat) : Phase → Bool
  | .sleeping wake => decide (now ≤ wake)
  | _ => true

/-- The first frame is played a period after the start. -/
def firstBar : World Unit := ((waltz.startWaltz.turnOf 0).waitUntil 16).turnOf 0

/-- The task that was told to end has its turn after the new one. -/
def secondBar : World Unit :=
  (((firstBar.pauseWaltz.startWaltz.turnOf 1).turnOf 0).waitUntil 32).turnOf 1

theorem scheduled_secondBar {p : Pact Unit} : p.Scheduled Easing.drawn ⟨0⟩ waltz secondBar := by
  have resume : ∀ code, Pact.Directs p ⟨0⟩ ((Host.silent Unit).resume code) :=
    fun _ => .aside fun _ => .refl
  have turn : ∀ {w : World Unit} (k : Nat), p.Scheduled Easing.drawn ⟨0⟩ waltz w →
      k < w.stage.tasks.size →
      p.Scheduled Easing.drawn ⟨0⟩ waltz (w.turnOf k) :=
    fun k h added => h.turn p.binds_silent rfl resume added
  have time : ∀ {w : World Unit} (now : Nat), p.Scheduled Easing.drawn ⟨0⟩ waltz w →
      w.stage.agenda.now ≤ now →
      (∀ k ∈ w.stage.tasks.refs, w.stage.isRunnable k = false ∧
        (w.stage.tasks.get k).phase.rests now = true) →
      p.Scheduled Easing.drawn ⟨0⟩ waltz (w.waitUntil now) := by
    intro w now h later timely
    refine h.time later ?_
    rintro k row ⟨added, same, -⟩
    obtain ⟨waits, wakes⟩ := timely k (Table.mem_refs.2 added)
    refine ⟨waits, fun wake asleep => ?_⟩
    rw [same, asleep] at wakes
    exact of_decide_eq_true wakes
  have started := turn 0 (.course .here (.start p.binds_silent)) (by decide +kernel)
  have first : p.Scheduled Easing.drawn ⟨0⟩ waltz firstBar :=
    turn 0 (time 16 started (by decide +kernel) (by decide +kernel)) (by decide +kernel)
  have paused := Pact.Scheduled.course first (.pause p.binds_silent)
  have restarted := turn 0 (turn 1 (.course paused (.start p.binds_silent)) (by decide +kernel))
    (by decide +kernel)
  exact turn 1 (time 32 restarted (by decide +kernel) (by decide +kernel)) (by decide +kernel)

/-- The cues of the two frames. -/
def waltzCues : List (Nat × Cue) :=
  [(32, .news (.frame 2)), (32, .ticked ⟨0⟩ 43690), (32, .frame 2), (16, .started),
    (16, .news (.frame 1)),
    (16, .ticked ⟨0⟩ 21845), (16, .frame 1), (0, .started)]

theorem pause_loses_nothing_waltz :
    ∃ (hand : Nat → List Cue) (n : Nat),
      (∃ v, (Script.playOut (.silent Unit) ⟨0⟩ 2).run waltz = (.ok (min 2 n), v) ∧
        v.stage.cues ⟨0⟩ [⟨0⟩] = notedAt 0 (hand (min 2 n))) ∧
      secondBar.stage.cues ⟨0⟩ [⟨0⟩] = waltzCues ∧
      ((∃ j < n, played waltzCues = hand j) ∨ hand n <+: played waltzCues) := by
  have members : (waltz.stage.retinue ⟨0⟩).map (·.1) = [⟨0⟩] := by decide +kernel
  have none : waltz.stage.cues ⟨0⟩ [⟨0⟩] = [] := by decide +kernel
  have now : waltz.stage.agenda.now = 0 := by decide +kernel
  obtain ⟨hand, n, byHand, -, schedule⟩ := reachable_waltz.pause_loses_nothing
    (Pact.aloof (fun _ : Unit => True) ⟨0⟩ _).binds_silent trivial (by decide +kernel)
    (by decide +kernel) (by decide +kernel) rests_waltz
  obtain ⟨⟨new, cues, content, -⟩, -⟩ := schedule secondBar scheduled_secondBar
  have known : secondBar.stage.cues ⟨0⟩ [⟨0⟩] = waltzCues := by decide +kernel
  simp only [members, none, now, List.append_nil] at byHand cues
  cases cues.symm.trans known
  exact ⟨hand, n, byHand 2, known, content⟩

end Animation
