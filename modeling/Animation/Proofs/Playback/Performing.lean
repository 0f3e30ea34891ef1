/-
# A timeline in performance

Those who use a timeline start, pause and stop it, play frames of it by hand and set it, in any
order, between the turns of tasks and also in the midst of a frame: a behaviour that is driven
by the task that plays the timeline may pause it and start it again. Meanwhile time passes and
tasks take their turns. All worlds that come of this are in order.
-/

import Animation.Proofs.Playback.Starting
import Animation.Proofs.Stage.Reachable

namespace Animation

/-- A later world, in order again. -/
structure World.Later {υ : Type} (t : Ref .timeline) (w w' : World (Diary υ)) : Prop where
  kept : w'.Kept t
  tasks : w.stage.tasks.size ≤ w'.stage.tasks.size

namespace Script

variable {υ α β : Type} {t : Ref .timeline} {w : World (Diary υ)} {k : Ref .task}

theorem later_bind {x : Script (Diary υ) α} {f : α → Script (Diary υ) β} (hx : x.Heeds t w)
    (kept : w.Kept t) (hf : ∀ a w', w.Proceeds t w' → w'.Later t ((f a).run w').2) :
    w.Later t ((x >>= f).run w).2 := by
  have first := hx kept
  rw [run_bind]
  cases (x.run w).1 with
  | error fault => exact ⟨first.kept, first.lasting.size⟩
  | ok a =>
      have last := hf a _ first
      exact ⟨last.kept, Nat.le_trans first.lasting.size last.tasks⟩

theorem later_conclude (kept : w.Kept t) (added : k.index < w.stage.tasks.size) (how : Ending) :
    w.Later t ((conclude how k : Script (Diary υ) Unit).run w).2 := by
  have sound := kept.ready.sound.finish k
  have score := Stage.score_endTask (t := t) added how
  have tasks := (w.stage.rehandled_endTask how k).tasks
  let ended : World (Diary υ) := { w with stage := w.stage.endTask how k }
  have kept' : ended.Kept t := And.left <| kept.follow (Stage.steady_endTask added how) rfl
    (by rw [score]; exact sound) (Nat.le_of_eq (congrArg Score.started score).symm) fun idle _ => by
      rw [score]
      exact ⟨Score.isPlaying_finish idle k, rfl⟩
  refine ⟨kept', ?_⟩
  show _ ≤ (w.stage.endTask how k).tasks.size
  rw [tasks]
  exact Table.size_le_size_modify ..

theorem later_rest (kept : w.Kept t) (added : k.index < w.stage.tasks.size)
    (unended : w.stage.hasEnded k = false) (wake : Nat) :
    w.Later t ((rest k wake : Script (Diary υ) Unit).run w).2 := by
  unfold rest
  rw [run_stage_bind]
  split
  · exact later_conclude kept added .aborted
  · have slept : w.Aside t { w with stage := w.stage.sleepUntil k wake } :=
      ⟨.sleepUntil added unended wake, rfl, rfl⟩
    have proceeds := slept.proceeds kept
    exact ⟨proceeds.kept, proceeds.lasting.size⟩

end Script

namespace Host.Heedful

open Script

variable {υ : Type} {t : Ref .timeline} {host : Host (Diary υ)} (hh : host.Heedful t)
  (resume : ∀ code w, (host.resume code).Heeds t w) {w : World (Diary υ)} {k : Ref .task}

include hh resume

/-- A task does one bit of its job. If it plays the timeline then the timeline is being played. -/
theorem work (kept : w.Kept t) (added : k.index < w.stage.tasks.size)
    (unended : w.stage.hasEnded k = false) (unaborted : (w.stage.tasks.get k).isAborted = false) :
    w.Later t ((Script.work host k (w.stage.tasks.get k)).run w).2 := by
  have rests : ∀ (wake : Nat) (w' : World (Diary υ)), w.Proceeds t w' →
      w'.Later t ((rest k wake : Script (Diary υ) Unit).run w').2 := fun wake w' proceeds =>
    later_rest proceeds.kept (Nat.lt_of_lt_of_le added proceeds.lasting.size)
      ((proceeds.lasting.hasEnded k added).trans unended) wake
  have ends : ∀ (how : Ending) (w' : World (Diary υ)), w.Proceeds t w' →
      w'.Later t ((conclude how k : Script (Diary υ) Unit).run w').2 := fun how w' proceeds =>
    later_conclude proceeds.kept (Nat.lt_of_lt_of_le added proceeds.lasting.size) how
  unfold Script.work
  split
  · exact ⟨kept, Nat.le_refl _⟩
  · exact ends _ w (.refl kept)
  · exact rests _ w (.refl kept)
  · next u period wake job _ =>
      -- A task that can still play has been taken for the player ever since it was spawned: if it
      -- plays this timeline then the timeline is being played.
      have frame : (Script.nextFrame host u).Heeds t w := by
        by_cases own : u = t
        · subst own
          apply hh.nextFrame_of_isPlaying
          rw [Stage.isPlaying_eq kept.ready.sound]
          have player : ⟨k, false, false⟩ ∈ w.stage.players u :=
            Stage.mem_players.2 ⟨added, by simp [Task.plays, job], unended.symm, unaborted.symm⟩
          exact List.any_eq_true.2 ⟨_, player, rfl⟩
        · exact hh.nextFrame_of_ne own
      refine later_bind (heeds_attempt frame) kept fun outcome w' proceeds => ?_
      split
      · exact rests _ w' proceeds
      · exact ends _ w' proceeds
      · exact ends _ w' proceeds
  · refine later_bind (heeds_attempt (resume _ w)) kept fun outcome w' proceeds => ?_
    split
    · exact rests _ w' proceeds
    · exact ends _ w' proceeds
    · exact ends _ w' proceeds

theorem takeTurn (kept : w.Kept t) (added : k.index < w.stage.tasks.size) :
    w.Later t ((Script.takeTurn host k).run w).2 := by
  unfold Script.takeTurn
  rw [run_stage_bind]
  dsimp only
  split
  · next runnable =>
      split
      · exact later_conclude kept added .aborted
      · next unaborted =>
          exact hh.work resume kept added (Stage.hasEnded_of_isRunnable runnable)
            (Bool.not_eq_true _ ▸ unaborted)
  · exact ⟨kept, Nat.le_refl _⟩

end Host.Heedful

namespace Script

variable {υ : Type} {t : Ref .timeline}

/-- What is asked of a timeline, and of others and of behaviours meanwhile. A frame of the timeline
is written down when it is played by hand. -/
inductive Requested (host : Host (Diary υ)) (t : Ref .timeline) :
    {α : Type} → Script (Diary υ) α → Prop
  -- timelines
  | start (u : Ref .timeline) : Requested host t (start host u)
  | pause (u : Ref .timeline) : Requested host t (pause host u)
  | stop (u : Ref .timeline) : Requested host t (stop host u)
  | nextFrame : Requested host t (playByHand host t)
  | nextFrameOf (u : Ref .timeline) (h : u ≠ t) : Requested host t (nextFrame host u)
  | rewind (u : Ref .timeline) : Requested host t (rewind u)
  | advance (u : Ref .timeline) (frame : Nat) : Requested host t (advance u frame)
  | skip (u : Ref .timeline) (count : Nat) : Requested host t (skip u count)
  | setDuration (u : Ref .timeline) (duration : Nat) : Requested host t (setDuration u duration)
  | setFps (u : Ref .timeline) (fps : Nat) : Requested host t (setFps u fps)
  | setRepeats (u : Ref .timeline) (repeats : Bool) : Requested host t (setRepeats u repeats)
  | setDirection (u : Ref .timeline) (direction : Direction) :
      Requested host t (setDirection u direction)
  -- what else calls back
  | makeScale (corners : Corners Fixed) (gravity : Gravity) (alpha : Option (Ref .alpha)) :
      Requested host t (makeScale host corners gravity alpha)
  | makeOpacity (bounds : Range UInt8) (alpha : Option (Ref .alpha)) :
      Requested host t (makeOpacity host bounds alpha)
  | makeCustom (callback : Callback) (alpha : Option (Ref .alpha)) :
      Requested host t (makeCustom host callback alpha)
  | bindTo (b : Ref .behaviour) (alpha : Option (Ref .alpha)) :
      Requested host t (bindTo host b alpha)
  | setScaleBounds (b : Ref .behaviour) (corners : Corners Fixed) :
      Requested host t (setScaleBounds host b corners)
  | setGravity (b : Ref .behaviour) (gravity : Gravity) :
      Requested host t (setGravity host b gravity)
  | setOpacityBounds (b : Ref .behaviour) (bounds : Range UInt8) :
      Requested host t (setOpacityBounds host b bounds)
  | drive (b : Ref .behaviour) (alpha : Nat) : Requested host t (drive host b alpha)
  | tick (b : Ref .behaviour) : Requested host t (tick host b)
  | ask (a : Ref .actor) (call : ActorCall) : Requested host t (ask host a call)
  | notify (n : Ref .notifier) (change : Change) : Requested host t (notify host n change)
  | flush (n : Ref .notifier) (batch : Batch) : Requested host t (flush host n batch)
  | emit (m : Ref .emitter) (event : String) (payload : Payload)
      (h : (Occurrence.emitted m event payload).scores t = false) :
      Requested host t (emit host m event payload)

/-- Those who use a timeline ask this of it, go by what they read, write down what they meet, may
break off, or go on after what was broken off, and do whatever else has nothing to do with the
playing of the timeline. Callbacks do the same; but handlers stay out of it as long as an event
is being offered to them, and leave the rest to their routines. -/
inductive Conducts (t : Ref .timeline) : {α : Type} → Script (Diary υ) α → Prop
  | request {host : Host (Diary υ)} {α : Type} {x : Script (Diary υ) α}
      (requested : Requested host t x)
      (notified : ∀ callback change, Conducts t (host.notified callback change))
      (called : ∀ callback payload, (host.called callback payload).StaysOut t)
      (driven : ∀ callback alpha, Conducts t (host.driven callback alpha))
      (reacts : ∀ a call, Conducts t (host.reacts a call)) : Conducts t x
  | aside {α : Type} {x : Script (Diary υ) α} (h : x.Spares t) : Conducts t x
  | look : Conducts t look
  | bind {α β : Type} {x : Script (Diary υ) α} {f : α → Script (Diary υ) β} (hx : Conducts t x)
      (hf : ∀ a, Conducts t (f a)) : Conducts t (x >>= f)
  | holding {α : Type} {x : Script (Diary υ) α} (handles : List Handle) (h : Conducts t x) :
      Conducts t (holding handles x)
  | goOn {α : Type} {x : Script (Diary υ) α} (h : Conducts t x) : Conducts t x.attempt

theorem Conducts.pure {α : Type} (a : α) : Conducts t (Pure.pure a : Script (Diary υ) α) :=
  .aside fun w _ => .refl t w

theorem Conducts.requested {α : Type} {x : Script (Diary υ) α}
    (h : Requested (Host.silent (Diary υ)) t x) : Conducts t x :=
  .request h (fun _ _ => .pure ()) (fun _ _ w _ => ⟨0, w, rfl, .refl t w⟩) (fun _ _ => .pure ())
    fun _ _ => .pure ()

theorem spares_changeClock (u : Ref .timeline) (f : Clock → Clock) :
    (changeClock u f : Script (Diary υ) Unit).Spares t :=
  spares_change fun s _ => .setClock s t u _

theorem spares_tryClock (u : Ref .timeline) (f : Clock → Except TimelineError Clock) :
    (tryClock u f : Script (Diary υ) _).Spares t := by
  intro w added
  unfold tryClock
  rw [run_stage_bind]
  split
  · exact ⟨.setClock _ t u _, rfl, rfl⟩
  · exact .refl t w

theorem spares_skip (u : Ref .timeline) (count : Nat) :
    (skip u count : Script (Diary υ) Unit).Spares t := by
  intro w added
  unfold skip
  rw [run_stage_bind]
  cases e : (w.stage.clock u).skip count with
  | error cause => exact .refl t w
  | ok clock =>
      exact ⟨.setClock _ t u _, rfl, rfl⟩

theorem Requested.heeds {host : Host (Diary υ)} (hh : host.Heedful t) {α : Type}
    {x : Script (Diary υ) α} (requested : Requested host t x) (w : World (Diary υ)) :
    x.Heeds t w := by
  cases requested with
  | start u => exact hh.start u
  | pause u => exact hh.pause u
  | stop u => exact hh.stop u
  | nextFrame => exact hh.playByHand
  | nextFrameOf u h => exact hh.nextFrame_of_ne h
  | rewind u => exact (spares_changeClock u _).heeds
  | advance u frame => exact (spares_tryClock u _).heeds
  | skip u count => exact (spares_skip u count).heeds
  | setDuration u duration => exact (spares_changeClock u _).heeds
  | setFps u fps => exact (spares_tryClock u _).heeds
  | setRepeats u repeats => exact (spares_changeClock u _).heeds
  | setDirection u direction => exact (spares_changeClock u _).heeds
  | makeScale corners gravity alpha => exact hh.makeScale corners gravity alpha
  | makeOpacity bounds alpha => exact hh.make (.opacity bounds) alpha
  | makeCustom callback alpha => exact hh.make (.custom callback) alpha
  | bindTo b alpha => exact hh.bindTo b alpha
  | setScaleBounds b corners => exact hh.setScaleBounds b corners
  | setGravity b gravity => exact hh.setGravity b gravity
  | setOpacityBounds b bounds => exact hh.setOpacityBounds b bounds
  | drive b alpha => exact hh.drive b alpha
  | tick b => exact hh.tick b
  | ask a call => exact hh.ask a call
  | notify n change => exact hh.notify n change
  | flush n batch => exact hh.flush n batch
  | emit m event payload h => exact hh.emit m event payload h

/-- Whatever is done with a timeline heeds it. -/
theorem Conducts.heeds {α : Type} {x : Script (Diary υ) α} (h : Conducts t x)
    (w : World (Diary υ)) : x.Heeds t w := by
  induction h generalizing w with
  | request requested _ called _ _ notified driven reacts =>
      exact requested.heeds ⟨notified, called, driven, reacts⟩ w
  | aside h => exact h.heeds
  | look => exact heeds_look
  | bind _ _ hx hf => exact heeds_bind (hx w) fun a w' _ => hf a w'
  | holding handles _ ih => exact heeds_holding (ih _)
  | goOn _ ih => exact heeds_attempt (ih w)

end Script

/-- The callbacks of those who use a timeline. -/
structure Host.Conducting {υ : Type} (t : Ref .timeline) (host : Host (Diary υ)) : Prop where
  notified : ∀ callback change, Script.Conducts t (host.notified callback change)
  called : ∀ callback payload, (host.called callback payload).StaysOut t
  driven : ∀ callback alpha, Script.Conducts t (host.driven callback alpha)
  reacts : ∀ a call, Script.Conducts t (host.reacts a call)
  resume : ∀ code, Script.Conducts t (host.resume code)

theorem Host.Conducting.heedful {υ : Type} {t : Ref .timeline} {host : Host (Diary υ)}
    (h : host.Conducting t) : host.Heedful t :=
  ⟨fun callback change => (h.notified callback change).heeds, h.called,
    fun callback alpha => (h.driven callback alpha).heeds, fun a call => (h.reacts a call).heeds⟩

/-! ## Performances -/

/-- A timeline that was never started, on a stage on which tasks can be spawned. -/
structure Stage.Fresh (t : Ref .timeline) (s : Stage) : Prop where
  added : t.index < s.timelines.size
  free : (s.emitters.get (s.emitterOf t)).isHeld = false
  channel : s.agenda.channel.isSome = true
  orderly : s.Orderly
  playback : (s.timelines.get t).playback = none
  players : s.players t = []
  started : s.announced t .started = 0
  paused : s.announced t .paused = 0

theorem Stage.Fresh.ready {t : Ref .timeline} {s : Stage} (h : s.Fresh t) : s.Ready t where
  added := h.added
  free := h.free
  channel := h.channel
  orderly := h.orderly
  sound := by
    refine ⟨s.nodup_players t, fun k taken => ?_, fun p mem => ?_, ?_⟩
    · exact nomatch h.playback.symm.trans taken
    · exact nomatch h.players ▸ (show p ∈ s.players t from mem)
    · show s.announced t .started = s.announced t .paused + (s.players t).countP _
      rw [h.started, h.paused, h.players]
      rfl

/-- The worlds that come of what is done with a timeline, of the turns of tasks and of the passing
of time. -/
inductive Performed {υ : Type} (t : Ref .timeline) : World (Diary υ) → Prop
  | opening {w : World (Diary υ)} (fresh : w.stage.Fresh t) (blank : w.user.seen = []) :
      Performed t w
  | course {w : World (Diary υ)} {α : Type} {x : Script (Diary υ) α} (h : Performed t w)
      (hx : Script.Conducts t x) : Performed t (x.run w).2
  | turn {w : World (Diary υ)} {host : Host (Diary υ)} {k : Ref .task} (h : Performed t w)
      (conducting : host.Conducting t) (added : k.index < w.stage.tasks.size) :
      Performed t ((Script.takeTurn host k).run w).2
  | time {w : World (Diary υ)} (now : Nat) (h : Performed t w) :
      Performed t { w with stage := w.stage.setNow now }
  | drain {w : World (Diary υ)} (h : Performed t w) :
      Performed t { w with stage := Script.drainChannel w.stage }

namespace Performed

variable {υ : Type} {t : Ref .timeline} {w : World (Diary υ)}

theorem kept (h : Performed t w) : w.Kept t := by
  induction h with
  | opening fresh blank =>
      refine ⟨fresh.ready, fun g mem => ?_, ?_⟩
      · exact nomatch blank ▸ mem
      · rw [blank]
        exact .nil
  | course _ hx ih => exact (hx.heeds _ ih).kept
  | turn _ conducting added ih =>
      exact (conducting.heedful.takeTurn (fun code => (conducting.resume code).heeds) ih added).kept
  | @time w now _ ih =>
      have later : w.Aside t { w with stage := w.stage.setNow now } :=
        ⟨⟨⟨Nat.le_refl _, rfl, rfl, rfl, fun h => ⟨h.queued, h.taken⟩⟩, .of_tasks_eq rfl, rfl⟩,
          rfl, rfl⟩
      exact (later.proceeds ih).kept
  | @drain w _ ih =>
      have later : w.Aside t { w with stage := Script.drainChannel w.stage } :=
        ⟨⟨⟨Nat.le_refl _, rfl, rfl, Option.isSome_map, fun h => ⟨h.queued, h.taken⟩⟩,
          .of_tasks_eq rfl, rfl⟩, rfl, rfl⟩
      exact (later.proceeds ih).kept

section Time

variable {host : Host (Diary υ)} (conducting : host.Conducting t)

include conducting

theorem forEach_takeTurn {tasks : List (Ref .task)} (h : Performed t w)
    (added : ∀ k ∈ tasks, k.index < w.stage.tasks.size) :
    Performed t ((Script.forEach (Script.takeTurn host) tasks).run w).2 := by
  induction tasks generalizing w with
  | nil => exact h
  | cons k rest ih =>
      have first := added k (List.mem_cons_self ..)
      have later := conducting.heedful.takeTurn (fun code => (conducting.resume code).heeds)
        h.kept first
      rw [Script.run_forEach_cons, Script.run_bind]
      split
      -- Turns may spawn tasks but take none away, so the others are still there.
      · refine ih (h.turn conducting first) fun k' mem => ?_
        exact Nat.lt_of_lt_of_le (added k' (List.mem_cons_of_mem _ mem)) later.tasks
      · exact h.turn conducting first

theorem settle (h : Performed t w) (rounds : Nat) :
    Performed t ((Script.settle host rounds).run w).2 := by
  induction rounds generalizing w with
  | zero => exact h
  | succ rounds ih =>
      unfold Script.settle
      rw [Script.run_stage_bind]
      cases tasks : w.stage.runnable with
      | nil => exact h
      | cons k rest =>
          have queued : ∀ k' ∈ k :: rest, k'.index < w.stage.tasks.size := fun k' mem =>
            h.kept.ready.orderly.queued k' (List.mem_filter.1 (tasks ▸ mem)).1
          have turned := forEach_takeTurn conducting h queued
          dsimp only
          rw [Script.run_bind]
          split
          · exact ih turned
          · exact turned

theorem moveTo (h : Performed t w) (rounds now : Nat) :
    Performed t ((Script.moveTo host rounds now).run w).2 :=
  settle conducting (h.time now) rounds

theorem elapse (h : Performed t w) (rounds target moves : Nat) :
    Performed t ((Script.elapse host rounds target moves).run w).2 := by
  induction moves generalizing w with
  | zero => exact h.moveTo conducting rounds target
  | succ moves ih =>
      unfold Script.elapse
      rw [Script.run_stage_bind]
      split
      · next wake _ =>
          split
          · have moved := h.moveTo conducting rounds wake
            rw [Script.run_bind]
            split
            · exact ih moved
            · exact moved
          · exact h.moveTo conducting rounds target
      · exact h.moveTo conducting rounds target

/-- A performance goes on while time passes. -/
theorem wait (h : Performed t w) (rounds duration : Nat) :
    Performed t ((Script.wait host rounds duration).run w).2 :=
  h.elapse conducting rounds _ duration

/-- So it does while all tasks are waited for. -/
theorem awaitTasks (h : Performed t w) (rounds limit moves : Nat) :
    Performed t ((Script.awaitTasks host rounds limit moves).run w).2 := by
  induction moves generalizing w with
  | zero => exact h.drain
  | succ moves ih =>
      unfold Script.awaitTasks
      rw [Script.run_change_bind, Script.run_stage_bind]
      split
      · exact h.drain
      · next wake _ _ =>
          split
          · have moved := h.drain.moveTo conducting rounds wake
            rw [Script.run_bind]
            split
            · exact ih moved
            · exact moved
          · rw [Script.run_bind]
            have moved := h.drain.moveTo conducting rounds limit
            split <;> exact moved
      · rw [Script.run_bind]
        have moved := h.drain.moveTo conducting rounds limit
        split <;> exact moved

end Time

end Performed

end Animation
