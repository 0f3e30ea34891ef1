/-
# What the library does is made of moves

The scripts of the library only make moves, provided that the callbacks do. Where a script
goes back to something that it saw before callbacks ran, what it saw has to be known to
last: an entry keeps its number to itself, and a behaviour that is gone stays gone.
-/

import Animation.Proofs.Script.Passing
import Animation.Stage.Bounds
import Animation.Stage.Schedule
import Animation.Stage.Setting

namespace Animation

namespace Script

variable {υ : Type} {pages : υ → List Stage} {w : World υ}

theorem passes_tryClock {t : Ref .timeline} {f : Clock → Except TimelineError Clock}
    (h : ∀ c c', f c = .ok c' → Clock.Turns c c') : (tryClock t f : Script υ _).Passes pages w := by
  apply passes_stage_bind
  split
  · next c e => exact passes_change_bind (.single (.turn (h _ c e))) (passes_pure _)
  · exact passes_pure _

theorem passes_changeClock {t : Ref .timeline} {f : Clock → Clock} (h : ∀ c, Clock.Turns c (f c)) :
    (changeClock t f : Script υ _).Passes pages w :=
  passes_change (.single (.turn (h _)))

theorem passes_setDuration (t : Ref .timeline) (duration : Nat) :
    (setDuration t duration : Script υ _).Passes pages w :=
  passes_changeClock fun _ => .setDuration duration

theorem passes_setFps (t : Ref .timeline) (fps : Nat) :
    (setFps t fps : Script υ _).Passes pages w :=
  passes_tryClock fun _ _ => .setFps

theorem passes_setRepeats (t : Ref .timeline) (repeats : Bool) :
    (setRepeats t repeats : Script υ _).Passes pages w :=
  passes_changeClock fun _ => .setRepeats repeats

theorem passes_setDirection (t : Ref .timeline) (direction : Direction) :
    (setDirection t direction : Script υ _).Passes pages w :=
  passes_changeClock fun _ => .setDirection direction

theorem passes_advance (t : Ref .timeline) (frame : Nat) :
    (advance t frame : Script υ _).Passes pages w :=
  passes_tryClock fun _ _ => .advance

theorem passes_skip (t : Ref .timeline) (count : Nat) :
    (skip t count : Script υ _).Passes pages w := by
  apply passes_stage_bind
  cases e : (w.stage.clock t).skip count with
  | error cause => exact fun _ => .refl
  | ok c =>
      apply passes_bind (passes_check _)
      intro c' w' run _
      cases run
      exact passes_change (.single (.turn (.skip e)))

theorem passes_rewind (t : Ref .timeline) : (rewind t : Script υ _).Passes pages w :=
  passes_changeClock fun _ => .rewind

theorem passes_await (m : Ref .emitter) : (await m : Script υ Emitter).Passes pages w := by
  apply passes_stage_bind
  dsimp only
  split
  · exact passes_throw _
  · exact passes_pure _

theorem passes_hold (isHeld : Bool) (m : Ref .emitter) :
    (change (hold isHeld m) : Script υ Unit).Passes pages w :=
  passes_change (.single (.modifyEmitter ..))

theorem passes_registerHandler (m : Ref .emitter) (event : String) (accepts : PayloadKind)
    (callback : Callback) :
    (registerHandler m event accepts callback : Script υ Nat).Passes pages w :=
  passes_bind (passes_await m) fun _ _ _ _ =>
    passes_change_bind (.single (.modifyEmitter ..)) (passes_pure _)

theorem passes_unregisterHandler (m : Ref .emitter) (id : Nat) :
    (unregisterHandler m id : Script υ Unit).Passes pages w :=
  passes_bind (passes_await m) fun _ _ _ _ => passes_change (.single (.modifyEmitter ..))

/-- A handle on a timeline is not one on a behaviour. -/
theorem behaviour_not_mem_timelines (t? : Option (Ref .timeline)) (b : Ref .behaviour) :
    .behaviour b ∉ (t?.map Handle.timeline).toList := by
  cases t? <;> simp

/-- A task is spawned after it took the handle that its job keeps. -/
theorem moves_spawn (s : Stage) (job : Job) : s.Moves (s.spawn job).1 := by
  unfold Stage.spawn
  split
  · exact .refl
  · refine .tail (Stage.moves_retainAll fun b hb => ?_) (.schedule _ _)
    exact absurd hb (behaviour_not_mem_timelines _ b)

theorem moves_endTask (s : Stage) (how : Ending) (k : Ref .task) : s.Moves (s.endTask how k) :=
  .head (.schedule _ _) (Stage.moves_releaseAll _ _)

theorem moves_abort (s : Stage) (k : Ref .task) : s.Moves (s.abort k) := by
  unfold Stage.abort
  dsimp only
  split
  · exact .refl
  · split
    · split
      · exact .single (.schedule _ _)
      · exact .single (.schedule _ _)
    · exact .single (.schedule _ _)

theorem moves_cancelPlayback (s : Stage) (t : Ref .timeline) : s.Moves (s.cancelPlayback t) := by
  unfold Stage.cancelPlayback
  split
  · exact .head (.setPlayback t none) (moves_abort _ _)
  · exact .refl

theorem passes_conclude (how : Ending) (k : Ref .task) :
    (conclude how k : Script υ Unit).Passes pages w :=
  passes_change (moves_endTask _ how k)

theorem passes_rest (k : Ref .task) (wake : Nat) :
    (rest k wake : Script υ Unit).Passes pages w := by
  apply passes_stage_bind
  split
  · exact passes_conclude _ k
  · exact passes_change (.single (.schedule _ _))

end Script

/-! ## Scripts that call back -/

namespace Host.Passing

open Script

variable {υ : Type} {pages : υ → List Stage} {host : Host υ} (hh : host.Passing pages)
  (w : World υ)

include hh

theorem notify (n : Ref .notifier) (change : Change) :
    (Script.notify host n change).Passes pages w :=
  passes_stage_bind (passes_note_bind
    (passes_forEach (fun callback w => hh.notified callback change w) _ _))

theorem flush (n : Ref .notifier) (batch : Batch) : (Script.flush host n batch).Passes pages w :=
  passes_forEach (fun change w => hh.notify w n change) _ _

theorem bindTo {b : Ref .behaviour} {alpha : Option (Ref .alpha)}
    (hb : w.stage.isAlive (.behaviour b)) (ha : ∀ a, alpha = some a → w.stage.isAlive (.alpha a)) :
    (Script.bindTo host b alpha).Passes pages w := by
  apply passes_stage_bind
  dsimp only
  split
  · exact passes_pure ()
  · exact passes_change_bind (.single (.rebind hb ha)) (passes_note_bind (hh.notify _ _ _))

/-- A new behaviour is there when it is bound, and so is still the alpha. -/
theorem make {drive : Drive} (checked : drive.Checked) {alpha : Option (Ref .alpha)}
    (ha : ∀ a, alpha = some a → w.stage.isAlive (.alpha a)) :
    (produce (·.addBehaviour drive) >>= fun b => do
      Script.bindTo host b alpha
      return b).Passes pages w := by
  apply passes_bind (passes_produce (.single (.addBehaviour checked)))
  intro b w' run _
  cases run
  refine passes_bind (hh.bindTo _ ?_ ha) fun _ _ _ _ => passes_pure _
  exact (Stage.isAlive_addBehaviour _ drive _).2 (.inl rfl)

theorem makeScale (corners : Corners Fixed) (gravity : Gravity) {alpha : Option (Ref .alpha)}
    (ha : ∀ a, alpha = some a → w.stage.isAlive (.alpha a)) :
    (Script.makeScale host corners gravity alpha).Passes pages w := by
  unfold Script.makeScale
  cases accepted : corners.toBounds with
  | error cause => exact fun _ => .refl
  | ok bounds => exact hh.make w (Drive.checked_scale accepted gravity) ha

theorem makeOpacity (bounds : Range UInt8) {alpha : Option (Ref .alpha)}
    (ha : ∀ a, alpha = some a → w.stage.isAlive (.alpha a)) :
    (Script.makeOpacity host bounds alpha).Passes pages w :=
  hh.make w (Drive.checked_opacity bounds) ha

theorem makeCustom (callback : Callback) {alpha : Option (Ref .alpha)}
    (ha : ∀ a, alpha = some a → w.stage.isAlive (.alpha a)) :
    (Script.makeCustom host callback alpha).Passes pages w :=
  hh.make w (Drive.checked_custom callback) ha

theorem setScaleBounds (b : Ref .behaviour) (corners : Corners Fixed) :
    (Script.setScaleBounds host b corners).Passes pages w := by
  refine passes_bind (passes_check _) fun bounds w run _ => passes_stage_bind ?_
  have accepted : corners.toBounds = .ok bounds := by
    cases e : corners.toBounds <;> rw [e] at run <;> cases run
    rfl
  split
  · refine passes_change_bind (.single (.setDrive fun _ => ?_)) (hh.flush _ _ _)
    exact Drive.checked_scale accepted _
  · exact passes_pure ()

theorem setGravity (b : Ref .behaviour) (gravity : Gravity) :
    (Script.setGravity host b gravity).Passes pages w := by
  apply passes_stage_bind
  split
  · next bounds old e =>
      split
      · exact passes_pure ()
      · refine passes_change_bind (.single (.setDrive fun checked => ?_)) (hh.notify _ _ _)
        exact Drive.checked_scale (checked _ _ e) gravity
  · exact passes_pure ()

theorem setOpacityBounds (b : Ref .behaviour) (bounds : Range UInt8) :
    (Script.setOpacityBounds host b bounds).Passes pages w := by
  apply passes_stage_bind
  split
  · refine passes_change_bind (.single (.setDrive fun _ => ?_)) (hh.flush _ _ _)
    exact Drive.checked_opacity bounds
  · exact passes_pure ()

theorem respond (m : Ref .emitter) (event : String) (payload : Payload) (h : Handler) :
    (Script.respond host m event payload h).Passes pages w := by
  unfold Script.respond
  split
  · exact passes_bind (hh.called _ _ w) fun _ _ _ _ => passes_pure _
  · exact passes_note_bind (passes_pure _)

theorem offer (m : Ref .emitter) (event : String) (payload : Payload) (h : Handler) :
    (Script.offer host m event payload h).Passes pages w := by
  apply passes_bind (hh.respond w m event payload h)
  intro job w _ _
  apply passes_bind (passes_produce (moves_spawn w.stage job))
  intro k _ _ _
  cases k with
  | none => exact passes_note _
  | some k => exact passes_pure ()

theorem emit (m : Ref .emitter) (event : String) (payload : Payload) :
    (Script.emit host m event payload).Passes pages w := by
  refine passes_bind (passes_await m) fun row w _ _ => passes_note_bind ?_
  split
  · exact passes_pure ()
  · refine passes_holding (fun b hb => ?_) (passes_bind (passes_hold true m) fun _ w' _ _ => ?_)
    · exact absurd hb (behaviour_not_mem_timelines _ b)
    · exact passes_thenTidy (passes_forEach (fun h w => hh.offer w m event payload h) _ _)
        fun _ => .single (.modifyEmitter ..)

theorem announce (t : Ref .timeline) (event : TimelineEvent) (payload : Payload) :
    (Script.announce host t event payload).Passes pages w :=
  passes_stage_bind (hh.emit w _ _ _)

omit hh in
theorem escort {visit : Ref .actor → Script υ Unit} (h : ∀ a w, (visit a).Passes pages w)
    (actors : List (Ref .actor)) (w : World υ) : (Script.escort visit actors).Passes pages w := by
  induction actors generalizing w with
  | nil => exact passes_pure ()
  | cons a rest ih =>
      refine passes_bind (passes_attempt (passes_thenTidy (h a w) fun _ =>
        .single (.release _))) fun outcome w' _ _ => ?_
      cases outcome with
      | ok _ => exact ih w'
      | error cause =>
          exact passes_change_bind (Stage.moves_releaseAll _ _) (passes_throw _)

omit hh in
theorem forEachActor {visit : Ref .actor → Script υ Unit}
    (h : ∀ a w, (visit a).Passes pages w) (c : Ref .core) :
    (Script.forEachActor c visit).Passes pages w := by
  apply passes_bind (passes_produce (.single (w.stage.move_pruneActors c)))
  intro actors w' _ _
  refine passes_change_bind (Stage.moves_retainAll fun b hb => ?_) (escort h actors _)
  obtain ⟨a, _, e⟩ := List.mem_map.1 hb
  exact nomatch e

theorem ask (a : Ref .actor) (call : ActorCall) : (Script.ask host a call).Passes pages w :=
  passes_change_bind (.single (.ask a call)) (hh.reacts a call _)

theorem askScale (a : Ref .actor) (gravity : Gravity) (x y : Double) :
    (Script.askScale host a gravity x y).Passes pages w := by
  unfold Script.askScale
  split
  · exact passes_bind (hh.ask w a _) fun _ w _ _ => hh.ask w a _
  · exact hh.ask w a _

theorem drive (b : Ref .behaviour) (alpha : Nat) : (Script.drive host b alpha).Passes pages w := by
  apply passes_stage_bind
  dsimp only
  split
  · exact passes_bind (passes_check _) fun _ w' _ _ =>
      forEachActor w' (fun a w => hh.askScale w a _ _ _) _
  · exact passes_bind (passes_check _) fun _ w' _ _ =>
      forEachActor w' (fun a w => hh.ask w a _) _
  · exact hh.driven _ alpha w

theorem tick (b : Ref .behaviour) : (Script.tick host b).Passes pages w := by
  apply passes_stage_bind
  dsimp only
  split
  · exact passes_pure ()
  · refine passes_holding (fun b hb => nomatch List.mem_singleton.1 hb) ?_
    exact passes_note_bind (hh.drive _ b _)

/-- A behaviour that is there can be held while it is ticked. -/
theorem holdingTick {b : Ref .behaviour} (h : w.stage.isAlive (.behaviour b)) :
    (holding [.behaviour b] (Script.tick host b)).Passes pages w := by
  refine passes_holding (fun b' hb => ?_) (hh.tick _ b)
  cases List.mem_singleton.1 hb
  exact h

theorem tickEach (entries : List Attachment) :
    (Script.tickEach host entries).Passes pages w := by
  induction entries generalizing w with
  | nil => exact passes_pure []
  | cons e rest ih =>
      apply passes_stage_bind
      split
      · next alive => exact passes_bind (hh.holdingTick w alive) fun _ w' _ _ => ih w'
      · exact passes_bind (ih w) fun _ _ _ _ => passes_pure _

/-- The numbers that come of a round of ticks are those of entries that are on record, and
whose behaviours are gone. -/
theorem gone_of_tickEach {t : Ref .timeline} {entries : List Attachment} {w w' : World υ}
    {ids : List Nat} (tied : w.stage.Tied)
    (recorded : ∀ e ∈ entries, Stage.Recorded t e w.stage)
    (added : ∀ e ∈ entries, e.behaviour.index < w.stage.behaviours.size)
    (run : (Script.tickEach host entries).run w = (.ok ids, w')) :
    ∀ id ∈ ids, ∃ e, e.id = id ∧ Stage.Recorded t e w'.stage ∧
      Stage.Gone e.behaviour w'.stage := by
  induction entries generalizing w ids with
  | nil =>
      cases run
      exact fun id h => nomatch h
  | cons e rest ih =>
      have recorded_rest := fun e he => recorded e (List.mem_cons_of_mem _ he)
      have added_rest := fun e he => added e (List.mem_cons_of_mem _ he)
      unfold Script.tickEach at run
      rw [run_stage_bind] at run
      split at run
      · next alive =>
          obtain ⟨_, w₁, first, last⟩ := exists_of_run_bind_eq_ok run
          have passed := hh.holdingTick w alive tied
          rw [first] at passed
          refine ih (passed.keeps Stage.Move.tied tied)
            (fun e he => passed.keeps (·.recorded) (recorded_rest e he)) (fun e he => ?_) last
          exact passed.keeps
            (fun move h => Nat.lt_of_lt_of_le h move.behaviours_size)
            (added_rest e he)
      · next gone =>
          obtain ⟨others, w₁, first, last⟩ := exists_of_run_bind_eq_ok run
          have passed := hh.tickEach w rest tied
          rw [first] at passed
          cases last
          intro id h
          rcases List.mem_cons.1 h with rfl | h
          · exact ⟨e, rfl, passed.keeps (·.recorded) (recorded e (List.mem_cons_self ..)),
              passed.keeps (·.gone) ⟨added e (List.mem_cons_self ..), gone⟩⟩
          · exact ih tied recorded_rest added_rest first id h

theorem tickAttached (t : Ref .timeline) : (Script.tickAttached host t).Passes pages w := by
  intro tied
  refine passes_stage_bind (passes_bind (hh.tickEach w _) fun ids w' run _ => ?_) tied
  split
  · exact passes_pure ()
  · refine passes_note_bind (passes_change (.single (.prune fun e he same => ?_)))
    have gone := hh.gone_of_tickEach tied (fun e he => .of_tied tied he)
      (fun e he => tied.behaviour_lt he) run
    obtain ⟨e', same', recorded, gone⟩ := gone e.id same
    have eq := recorded.unique e he same'.symm
    rw [eq]
    exact gone.not_alive

theorem concludeFrame (t : Ref .timeline) (played : Clock) :
    (Script.concludeFrame host t played).Passes pages w := by
  apply passes_bind (hh.announce w _ _ _)
  intro _ w _ _
  split
  · apply passes_bind (hh.announce w _ _ _)
    intro _ w _ _
    split
    · exact passes_change_bind (.single (.turn .rewind)) (passes_pure _)
    · exact passes_pure _
  · exact passes_pure _

theorem nextFrame (t : Ref .timeline) : (Script.nextFrame host t).Passes pages w := by
  apply passes_stage_bind
  dsimp only
  split
  · exact passes_pure _
  · apply passes_bind (passes_check _)
    intro played w' run _
    cases e : (w.stage.clock t).step with
    | error cause =>
        rw [e] at run
        exact nomatch run
    | ok c =>
        rw [e] at run
        cases run
        exact passes_change_bind (.single (.turn (.step e))) (passes_note_bind
          (passes_bind (hh.tickAttached _ t) fun _ w _ _ => hh.concludeFrame w t _))

theorem launch (t : Ref .timeline) : (Script.launch host t).Passes pages w := by
  refine passes_stage_bind (passes_note_bind (passes_bind (hh.announce _ _ _ _) fun _ w _ _ => ?_))
  apply passes_bind (passes_produce (moves_spawn _ _))
  intro k w _ _
  cases k with
  | none => exact passes_pure _
  | some k => exact passes_change_bind (.single (.setPlayback t _)) (passes_pure _)

theorem start (t : Ref .timeline) : (Script.start host t).Passes pages w := by
  apply passes_stage_bind
  split
  · exact passes_pure _
  · apply passes_stage_bind
    dsimp only
    split
    · exact passes_change_bind (.single (.turn .rewind)) (hh.launch _ t)
    · exact hh.launch _ t

theorem pause (t : Ref .timeline) : (Script.pause host t).Passes pages w := by
  refine passes_stage_bind (passes_change_bind (moves_cancelPlayback _ t) ?_)
  split
  · exact passes_stage_bind (passes_note_bind (hh.announce _ _ _ _))
  · exact passes_pure _

theorem stop (t : Ref .timeline) : (Script.stop host t).Passes pages w :=
  passes_bind (hh.pause w t) fun _ _ _ _ => passes_change (.single (.turn .rewind))

section Turns

variable (resume : ∀ code w, (host.resume code).Passes pages w)

include resume

theorem work (k : Ref .task) (row : Task) : (Script.work host k row).Passes pages w := by
  unfold Script.work
  split
  · exact passes_pure ()
  · exact passes_conclude _ k
  · exact passes_stage_bind (passes_rest k _)
  · apply passes_bind (passes_attempt (hh.nextFrame w _))
    intro outcome w _ _
    split
    · exact passes_rest k _
    · exact passes_conclude _ k
    · exact passes_conclude _ k
  · apply passes_bind (passes_attempt (resume _ w))
    intro outcome w _ _
    split
    · exact passes_stage_bind (passes_rest k _)
    · exact passes_conclude _ k
    · exact passes_conclude _ k

theorem takeTurn (k : Ref .task) : (Script.takeTurn host k).Passes pages w := by
  apply passes_stage_bind
  dsimp only
  split
  · split
    · exact passes_conclude _ k
    · exact hh.work w resume k _
  · exact passes_pure ()

end Turns

end Host.Passing

end Animation
