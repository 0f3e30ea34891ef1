/-
# Scripts that settle their accounts

A script settles its accounts if they are settled once it has run, in whatever way it ends,
provided that they were settled before and that the handles it needs are held by its caller. All
that the library does settles its accounts if its callbacks do so without needing any handle: what
they need they have by name.
-/

import Animation.Proofs.Custody.Settled

namespace Animation

variable {υ α β : Type} {turn : Option Turn} {debts needs : List Handle} {w : World (Owner υ)}

namespace Script

/-- The accounts are settled after a script, if the caller has the handles that it needs. -/
def Settles (needs : List Handle) (x : Script (Owner υ) α) : Prop :=
  ∀ turn debts w, needs ⊆ debts → Settled turn debts w → Settled turn debts (x.run w).2

theorem Settles.mono {more : List Handle} {x : Script (Owner υ) α} (hx : x.Settles needs)
    (sub : needs ⊆ more) : x.Settles more :=
  fun turn debts w held => hx turn debts w (List.Subset.trans sub held)

theorem settles_pure (a : α) : (pure a : Script (Owner υ) α).Settles needs :=
  fun _ _ _ _ settled => settled

theorem settles_throw (fault : Fault) : (throw fault : Script (Owner υ) α).Settles needs :=
  fun _ _ _ _ settled => settled

theorem settles_bind {x : Script (Owner υ) α} {f : α → Script (Owner υ) β} (hx : x.Settles needs)
    (hf : ∀ a, (f a).Settles needs) : (x >>= f).Settles needs := by
  intro turn debts w held settled
  rw [run_bind]
  split
  · exact hf _ _ _ _ held (hx _ _ _ held settled)
  · exact hx _ _ _ held settled

theorem settles_stage_bind {f : Stage → Script (Owner υ) β} (hf : ∀ s, (f s).Settles needs) :
    (stage >>= f).Settles needs :=
  fun turn debts w held settled => hf w.stage turn debts w held settled

theorem settles_quiet {f : Stage → Stage} (quiet : ∀ s : Stage, s.Quiet (f s)) :
    (change f : Script (Owner υ) Unit).Settles needs :=
  fun _ _ w _ settled => settled.quiet (quiet w.stage)

theorem settles_quietly {f : Stage → Stage × α} (quiet : ∀ s : Stage, s.Quiet (f s).1) :
    (produce f : Script (Owner υ) α).Settles needs :=
  fun _ _ w _ settled => settled.quiet (quiet w.stage)

theorem settles_note (what : Occurrence) : (note what : Script (Owner υ) Unit).Settles needs :=
  settles_quiet fun s => .note s what

theorem settles_check (r : Except Violation α) : (check r : Script (Owner υ) α).Settles needs := by
  cases r with
  | ok a => exact settles_pure a
  | error cause => exact settles_throw _

theorem settles_thenTidy {x : Script (Owner υ) α} {tidy : Stage → Stage} (hx : x.Settles needs)
    (quiet : ∀ s : Stage, s.Quiet (tidy s)) : (x.thenTidy tidy).Settles needs :=
  fun turn debts w held settled => (hx turn debts w held settled).quiet (quiet _)

theorem settles_attempt {x : Script (Owner υ) α} (hx : x.Settles needs) :
    x.attempt.Settles needs := by
  intro turn debts w held settled
  rw [run_attempt_snd]
  exact hx turn debts w held settled

theorem settles_forEach {visit : β → Script (Owner υ) Unit} (h : ∀ b, (visit b).Settles needs)
    (list : List β) : (forEach visit list).Settles needs := by
  induction list with
  | nil => exact settles_pure ()
  | cons b rest ih => exact settles_bind (h b) fun _ => ih

end Script

open Script in
/-- Handles on things that are alive are held while a script runs. -/
theorem Settled.holding (settled : Settled turn debts w) {handles : List Handle}
    (alive : ∀ h ∈ handles, w.stage.isAlive h = true) {x : Script (Owner υ) α}
    (hx : x.Settles handles) : Settled turn debts ((holding handles x).run w).2 :=
  (hx turn _ _ (List.subset_append_left ..) (settled.retainAll alive)).releaseAll

namespace Script

theorem settles_owning {handles : List Handle} {x : Script (Owner υ) α} (hx : x.Settles handles) :
    (owning handles x).Settles [] := by
  intro turn debts w _ settled
  unfold owning
  rw [run_stage_bind]
  split
  · next alive =>
      have held := settled.holding (List.all_eq_true.1 alive) hx
      rw [run_bind]
      split <;> exact held
  · exact settled

theorem settles_await (m : Ref .emitter) : (await m : Script (Owner υ) Emitter).Settles needs := by
  refine settles_stage_bind fun s => ?_
  dsimp only
  split
  · exact settles_throw _
  · exact settles_pure _

theorem settles_modifyEmitter (m : Ref .emitter) (f : Emitter → Emitter) :
    (change (·.modifyEmitter m f) : Script (Owner υ) Unit).Settles needs :=
  settles_quiet fun _ => .of_tables rfl rfl rfl rfl rfl

theorem settles_changeClock (t : Ref .timeline) (f : Clock → Clock) :
    (changeClock t f : Script (Owner υ) Unit).Settles needs :=
  settles_quiet fun s => .modifyTimeline s t (fun _ => rfl) fun _ => rfl

theorem settles_setClock (t : Ref .timeline) (clock : Clock) :
    (change (·.setClock t clock) : Script (Owner υ) Unit).Settles needs :=
  settles_quiet fun s => .modifyTimeline s t (fun _ => rfl) fun _ => rfl

theorem settles_tryClock (t : Ref .timeline) (f : Clock → Except TimelineError Clock) :
    (tryClock t f : Script (Owner υ) _).Settles needs := by
  refine settles_stage_bind fun s => ?_
  split
  · exact settles_bind (settles_setClock t _) fun _ => settles_pure _
  · exact settles_pure _

theorem settles_skip (t : Ref .timeline) (count : Nat) :
    (skip t count : Script (Owner υ) Unit).Settles needs :=
  settles_stage_bind fun _ => settles_bind (settles_check _) fun _ => settles_setClock t _

/-- A task is spawned whose handle the caller has, and that is reported. -/
theorem settles_spawn {job : Job} (held : job.handles ⊆ needs) :
    (produce (·.spawn job) : Script (Owner υ) _).Settles needs :=
  fun _ _ _ sub settled => settled.spawn job (List.Subset.trans held sub)

theorem settles_escort {visit : Ref .actor → Script (Owner υ) Unit}
    (h : ∀ a, (visit a).Settles needs) (actors : List (Ref .actor)) :
    (escort visit actors).Settles needs := by
  induction actors with
  | nil => exact settles_pure ()
  | cons a rest ih =>
      refine settles_bind (settles_attempt (settles_thenTidy (h a) fun s =>
        .releaseActors s [a])) fun outcome => ?_
      cases outcome with
      | ok _ => exact ih
      | error cause =>
          exact settles_bind (settles_quiet fun s => .releaseActors s rest) fun _ => settles_throw _

theorem settles_forEachActor {visit : Ref .actor → Script (Owner υ) Unit}
    (h : ∀ a, (visit a).Settles needs) (c : Ref .core) : (forEachActor c visit).Settles needs :=
  settles_bind (settles_quietly fun s => .setActors s c _) fun actors =>
    settles_bind (settles_quiet fun s => .retainActors s actors) fun _ => settles_escort h actors

end Script

/-- The callbacks of a host settle their accounts, and need no handle of the library. -/
structure Host.Settling (host : Host (Owner υ)) : Prop where
  notified : ∀ callback change, (host.notified callback change).Settles []
  called : ∀ callback payload, (host.called callback payload).Settles []
  driven : ∀ callback alpha, (host.driven callback alpha).Settles []
  reacts : ∀ a call, (host.reacts a call).Settles []

namespace Host.Settling

open Script

variable {host : Host (Owner υ)} (hh : host.Settling)

include hh

theorem notify (n : Ref .notifier) (change : Change) :
    (Script.notify host n change).Settles needs :=
  settles_stage_bind fun _ => settles_bind (settles_note _) fun _ =>
    settles_forEach (fun callback => (hh.notified callback change).mono (List.nil_subset _)) _

theorem flush (n : Ref .notifier) (batch : Batch) : (Script.flush host n batch).Settles needs :=
  settles_forEach (hh.notify n) _

theorem bindTo (b : Ref .behaviour) (alpha : Option (Ref .alpha)) :
    (Script.bindTo host b alpha).Settles (.behaviour b :: (alpha.map .alpha).toList) := by
  refine settles_stage_bind fun s => ?_
  dsimp only
  split
  · exact settles_pure ()
  · refine settles_bind (fun turn debts w held settled => settled.rebind ?_ ?_) fun _ =>
      settles_bind (settles_note _) fun _ => hh.notify _ _
    · exact held (List.mem_cons_self ..)
    · rintro a rfl
      exact held (List.mem_cons_of_mem _ (List.mem_singleton_self _))

theorem setScaleBounds (b : Ref .behaviour) (corners : Corners Fixed) :
    (Script.setScaleBounds host b corners).Settles needs := by
  refine settles_bind (settles_check _) fun bounds => settles_stage_bind fun s => ?_
  split
  · exact settles_bind (settles_quiet fun s => .setDrive s b _) fun _ => hh.flush _ _
  · exact settles_pure ()

theorem setGravity (b : Ref .behaviour) (gravity : Gravity) :
    (Script.setGravity host b gravity).Settles needs := by
  refine settles_stage_bind fun s => ?_
  split
  · split
    · exact settles_pure ()
    · exact settles_bind (settles_quiet fun s => .setDrive s b _) fun _ => hh.notify _ _
  · exact settles_pure ()

theorem setOpacityBounds (b : Ref .behaviour) (bounds : Range UInt8) :
    (Script.setOpacityBounds host b bounds).Settles needs := by
  refine settles_stage_bind fun s => ?_
  split
  · exact settles_bind (settles_quiet fun s => .setDrive s b _) fun _ => hh.flush _ _
  · exact settles_pure ()

/-- A handler is called, and a task is spawned that may keep the handle of the payload. -/
theorem offer (m : Ref .emitter) (event : String) (payload : Payload) (h : Handler) :
    (Script.offer host m event payload h).Settles payload.handles := by
  unfold Script.offer respond
  split
  · rw [bind_assoc]
    refine settles_bind ((hh.called _ _).mono (List.nil_subset _)) fun code => ?_
    rw [pure_bind]
    refine settles_bind (settles_spawn (List.Subset.refl _)) ?_
    rintro (_ | k)
    · exact settles_note _
    · exact settles_pure ()
  · rw [bind_assoc]
    refine settles_bind (settles_note _) fun _ => ?_
    rw [pure_bind]
    refine settles_bind (settles_spawn (List.nil_subset _)) ?_
    rintro (_ | k)
    · exact settles_note _
    · exact settles_pure ()

theorem emit (m : Ref .emitter) (event : String) (payload : Payload) :
    (Script.emit host m event payload).Settles payload.handles := by
  refine settles_bind (settles_await m) fun row => settles_bind (settles_note _) fun _ => ?_
  split
  · exact settles_pure ()
  · intro turn debts w held settled
    refine settled.holding (fun h mem => settled.isAlive (held mem) ?_)
      (settles_bind (settles_modifyEmitter m _) fun _ =>
        settles_thenTidy (settles_forEach (hh.offer m event payload) _) fun s =>
          .of_tables rfl rfl rfl rfl rfl)
    obtain ⟨t, -, rfl⟩ := Option.map_eq_some_iff.1 (Option.mem_toList.1 mem)
    rfl

theorem announce (t : Ref .timeline) (event : TimelineEvent) (payload : Payload) :
    (Script.announce host t event payload).Settles payload.handles :=
  settles_stage_bind fun _ => hh.emit _ _ _

theorem ask (a : Ref .actor) (call : ActorCall) : (Script.ask host a call).Settles needs :=
  settles_bind (settles_quiet fun _ => .of_tables rfl rfl rfl rfl rfl) fun _ =>
    (hh.reacts a call).mono (List.nil_subset _)

theorem askScale (a : Ref .actor) (gravity : Gravity) (x y : Double) :
    (Script.askScale host a gravity x y).Settles needs := by
  unfold Script.askScale
  split
  · exact settles_bind (hh.ask a _) fun _ => hh.ask a _
  · exact hh.ask a _

theorem drive (b : Ref .behaviour) (alpha : Nat) : (Script.drive host b alpha).Settles needs := by
  refine settles_stage_bind fun s => ?_
  dsimp only
  split
  · exact settles_bind (settles_check _) fun _ =>
      settles_forEachActor (fun a => hh.askScale a _ _ _) _
  · exact settles_bind (settles_check _) fun _ => settles_forEachActor (fun a => hh.ask a _) _
  · exact (hh.driven _ alpha).mono (List.nil_subset _)

/-- The alpha that a behaviour is bound to is alive, as the behaviour is. -/
theorem tick (b : Ref .behaviour) : (Script.tick host b).Settles [.behaviour b] := by
  intro turn debts w held settled
  unfold Script.tick
  rw [run_stage_bind]
  dsimp only
  split
  · exact settled
  · next a bound =>
      have alive := settled.isAlive (held (List.mem_singleton_self _)) rfl
      have core : w.stage.isAlive (.core (w.stage.coreOf b)) = true :=
        settled.balanced.isAlive_of_keeps rfl rfl alive (List.mem_singleton_self _)
      have alpha : w.stage.isAlive (.alpha a) = true := by
        refine settled.balanced.isAlive_of_keeps rfl rfl core ?_
        rw [Stage.keeps, Stage.coreOf, bound]
        exact List.mem_singleton_self _
      refine settled.holding (fun h mem => ?_) (settles_bind (settles_note _) fun _ => hh.drive b _)
      rw [List.mem_singleton.1 mem]
      exact alpha

theorem tickEach (entries : List Attachment) : (Script.tickEach host entries).Settles needs := by
  induction entries with
  | nil => exact settles_pure []
  | cons e rest ih =>
      intro turn debts w held settled
      unfold Script.tickEach
      rw [run_stage_bind]
      split
      · next alive =>
          have there : ∀ h ∈ [Handle.behaviour e.behaviour], w.stage.isAlive h = true :=
            fun h mem => by
              rw [List.mem_singleton.1 mem]
              exact alive
          have visited := settled.holding there (hh.tick e.behaviour)
          rw [run_bind]
          split
          · exact ih _ _ _ held visited
          · exact visited
      · exact settles_bind ih (fun _ => settles_pure _) _ _ _ held settled

theorem tickAttached (t : Ref .timeline) : (Script.tickAttached host t).Settles needs := by
  refine settles_stage_bind fun s => settles_bind (hh.tickEach _) fun gone => ?_
  split
  · exact settles_pure ()
  · exact settles_bind (settles_note _) fun _ => settles_quiet fun s => .detach s t _

theorem concludeFrame (t : Ref .timeline) (played : Clock) :
    (Script.concludeFrame host t played).Settles [.timeline t] := by
  refine settles_bind (hh.announce t .newFrame (.frame t played.frame)) fun _ => ?_
  split
  · refine settles_bind (hh.announce t .completed (.timeline t)) fun _ => ?_
    split
    · exact settles_bind (settles_changeClock t (·.rewind)) fun _ => settles_pure _
    · exact settles_pure _
  · exact settles_pure _

theorem nextFrame (t : Ref .timeline) : (Script.nextFrame host t).Settles [.timeline t] := by
  refine settles_stage_bind fun s => ?_
  dsimp only
  split
  · exact settles_pure _
  · exact settles_bind (settles_check _) fun played =>
      settles_bind (settles_setClock t played) fun _ => settles_bind (settles_note _) fun _ =>
        settles_bind (hh.tickAttached t) fun _ => hh.concludeFrame t played

theorem launch (t : Ref .timeline) : (Script.launch host t).Settles [.timeline t] := by
  refine settles_stage_bind fun s => settles_bind (settles_note _) fun _ =>
    settles_bind (hh.announce t .started (.timeline t)) fun _ => ?_
  intro turn debts w held settled
  have spawned := settled.spawn (.playback t (s.clock t).period) held
  rw [run_produce_bind]
  split
  · exact spawned
  · next k found =>
      refine spawned.setPlayback t (some k) fun j taken => ?_
      cases taken
      exact (Stage.get_of_spawn found).1

theorem start (t : Ref .timeline) : (Script.start host t).Settles [.timeline t] := by
  refine settles_stage_bind fun s => ?_
  split
  · exact settles_pure _
  · refine settles_stage_bind fun s' => ?_
    dsimp only
    split
    · exact settles_bind (settles_changeClock t (·.rewind)) fun _ => hh.launch t
    · exact hh.launch t

theorem pause (t : Ref .timeline) : (Script.pause host t).Settles [.timeline t] := by
  refine settles_stage_bind fun s =>
    settles_bind (fun turn debts w held settled => settled.cancelPlayback t) fun _ => ?_
  split
  · exact settles_stage_bind fun _ => settles_bind (settles_note _) fun _ =>
      hh.announce t .paused (.timeline t)
  · exact settles_pure ()

theorem stop (t : Ref .timeline) : (Script.stop host t).Settles [.timeline t] :=
  settles_bind (hh.pause t) fun _ => settles_changeClock t (·.rewind)

/-- A task that is given its turn gives back the handle of its job, or it keeps it. -/
theorem takeTurn (resume : ∀ code, (host.resume code).Settles []) {k : Ref .task}
    (settled : Settled none debts w) (added : k.index < w.stage.tasks.size) :
    Settled none debts ((Script.takeTurn host k).run w).2 := by
  unfold Script.takeTurn
  rw [run_stage_bind]
  dsimp only
  split
  · next runnable =>
      have begun := settled.begin added (Stage.hasEnded_of_isRunnable runnable)
      split
      · exact begun.conclude .aborted
      · unfold work
        split
        · exact settled
        · exact begun.conclude _
        · exact begun.rest _
        · next t period wake job phase =>
            rw [job] at begun
            have played := settles_attempt (hh.nextFrame t) _ _ _ (List.subset_append_left ..) begun
            rw [run_bind]
            split
            · split
              · exact played.rest _
              · exact played.conclude _
              · exact played.conclude _
            · exact played.resign
        · next code kept job unended' =>
            rw [job] at begun
            have resumed := settles_attempt (resume code) _ _ _ (List.nil_subset _) begun
            rw [run_bind]
            split
            · split
              · exact resumed.rest _
              · exact resumed.conclude _
              · exact resumed.conclude _
            · exact resumed.resign
  · exact settled

end Host.Settling

end Animation
