/-
# What scripts do to tasks

Whoever uses the library can have tasks spawned and can tell tasks to end. Nothing else that the
library offers touches a task, the queue or the channel: it is done aside. So whatever a script
does, to any depth of callbacks, comes down to these three kinds of steps, and how they alternate
with the steps of others can be studied without the rest of the stage.
-/

import Animation.Proofs.Stage.Reachable

namespace Animation

namespace Stage

/-- One step as far as tasks are concerned. -/
inductive Stir (s : Stage) : Stage → Prop
  | aside {s' : Stage} (tasks : s'.tasks = s.tasks) (agenda : s'.agenda = s.agenda) : Stir s s'
  | spawn (job : Job) : Stir s (s.spawn job).1
  | abort (k : Ref .task) : Stir s (s.abort k)

/-- Any number of such steps. -/
abbrev Stirs : Stage → Stage → Prop := Relation.ReflTransGen Stir

variable {s s' : Stage}

theorem Stirs.aside (tasks : s'.tasks = s.tasks) (agenda : s'.agenda = s.agenda) : s.Stirs s' :=
  .single (.aside tasks agenda)

theorem Rehandled.stirs (h : s.Rehandled s') : s.Stirs s' := .aside h.tasks h.agenda

theorem stirs_unbind (s : Stage) (c : Ref .core) : s.Stirs (s.unbind c) := by
  unfold unbind
  split
  · exact .refl
  · next a entry _ =>
      have detached : s.Stirs ((s.detach (s.alphas.get a).timeline [entry]).setBinding c none) :=
        .aside rfl rfl
      exact detached.trans (rehandled_release _ (.alpha a)).stirs

theorem stirs_rebind (s : Stage) (b : Ref .behaviour) (alpha : Option (Ref .alpha)) :
    s.Stirs (s.rebind b alpha) := by
  unfold rebind
  cases alpha with
  | none => exact stirs_unbind s _
  | some a =>
      have unbound := (s.rehandled_retain (.alpha a)).stirs.trans
        (stirs_unbind _ (s.behaviours.get b).core)
      exact unbound.tail (.aside rfl rfl)

theorem stirs_cancelPlayback (s : Stage) (t : Ref .timeline) : s.Stirs (s.cancelPlayback t) := by
  unfold cancelPlayback
  split
  · next k _ =>
      have forgotten : s.Stirs (s.setPlayback t none) := .aside rfl rfl
      exact forgotten.tail (.abort k)
  · exact .refl

theorem stirs_applyActor (s : Stage) (c : Ref .core) (a : Ref .actor) :
    s.Stirs (s.applyActor c a) := by
  unfold applyActor
  dsimp only
  split <;> exact .aside rfl rfl

theorem stirs_removeActor (s : Stage) (c : Ref .core) (a : Ref .actor) :
    s.Stirs (s.removeActor c a) := by
  unfold removeActor
  dsimp only
  split <;> exact .aside rfl rfl

end Stage

namespace Script

variable {υ α β : Type}

/-- A script only ever stirs tasks. -/
def Stirring (x : Script υ α) : Prop := ∀ w : World υ, w.stage.Stirs (x.run w).2.stage

theorem stirring_pure (a : α) : (pure a : Script υ α).Stirring := fun _ => .refl

theorem stirring_throw (fault : Fault) : (throw fault : Script υ α).Stirring := fun _ => .refl

theorem stirring_bind {x : Script υ α} {f : α → Script υ β} (hx : x.Stirring)
    (hf : ∀ a, (f a).Stirring) : (x >>= f).Stirring := by
  intro w
  rw [run_bind]
  split
  · exact (hx w).trans (hf _ _)
  · exact hx w

theorem stirring_stage_bind {f : Stage → Script υ β} (hf : ∀ s, (f s).Stirring) :
    (stage >>= f).Stirring := fun w => hf w.stage w

theorem stirring_change {f : Stage → Stage} (h : ∀ s : Stage, s.Stirs (f s)) :
    (change f : Script υ Unit).Stirring := fun w => h w.stage

theorem stirring_produce {f : Stage → Stage × α} (h : ∀ s : Stage, s.Stirs (f s).1) :
    (produce f : Script υ α).Stirring := fun w => h w.stage

/-- A change that leaves tasks, queue and channel alone. -/
theorem stirring_aside {f : Stage → Stage} (tasks : ∀ s, (f s).tasks = s.tasks)
    (agenda : ∀ s, (f s).agenda = s.agenda) : (change f : Script υ Unit).Stirring :=
  stirring_change fun s => .aside (tasks s) (agenda s)

theorem stirring_note (what : Occurrence) : (note what : Script υ Unit).Stirring :=
  stirring_aside (fun _ => rfl) fun _ => rfl

theorem stirring_check (r : Except Violation α) : (check r : Script υ α).Stirring := by
  cases r with
  | ok a => exact stirring_pure a
  | error cause => exact stirring_throw _

theorem stirring_retainAll (handles : List Handle) :
    (change (·.retainAll handles) : Script υ Unit).Stirring :=
  stirring_change fun s => (s.rehandled_retainAll handles).stirs

theorem stirring_releaseAll (handles : List Handle) :
    (change (·.releaseAll handles) : Script υ Unit).Stirring :=
  stirring_change fun s => (s.rehandled_releaseAll handles).stirs

theorem stirring_thenTidy {x : Script υ α} {tidy : Stage → Stage} (hx : x.Stirring)
    (h : ∀ s : Stage, s.Stirs (tidy s)) : (x.thenTidy tidy).Stirring :=
  fun w => (hx w).trans (h _)

theorem stirring_holding (handles : List Handle) {x : Script υ α} (hx : x.Stirring) :
    (holding handles x).Stirring :=
  stirring_bind (stirring_retainAll handles) fun _ =>
    stirring_thenTidy hx fun s => (s.rehandled_releaseAll handles).stirs

theorem stirring_attempt {x : Script υ α} (hx : x.Stirring) : x.attempt.Stirring := by
  intro w
  rw [run_attempt_snd]
  exact hx w

theorem stirring_forEach {visit : β → Script υ Unit} (h : ∀ b, (visit b).Stirring)
    (list : List β) : (forEach visit list).Stirring := by
  induction list with
  | nil => exact stirring_pure ()
  | cons b rest ih => exact stirring_bind (h b) fun _ => ih

theorem stirring_owning (handles : List Handle) {x : Script υ α} (hx : x.Stirring) :
    (owning handles x).Stirring := by
  refine stirring_stage_bind fun s => ?_
  split
  · exact stirring_bind (stirring_holding handles hx) fun _ => stirring_pure _
  · exact stirring_pure _

theorem stirring_await (m : Ref .emitter) : (await m : Script υ Emitter).Stirring := by
  refine stirring_stage_bind fun s => ?_
  dsimp only
  split
  · exact stirring_throw _
  · exact stirring_pure _

theorem stirring_modifyEmitter (m : Ref .emitter) (f : Emitter → Emitter) :
    (change (·.modifyEmitter m f) : Script υ Unit).Stirring :=
  stirring_aside (fun _ => rfl) fun _ => rfl

theorem stirring_changeClock (t : Ref .timeline) (f : Clock → Clock) :
    (changeClock t f : Script υ Unit).Stirring :=
  stirring_aside (fun _ => rfl) fun _ => rfl

theorem stirring_tryClock (t : Ref .timeline) (f : Clock → Except TimelineError Clock) :
    (tryClock t f : Script υ _).Stirring := by
  refine stirring_stage_bind fun s => ?_
  split
  · exact stirring_bind (stirring_aside (fun _ => rfl) fun _ => rfl) fun _ => stirring_pure _
  · exact stirring_pure _

theorem stirring_skip (t : Ref .timeline) (count : Nat) :
    (skip t count : Script υ Unit).Stirring :=
  stirring_stage_bind fun _ => stirring_bind (stirring_check _) fun _ =>
    stirring_aside (fun _ => rfl) fun _ => rfl

theorem stirring_escort {visit : Ref .actor → Script υ Unit} (h : ∀ a, (visit a).Stirring)
    (actors : List (Ref .actor)) : (escort visit actors).Stirring := by
  induction actors with
  | nil => exact stirring_pure ()
  | cons a rest ih =>
      refine stirring_bind (stirring_attempt (stirring_thenTidy (h a) fun s =>
        (s.rehandled_release (.actor a)).stirs)) fun outcome => ?_
      cases outcome with
      | ok _ => exact ih
      | error cause => exact stirring_bind (stirring_releaseAll _) fun _ => stirring_throw _

theorem stirring_forEachActor {visit : Ref .actor → Script υ Unit} (h : ∀ a, (visit a).Stirring)
    (c : Ref .core) : (forEachActor c visit).Stirring :=
  stirring_bind (stirring_produce fun _ => .aside rfl rfl) fun actors =>
    stirring_bind (stirring_retainAll _) fun _ => stirring_escort h actors

end Script

/-! ## Scripts that call back -/

/-- The callbacks of a host only ever stir tasks. -/
structure Host.Stirring {υ : Type} (host : Host υ) : Prop where
  notified : ∀ callback change, (host.notified callback change).Stirring
  called : ∀ callback payload, (host.called callback payload).Stirring
  driven : ∀ callback alpha, (host.driven callback alpha).Stirring
  reacts : ∀ a call, (host.reacts a call).Stirring

namespace Host.Stirring

open Script

variable {υ : Type} {host : Host υ} (hh : host.Stirring)

include hh

theorem notify (n : Ref .notifier) (change : Change) : (Script.notify host n change).Stirring :=
  stirring_stage_bind fun _ => stirring_bind (stirring_note _) fun _ =>
    stirring_forEach (fun callback => hh.notified callback change) _

theorem flush (n : Ref .notifier) (batch : Batch) : (Script.flush host n batch).Stirring :=
  stirring_forEach (hh.notify n) _

theorem bindTo (b : Ref .behaviour) (alpha : Option (Ref .alpha)) :
    (Script.bindTo host b alpha).Stirring := by
  refine stirring_stage_bind fun s => ?_
  dsimp only
  split
  · exact stirring_pure ()
  · exact stirring_bind (stirring_change fun s => s.stirs_rebind b alpha) fun _ =>
      stirring_bind (stirring_note _) fun _ => hh.notify _ _

/-- A new behaviour is bound. -/
theorem make (drive : Drive) (alpha : Option (Ref .alpha)) :
    (produce (·.addBehaviour drive) >>= fun b => do
      Script.bindTo host b alpha
      return b).Stirring :=
  stirring_bind (stirring_produce fun _ => .aside rfl rfl) fun b =>
    stirring_bind (hh.bindTo b alpha) fun _ => stirring_pure _

theorem setScaleBounds (b : Ref .behaviour) (corners : Corners Fixed) :
    (Script.setScaleBounds host b corners).Stirring := by
  refine stirring_bind (stirring_check _) fun bounds => stirring_stage_bind fun s => ?_
  split
  · exact stirring_bind (stirring_aside (fun _ => rfl) fun _ => rfl) fun _ => hh.flush _ _
  · exact stirring_pure ()

theorem setGravity (b : Ref .behaviour) (gravity : Gravity) :
    (Script.setGravity host b gravity).Stirring := by
  refine stirring_stage_bind fun s => ?_
  split
  · split
    · exact stirring_pure ()
    · exact stirring_bind (stirring_aside (fun _ => rfl) fun _ => rfl) fun _ => hh.notify _ _
  · exact stirring_pure ()

theorem setOpacityBounds (b : Ref .behaviour) (bounds : Range UInt8) :
    (Script.setOpacityBounds host b bounds).Stirring := by
  refine stirring_stage_bind fun s => ?_
  split
  · exact stirring_bind (stirring_aside (fun _ => rfl) fun _ => rfl) fun _ => hh.flush _ _
  · exact stirring_pure ()

theorem respond (m : Ref .emitter) (event : String) (payload : Payload) (h : Handler) :
    (Script.respond host m event payload h).Stirring := by
  unfold Script.respond
  split
  · exact stirring_bind (hh.called _ _) fun _ => stirring_pure _
  · exact stirring_bind (stirring_note _) fun _ => stirring_pure _

theorem offer (m : Ref .emitter) (event : String) (payload : Payload) (h : Handler) :
    (Script.offer host m event payload h).Stirring := by
  refine stirring_bind (hh.respond m event payload h) fun job =>
    stirring_bind (stirring_produce fun s => .single (.spawn job)) fun k => ?_
  cases k with
  | none => exact stirring_note _
  | some k => exact stirring_pure ()

theorem emit (m : Ref .emitter) (event : String) (payload : Payload) :
    (Script.emit host m event payload).Stirring := by
  refine stirring_bind (stirring_await m) fun row => stirring_bind (stirring_note _) fun _ => ?_
  split
  · exact stirring_pure ()
  · exact stirring_holding _ (stirring_bind (stirring_modifyEmitter m _) fun _ =>
      stirring_thenTidy (stirring_forEach (hh.offer m event payload) _) fun _ => .aside rfl rfl)

theorem announce (t : Ref .timeline) (event : TimelineEvent) (payload : Payload) :
    (Script.announce host t event payload).Stirring :=
  stirring_stage_bind fun _ => hh.emit _ _ _

theorem ask (a : Ref .actor) (call : ActorCall) : (Script.ask host a call).Stirring :=
  stirring_bind (stirring_aside (fun _ => rfl) fun _ => rfl) fun _ => hh.reacts a call

theorem askScale (a : Ref .actor) (gravity : Gravity) (x y : Double) :
    (Script.askScale host a gravity x y).Stirring := by
  unfold Script.askScale
  split
  · exact stirring_bind (hh.ask a _) fun _ => hh.ask a _
  · exact hh.ask a _

theorem drive (b : Ref .behaviour) (alpha : Nat) : (Script.drive host b alpha).Stirring := by
  refine stirring_stage_bind fun s => ?_
  dsimp only
  split
  · exact stirring_bind (stirring_check _) fun _ =>
      stirring_forEachActor (fun a => hh.askScale a _ _ _) _
  · exact stirring_bind (stirring_check _) fun _ => stirring_forEachActor (fun a => hh.ask a _) _
  · exact hh.driven _ alpha

theorem tick (b : Ref .behaviour) : (Script.tick host b).Stirring := by
  refine stirring_stage_bind fun s => ?_
  dsimp only
  split
  · exact stirring_pure ()
  · exact stirring_holding _ (stirring_bind (stirring_note _) fun _ => hh.drive b _)

theorem tickEach (entries : List Attachment) : (Script.tickEach host entries).Stirring := by
  induction entries with
  | nil => exact stirring_pure []
  | cons e rest ih =>
      refine stirring_stage_bind fun s => ?_
      split
      · exact stirring_bind (stirring_holding _ (hh.tick e.behaviour)) fun _ => ih
      · exact stirring_bind ih fun _ => stirring_pure _

theorem tickAttached (t : Ref .timeline) : (Script.tickAttached host t).Stirring := by
  refine stirring_stage_bind fun s => stirring_bind (hh.tickEach _) fun gone => ?_
  split
  · exact stirring_pure ()
  · exact stirring_bind (stirring_note _) fun _ => stirring_aside (fun _ => rfl) fun _ => rfl

theorem concludeFrame (t : Ref .timeline) (played : Clock) :
    (Script.concludeFrame host t played).Stirring := by
  refine stirring_bind (hh.announce t .newFrame _) fun _ => ?_
  split
  · refine stirring_bind (hh.announce t .completed _) fun _ => ?_
    split
    · exact stirring_bind (stirring_aside (fun _ => rfl) fun _ => rfl) fun _ => stirring_pure _
    · exact stirring_pure _
  · exact stirring_pure _

theorem nextFrame (t : Ref .timeline) : (Script.nextFrame host t).Stirring := by
  refine stirring_stage_bind fun s => ?_
  dsimp only
  split
  · exact stirring_pure _
  · exact stirring_bind (stirring_check _) fun played =>
      stirring_bind (stirring_aside (fun _ => rfl) fun _ => rfl) fun _ =>
        stirring_bind (stirring_note _) fun _ =>
          stirring_bind (hh.tickAttached t) fun _ => hh.concludeFrame t played

theorem launch (t : Ref .timeline) : (Script.launch host t).Stirring := by
  refine stirring_stage_bind fun s => stirring_bind (stirring_note _) fun _ =>
    stirring_bind (hh.announce t .started _) fun _ =>
      stirring_bind (stirring_produce fun s => .single (.spawn _)) fun k => ?_
  cases k with
  | none => exact stirring_pure _
  | some k =>
      exact stirring_bind (stirring_aside (fun _ => rfl) fun _ => rfl) fun _ => stirring_pure _

theorem start (t : Ref .timeline) : (Script.start host t).Stirring := by
  refine stirring_stage_bind fun s => ?_
  split
  · exact stirring_pure _
  · refine stirring_stage_bind fun s' => ?_
    dsimp only
    split
    · exact stirring_bind (stirring_aside (fun _ => rfl) fun _ => rfl) fun _ => hh.launch t
    · exact hh.launch t

theorem pause (t : Ref .timeline) : (Script.pause host t).Stirring := by
  refine stirring_stage_bind fun s =>
    stirring_bind (stirring_change fun s => s.stirs_cancelPlayback t) fun _ => ?_
  split
  · exact stirring_stage_bind fun _ => stirring_bind (stirring_note _) fun _ =>
      hh.announce t .paused _
  · exact stirring_pure ()

theorem stop (t : Ref .timeline) : (Script.stop host t).Stirring :=
  stirring_bind (hh.pause t) fun _ => stirring_aside (fun _ => rfl) fun _ => rfl

/-- Whatever the library offers only stirs tasks. -/
theorem offered {α : Type} {handles : List Handle} {x : Script υ α}
    (h : Offered host handles x) : x.Stirring := by
  cases h with
  | retain handle => exact stirring_change fun s => (s.rehandled_retain handle).stirs
  | release handle => exact stirring_change fun s => (s.rehandled_release handle).stirs
  | setDuration t _ | setRepeats t _ | setDirection t _ | rewind t =>
      exact stirring_changeClock t _
  | setFps t _ | advance t _ => exact stirring_tryClock t _
  | skip t count => exact stirring_skip t count
  | nextFrame t => exact hh.nextFrame t
  | start t => exact hh.start t
  | pause t => exact hh.pause t
  | stop t => exact hh.stop t
  | addAlpha t easing =>
      exact stirring_produce fun s =>
        .tail (s.rehandled_retain (.timeline t)).stirs (.aside rfl rfl)
  | makeScale corners gravity alpha =>
      exact stirring_bind (stirring_check _) fun _ => hh.make _ alpha
  | makeOpacity _ alpha | makeCustom _ alpha => exact hh.make _ alpha
  | bindTo b alpha => exact hh.bindTo b alpha
  | setScaleBounds b corners => exact hh.setScaleBounds b corners
  | setGravity b gravity => exact hh.setGravity b gravity
  | setOpacityBounds b bounds => exact hh.setOpacityBounds b bounds
  | drive b alpha => exact hh.drive b alpha
  | tick b => exact hh.tick b
  | ask a call => exact hh.ask a call
  | applyActor c a => exact stirring_change fun s => s.stirs_applyActor c a
  | removeActor c a => exact stirring_change fun s => s.stirs_removeActor c a
  | notify n change => exact hh.notify n change
  | flush n batch => exact hh.flush n batch
  | registerHandler m event accepts callback =>
      exact stirring_bind (stirring_await m) fun _ =>
        stirring_bind (stirring_modifyEmitter m _) fun _ => stirring_pure _
  | unregisterHandler m id =>
      exact stirring_bind (stirring_await m) fun _ => stirring_modifyEmitter m _
  | emit m event payload => exact hh.emit m event payload
  | spawn job => exact stirring_produce fun s => .single (.spawn job)
  | abort k => exact stirring_change fun s => .single (.abort k)
  | setEasing _ _ | clearActors _ | register _ _ _ | unregister _ _ =>
      exact stirring_aside (fun _ => rfl) fun _ => rfl
  | addTimeline _ | addCore | addActor _ | gatherActors _ | addNotifier | addEmitter =>
      exact stirring_produce fun _ => .aside rfl rfl

end Host.Stirring

/-- Users of a stage only ever stir tasks. -/
theorem Script.Course.stirring {υ α : Type} {pages : υ → List Stage} {x : Script υ α}
    (course : Script.Course pages x) : x.Stirring := by
  induction course with
  | call offered _ _ _ _ notified called driven reacts =>
      exact stirring_owning _ (Host.Stirring.offered ⟨notified, called, driven, reacts⟩ offered)
  | visit _ ih => exact stirring_owning _ (stirring_forEachActor ih _)
  | look => exact fun _ => .refl
  | write _ => exact fun _ => .refl
  | pure a => exact stirring_pure a
  | bind _ _ hx hf => exact stirring_bind hx hf
  | breakOff fault => exact stirring_throw fault
  | goOn _ ih => exact stirring_attempt ih

end Animation
