/-
# Regimes

Whatever the library does comes down to a few motions of the stage, to what is asked of actors, and
to calls of others. Most motions are made aside: listeners and handlers stay as they are registered,
tasks keep their jobs, actors are as they were up to the handles on them, and nothing is said of
handlers. The others register or unregister someone, or make room for it.

A regime relates worlds to later ones, and has every motion in it. Where the deliveries, the
emissions, the calls of a host and what is asked of actors are in it as well, so is all that the
library offers to those who use the host, and whatever they make of it.
-/

import Animation.Proofs.Stage.Reachable
import Animation.Proofs.Script.Pact

namespace Animation

namespace Stage

variable {s s' s'' : Stage}

/-- Tasks come, if there is a channel, and those that are there keep their jobs. -/
structure Grows (s s' : Stage) : Prop where
  tasks : s.tasks.size ≤ s'.tasks.size
  job : ∀ k, k.index < s.tasks.size → (s'.tasks.get k).job = (s.tasks.get k).job
  channel : s'.agenda.channel.isSome = s.agenda.channel.isSome

namespace Grows

theorem of_eq (tasks : s'.tasks = s.tasks) (agenda : s'.agenda = s.agenda) : s.Grows s' where
  tasks := Nat.le_of_eq (congrArg Table.size tasks.symm)
  job k _ := by rw [tasks]
  channel := by rw [agenda]

theorem refl (s : Stage) : s.Grows s := .of_eq rfl rfl

theorem trans (h : s.Grows s') (h' : s'.Grows s'') : s.Grows s'' where
  tasks := Nat.le_trans h.tasks h'.tasks
  job k added := (h'.job k (Nat.lt_of_lt_of_le added h.tasks)).trans (h.job k added)
  channel := h'.channel.trans h.channel

end Grows

/-- Actors may come, and those that are there are as they were, up to the handles on them. -/
structure Unasked (s s' : Stage) : Prop where
  size : s.actors.size ≤ s'.actors.size
  actor : ∀ x, x.index < s.actors.size →
    ∃ n, s'.actors.get x = { s.actors.get x with holders := n }

namespace Unasked

theorem of_eq (same : s'.actors = s.actors) : s.Unasked s' where
  size := Nat.le_of_eq (congrArg Table.size same.symm)
  actor _ _ := ⟨_, by rw [same]⟩

theorem refl (s : Stage) : s.Unasked s := .of_eq rfl

theorem trans (h : s.Unasked s') (h' : s'.Unasked s'') : s.Unasked s'' where
  size := Nat.le_trans h.size h'.size
  actor x made := by
    obtain ⟨n, row⟩ := h.actor x made
    obtain ⟨n', row'⟩ := h'.actor x (Nat.lt_of_lt_of_le made h.size)
    exact ⟨n', by rw [row', row]⟩

theorem retain (s : Stage) (h : Handle) : s.Unasked (s.retain h) where
  size := by
    cases h with
    | actor a => exact Table.size_le_size_modify ..
    | timeline | alpha | core | behaviour => exact Nat.le_refl _
  actor x _ := (s.rehandled_retain h).actor x

theorem release (s : Stage) (h : Handle) : s.Unasked (s.release h) where
  size := by
    cases h with
    | actor a => exact Table.size_le_size_modify ..
    | timeline => exact Nat.le_refl _
    | alpha a => exact Nat.le_of_eq (congrArg Table.size (actors_releaseAlpha s a).symm)
    | core c => exact Nat.le_of_eq (congrArg Table.size (actors_releaseCore s c).symm)
    | behaviour b => exact Nat.le_of_eq (congrArg Table.size (actors_releaseBehaviour s b).symm)
  actor x _ := (s.rehandled_release h).actor x

theorem addActor (s : Stage) (row : Actor) : s.Unasked (s.addActor row).1 where
  size := by
    show _ ≤ (s.actors.push _).size
    rw [Table.size_push]
    exact Nat.le_succ _
  actor x made := by
    have old : x ≠ s.actors.next := by
      rintro rfl
      exact Nat.lt_irrefl _ made
    exact ⟨_, (Table.get_push _ _ _).trans (if_neg old)⟩

end Unasked

/-- What is done aside of listeners, handlers and actors. Tasks may be spawned and told to end, and
anything may be noted that is not said of a handler. -/
structure Aside (s s' : Stage) : Prop extends s.Grows s', s.Unasked s' where
  notifiers : s'.notifiers = s.notifiers
  emitters : s'.emitters = s.emitters
  journal : ∃ notes, s'.journal = notes ++ s.journal ∧ ∀ e ∈ notes, e.what.isIncidental = false

namespace Aside

/-- Changes that leave all of it alone. -/
theorem of_eq (notifiers : s'.notifiers = s.notifiers) (emitters : s'.emitters = s.emitters)
    (tasks : s'.tasks = s.tasks) (agenda : s'.agenda = s.agenda)
    (journal : s'.journal = s.journal) (actors : s'.actors = s.actors) : s.Aside s' where
  toGrows := .of_eq tasks agenda
  toUnasked := .of_eq actors
  notifiers := notifiers
  emitters := emitters
  journal := ⟨[], journal, fun _ mem => nomatch mem⟩

theorem refl (s : Stage) : s.Aside s := .of_eq rfl rfl rfl rfl rfl rfl

theorem trans (h : s.Aside s') (h' : s'.Aside s'') : s.Aside s'' where
  toGrows := h.toGrows.trans h'.toGrows
  toUnasked := h.toUnasked.trans h'.toUnasked
  notifiers := h'.notifiers.trans h.notifiers
  emitters := h'.emitters.trans h.emitters
  journal := by
    obtain ⟨notes, first, silent⟩ := h.journal
    obtain ⟨notes', second, silent'⟩ := h'.journal
    refine ⟨notes' ++ notes, by rw [second, first, List.append_assoc], fun e mem => ?_⟩
    exact (List.mem_append.1 mem).elim (silent' e) (silent e)

theorem of_rehandled (h : s.Rehandled s') (unasked : s.Unasked s') : s.Aside s' where
  toGrows := .of_eq h.tasks h.agenda
  toUnasked := unasked
  notifiers := h.notifiers
  emitters := h.emitters
  journal := ⟨[], h.journal, fun _ mem => nomatch mem⟩

theorem retain (s : Stage) (h : Handle) : s.Aside (s.retain h) :=
  of_rehandled (s.rehandled_retain h) (.retain s h)

theorem retainAll (s : Stage) (handles : List Handle) : s.Aside (s.retainAll handles) := by
  induction handles generalizing s with
  | nil => exact .refl s
  | cons h rest ih => exact (retain s h).trans (ih _)

theorem release (s : Stage) (h : Handle) : s.Aside (s.release h) :=
  of_rehandled (s.rehandled_release h) (.release s h)

theorem releaseAll (s : Stage) (handles : List Handle) : s.Aside (s.releaseAll handles) := by
  induction handles generalizing s with
  | nil => exact .refl s
  | cons h rest ih => exact (release s h).trans (ih _)

theorem note (s : Stage) {what : Occurrence} (h : what.isIncidental = false) :
    s.Aside (s.note what) where
  __ := refl s
  journal := ⟨[⟨s.agenda.now, what⟩], rfl, fun e mem => by cases List.mem_singleton.1 mem; exact h⟩

/-- Nothing becomes of the job of a task. -/
theorem modifyTask (s : Stage) (k : Ref .task) {f : Task → Task}
    (job : ∀ row, (f row).job = row.job) : s.Aside (s.modifyTask k f) where
  __ := refl s
  tasks := s.tasks.size_le_size_modify k f
  job j _ := Table.proj_get_modify _ k j job

theorem requeue (s : Stage) (k : Ref .task) : s.Aside (s.requeue k) := { refl s with }

theorem setNow (s : Stage) (now : Nat) : s.Aside (s.setNow now) := { refl s with }

theorem drainChannel (s : Stage) : s.Aside (Script.drainChannel s) :=
  { refl s with channel := Option.isSome_map }

theorem spawn (s : Stage) (job : Job) : s.Aside (s.spawn job).1 := by
  unfold Stage.spawn
  split
  · exact .refl s
  · next reported some =>
      have retained := retainAll s job.handles
      have same := (s.rehandled_retainAll job.handles).tasks
      refine { retained with tasks := ?_, job := fun k added => ?_, channel := ?_ }
      · rw [Table.size_push, same]
        exact Nat.le_succ _
      · have old : k ≠ (s.retainAll job.handles).tasks.next := by
          rintro rfl
          rw [same] at added
          exact Nat.lt_irrefl _ added
        rw [Table.get_push, if_neg old, same]
      · rw [some]
        rfl

theorem abort (s : Stage) (k : Ref .task) : s.Aside (s.abort k) := by
  have told : s.Aside (s.modifyTask k fun row => { row with isAborted := true }) :=
    .modifyTask s k fun _ => rfl
  unfold Stage.abort
  dsimp only
  split
  · exact .refl s
  · split
    · split
      · exact told
      · exact told.trans (.requeue _ k)
    · exact told

theorem endTask (s : Stage) (how : Ending) (k : Ref .task) : s.Aside (s.endTask how k) := by
  have ended : s.Aside (s.modifyTask k fun row => { row with phase := .ended how }) :=
    .modifyTask s k fun _ => rfl
  have left : (s.modifyTask k fun row => { row with phase := .ended how }).Aside
      { s.modifyTask k fun row => { row with phase := .ended how } with
        agenda := { s.agenda with queue := s.agenda.queue.filter (· != k) } } := { refl _ with }
  exact (ended.trans left).trans (releaseAll _ _)

theorem sleepUntil (s : Stage) (k : Ref .task) (wake : Nat) : s.Aside (s.sleepUntil k wake) := by
  have asleep : s.Aside (s.modifyTask k fun row => { row with phase := .sleeping wake }) :=
    .modifyTask s k fun _ => rfl
  exact asleep.trans (.requeue _ k)

theorem addActor (s : Stage) (row : Actor) : s.Aside (s.addActor row).1 where
  toGrows := .of_eq rfl rfl
  toUnasked := .addActor s row
  notifiers := rfl
  emitters := rfl
  journal := ⟨[], rfl, fun _ mem => nomatch mem⟩

theorem cancelPlayback (s : Stage) (t : Ref .timeline) : s.Aside (s.cancelPlayback t) := by
  unfold Stage.cancelPlayback
  split
  · next k _ =>
      have forgotten : s.Aside (s.setPlayback t none) := .of_eq rfl rfl rfl rfl rfl rfl
      exact forgotten.trans (.abort _ k)
  · exact .refl s

theorem unbind (s : Stage) (c : Ref .core) : s.Aside (s.unbind c) := by
  unfold Stage.unbind
  split
  · exact .refl s
  · next a entry _ =>
      have detached : s.Aside ((s.detach (s.alphas.get a).timeline [entry]).setBinding c none) :=
        .of_eq rfl rfl rfl rfl rfl rfl
      exact detached.trans (release _ (.alpha a))

theorem rebind (s : Stage) (b : Ref .behaviour) (alpha : Option (Ref .alpha)) :
    s.Aside (s.rebind b alpha) := by
  unfold Stage.rebind
  cases alpha with
  | none => exact unbind s _
  | some a =>
      have retained := retain s (.alpha a)
      have unbound := retained.trans (unbind _ (s.behaviours.get b).core)
      exact unbound.trans (.of_eq rfl rfl rfl rfl rfl rfl)

theorem applyActor (s : Stage) (c : Ref .core) (a : Ref .actor) : s.Aside (s.applyActor c a) := by
  have set : ∀ actors, s.Aside (s.setActors c actors) := fun _ => .of_eq rfl rfl rfl rfl rfl rfl
  unfold Stage.applyActor
  dsimp only
  split
  · exact set _
  · exact (set _).trans (.note _ rfl)

theorem removeActor (s : Stage) (c : Ref .core) (a : Ref .actor) :
    s.Aside (s.removeActor c a) := by
  have set : ∀ actors, s.Aside (s.setActors c actors) := fun _ => .of_eq rfl rfl rfl rfl rfl rfl
  unfold Stage.removeActor
  dsimp only
  split
  · exact (set _).trans (.note _ rfl)
  · exact set _

end Aside

/-- What can become of a stage in one go while nobody is called. Who is registered with an emitter
changes only while it is free. -/
inductive Motion (s : Stage) : Stage → Prop
  | aside {s' : Stage} (h : s.Aside s') : Motion s s'
  | addNotifier : Motion s s.addNotifier.1
  | register (n : Ref .notifier) (property : Option String) (callback : Callback) :
      Motion s (s.modifyNotifier n (·.register property callback))
  | unregister (n : Ref .notifier) (id : Nat) : Motion s (s.modifyNotifier n (·.unregister id))
  | addEmitter : Motion s s.addEmitter.1
  | registerHandler (m : Ref .emitter) (event : String) (accepts : PayloadKind)
      (callback : Callback) (free : (s.emitters.get m).isHeld = false) :
      Motion s (s.modifyEmitter m (·.register event accepts callback))
  | unregisterHandler (m : Ref .emitter) (id : Nat) (free : (s.emitters.get m).isHeld = false) :
      Motion s (s.modifyEmitter m (·.unregister id))

end Stage

/-- A relation of worlds to later ones that has every motion in it. -/
structure Regime (υ : Type) where
  leads : World υ → World υ → Prop
  refl : ∀ w, leads w w
  trans : ∀ {w w' w''}, leads w w' → leads w' w'' → leads w w''
  motion : ∀ {w : World υ} {s : Stage}, w.stage.Motion s → leads w { w with stage := s }

namespace Regime

open Script

variable {υ α β : Type} (R : Regime υ)

/-- Whatever comes of a script, the world after it is one that the world before it leads to. -/
def Rules (x : Script υ α) : Prop := ∀ w, R.leads w (x.run w).2

/-- The callbacks of a host are in a regime, but for its routines. -/
structure Allows (host : Host υ) : Prop where
  notified : ∀ callback change, R.Rules (host.notified callback change)
  called : ∀ callback payload, R.Rules (host.called callback payload)
  driven : ∀ callback alpha, R.Rules (host.driven callback alpha)
  reacts : ∀ a call, R.Rules (host.reacts a call)

/-- What the library does with the callbacks of a host is in a regime. -/
structure Governs (host : Host υ) : Prop where
  notify : ∀ n change, R.Rules (Script.notify host n change)
  emit : ∀ m event payload, R.Rules (Script.emit host m event payload)
  driven : ∀ callback alpha, R.Rules (host.driven callback alpha)
  ask : ∀ a call, R.Rules (Script.ask host a call)

variable {R}

theorem leads_aside {w : World υ} {s : Stage} (h : w.stage.Aside s) :
    R.leads w { w with stage := s } := R.motion (.aside h)

theorem rules_pure (a : α) : R.Rules (pure a : Script υ α) := R.refl

theorem rules_throw (fault : Fault) : R.Rules (throw fault : Script υ α) := R.refl

theorem rules_bind {x : Script υ α} {f : α → Script υ β} (hx : R.Rules x)
    (hf : ∀ a, R.Rules (f a)) : R.Rules (x >>= f) := by
  intro w
  rw [run_bind]
  split
  · exact R.trans (hx w) (hf _ _)
  · exact hx w

theorem rules_stage_bind {f : Stage → Script υ β} (hf : ∀ s, R.Rules (f s)) :
    R.Rules (stage >>= f) := fun w => hf w.stage w

theorem rules_change {f : Stage → Stage} (h : ∀ s : Stage, s.Motion (f s)) :
    R.Rules (change f : Script υ Unit) := fun _ => R.motion (h _)

theorem rules_produce {f : Stage → Stage × α} (h : ∀ s : Stage, s.Motion (f s).1) :
    R.Rules (produce f : Script υ α) := fun _ => R.motion (h _)

/-- A change that leaves listeners, handlers, tasks, queue, channel and journal alone. -/
theorem rules_aside {f : Stage → Stage} (h : ∀ s : Stage, s.Aside (f s)) :
    R.Rules (change f : Script υ Unit) := rules_change fun s => .aside (h s)

theorem rules_note {what : Occurrence} (h : what.isIncidental = false) :
    R.Rules (note what : Script υ Unit) := rules_aside fun s => .note s h

theorem rules_check (r : Except Violation α) : R.Rules (check r : Script υ α) := by
  cases r with
  | ok a => exact rules_pure a
  | error cause => exact rules_throw _

theorem rules_retainAll (handles : List Handle) :
    R.Rules (change (·.retainAll handles) : Script υ Unit) :=
  rules_aside fun s => .retainAll s handles

theorem rules_releaseAll (handles : List Handle) :
    R.Rules (change (·.releaseAll handles) : Script υ Unit) :=
  rules_aside fun s => .releaseAll s handles

theorem rules_thenTidy {x : Script υ α} {tidy : Stage → Stage} (hx : R.Rules x)
    (h : ∀ s : Stage, s.Aside (tidy s)) : R.Rules (x.thenTidy tidy) :=
  fun w => R.trans (hx w) (leads_aside (h _))

theorem rules_holding (handles : List Handle) {x : Script υ α} (hx : R.Rules x) :
    R.Rules (holding handles x) :=
  rules_bind (rules_retainAll handles) fun _ =>
    rules_thenTidy hx fun s => .releaseAll s handles

theorem rules_attempt {x : Script υ α} (hx : R.Rules x) : R.Rules x.attempt := by
  intro w
  rw [run_attempt_snd]
  exact hx w

theorem rules_forEach {visit : β → Script υ Unit} (h : ∀ b, R.Rules (visit b))
    (list : List β) : R.Rules (forEach visit list) := by
  induction list with
  | nil => exact rules_pure ()
  | cons b rest ih => exact rules_bind (h b) fun _ => ih

theorem rules_owning (handles : List Handle) {x : Script υ α} (hx : R.Rules x) :
    R.Rules (owning handles x) := by
  refine rules_stage_bind fun s => ?_
  split
  · exact rules_bind (rules_holding handles hx) fun _ => rules_pure _
  · exact rules_pure _

/-- Who gets at an emitter finds it free. -/
theorem rules_await_bind {m : Ref .emitter} {f : Emitter → Script υ β}
    (hf : ∀ w, (w.stage.emitters.get m).isHeld = false →
      R.leads w ((f (w.stage.emitters.get m)).run w).2) : R.Rules (await m >>= f) := by
  intro w
  cases free : (w.stage.emitters.get m).isHeld with
  | false =>
      rw [run_bind_of_ok (run_await_of_free free)]
      exact hf w free
  | true =>
      rw [run_bind, run_await_of_held free]
      exact R.refl w

theorem rules_registerHandler (m : Ref .emitter) (event : String) (accepts : PayloadKind)
    (callback : Callback) : R.Rules (registerHandler m event accepts callback : Script υ Nat) :=
  rules_await_bind fun _ free => R.motion (.registerHandler m event accepts callback free)

theorem rules_unregisterHandler (m : Ref .emitter) (id : Nat) :
    R.Rules (unregisterHandler m id : Script υ Unit) :=
  rules_await_bind fun _ free => R.motion (.unregisterHandler m id free)

theorem rules_setClock (t : Ref .timeline) (clock : Stage → Clock) :
    R.Rules (change fun s => s.setClock t (clock s) : Script υ Unit) :=
  rules_aside fun _ => .of_eq rfl rfl rfl rfl rfl rfl

theorem rules_tryClock (t : Ref .timeline) (f : Clock → Except TimelineError Clock) :
    R.Rules (tryClock t f : Script υ _) := by
  refine rules_stage_bind fun s => ?_
  split
  · exact rules_bind (rules_setClock t _) fun _ => rules_pure _
  · exact rules_pure _

theorem rules_skip (t : Ref .timeline) (count : Nat) : R.Rules (skip t count : Script υ Unit) :=
  rules_stage_bind fun _ => rules_bind (rules_check _) fun _ => rules_setClock t _

theorem rules_escort {visit : Ref .actor → Script υ Unit} (h : ∀ a, R.Rules (visit a))
    (actors : List (Ref .actor)) : R.Rules (escort visit actors) := by
  induction actors with
  | nil => exact rules_pure ()
  | cons a rest ih =>
      refine rules_bind (rules_attempt (rules_thenTidy (h a) fun s =>
        .release s (.actor a))) fun outcome => ?_
      cases outcome with
      | ok _ => exact ih
      | error cause => exact rules_bind (rules_releaseAll _) fun _ => rules_throw _

theorem rules_forEachActor {visit : Ref .actor → Script υ Unit} (h : ∀ a, R.Rules (visit a))
    (c : Ref .core) : R.Rules (forEachActor c visit) :=
  rules_bind (rules_produce fun _ => .aside (.of_eq rfl rfl rfl rfl rfl rfl)) fun actors =>
    rules_bind (rules_retainAll _) fun _ => rules_escort h actors

/-- An actor does what it is asked, and then it reacts. -/
theorem rules_ask {host : Host υ}
    (asked : ∀ w a call, R.leads w { w with stage := w.stage.modifyActor a (·.receive call) })
    (reacts : ∀ a call, R.Rules (host.reacts a call)) (a : Ref .actor) (call : ActorCall) :
    R.Rules (Script.ask host a call) :=
  rules_bind (fun w => asked w a call) fun _ => reacts a call

theorem rules_conclude (how : Ending) (k : Ref .task) :
    R.Rules (conclude how k : Script υ Unit) := rules_aside fun s => .endTask s how k

theorem rules_rest (k : Ref .task) (wake : Nat) : R.Rules (rest k wake : Script υ Unit) := by
  refine rules_stage_bind fun s => ?_
  split
  · exact rules_conclude _ k
  · exact rules_aside fun s => .sleepUntil s k wake

theorem rules_addTimeline (duration : Nat) :
    R.Rules (produce (·.addTimeline duration) : Script υ (Ref .timeline)) := by
  intro w
  have emitter := R.motion (w := w) .addEmitter
  exact R.trans emitter (leads_aside (.of_eq rfl rfl rfl rfl rfl rfl))

theorem leads_addCore (w : World υ) : R.leads w { w with stage := w.stage.addCore.1 } := by
  have notifier := R.motion (w := w) .addNotifier
  exact R.trans notifier (leads_aside (.of_eq rfl rfl rfl rfl rfl rfl))

theorem rules_addBehaviour (drive : Drive) :
    R.Rules (produce (·.addBehaviour drive) : Script υ (Ref .behaviour)) :=
  fun w => R.trans (leads_addCore w) (leads_aside (.of_eq rfl rfl rfl rfl rfl rfl))

/-! ## What the library does -/

/-- In a regime it does not matter whether an emitter is held, nor what is said of its handlers. -/
structure Lax (R : Regime υ) (m : Ref .emitter) : Prop where
  hold : ∀ (w : World υ) isHeld, R.leads w { w with stage := Script.hold isHeld m w.stage }
  mismatched : ∀ (w : World υ) event,
    R.leads w { w with stage := w.stage.note (.mismatched m event) }
  unrun : ∀ (w : World υ) event cause,
    R.leads w { w with stage := w.stage.note (.unrun m event cause) }

namespace Lax

variable {m : Ref .emitter} (lax : R.Lax m) {host : Host υ}
  (called : ∀ callback payload, R.Rules (host.called callback payload))

include lax called

theorem offer (event : String) (payload : Payload) (h : Handler) :
    R.Rules (Script.offer host m event payload h) := by
  have responds : R.Rules (Script.respond host m event payload h) := by
    unfold Script.respond
    split
    · exact rules_bind (called _ _) fun _ => rules_pure _
    · exact rules_bind (fun w => lax.mismatched w event) fun _ => rules_pure _
  refine rules_bind responds fun job => rules_bind (rules_produce fun s => .aside (.spawn s job))
    fun k => ?_
  cases k with
  | none => exact fun w => lax.unrun w event _
  | some k => exact rules_pure ()

theorem emit (event : String) (payload : Payload) :
    R.Rules (Script.emit host m event payload) := by
  refine rules_await_bind fun w _ => rules_bind (rules_note rfl) (fun _ => ?_) w
  split
  · exact rules_pure ()
  · refine rules_holding _ (rules_bind (fun w => lax.hold w true) fun _ w => ?_)
    exact R.trans (rules_forEach (lax.offer called event payload) _ w) (lax.hold _ false)

end Lax

theorem rules_notify {host : Host υ}
    (notified : ∀ callback change, R.Rules (host.notified callback change)) (n : Ref .notifier)
    (change : Change) : R.Rules (Script.notify host n change) :=
  rules_stage_bind fun _ => rules_bind (rules_note rfl) fun _ =>
    rules_forEach (fun callback => notified callback change) _

/-- A regime that is lax about all emitters, and does not mind what actors are asked, governs the
hosts whose callbacks are in it. -/
theorem Allows.governs {host : Host υ} (h : R.Allows host) (lax : ∀ m, R.Lax m)
    (asked : ∀ w a call, R.leads w { w with stage := w.stage.modifyActor a (·.receive call) }) :
    R.Governs host where
  notify := rules_notify h.notified
  emit m := (lax m).emit h.called
  driven := h.driven
  ask := rules_ask asked h.reacts

namespace Governs

variable {host : Host υ} (hh : R.Governs host)

include hh

theorem flush (n : Ref .notifier) (batch : Batch) : R.Rules (Script.flush host n batch) :=
  rules_forEach (hh.notify n) _

theorem bindTo (b : Ref .behaviour) (alpha : Option (Ref .alpha)) :
    R.Rules (Script.bindTo host b alpha) := by
  refine rules_stage_bind fun s => ?_
  dsimp only
  split
  · exact rules_pure ()
  · exact rules_bind (rules_aside fun s => .rebind s b alpha) fun _ =>
      rules_bind (rules_note rfl) fun _ => hh.notify _ _

/-- A new behaviour is bound. -/
theorem make (drive : Drive) (alpha : Option (Ref .alpha)) :
    R.Rules (produce (·.addBehaviour drive) >>= fun b => do
      Script.bindTo host b alpha
      return b) :=
  rules_bind (rules_addBehaviour drive) fun b =>
    rules_bind (hh.bindTo b alpha) fun _ => rules_pure _

theorem setScaleBounds (b : Ref .behaviour) (corners : Corners Fixed) :
    R.Rules (Script.setScaleBounds host b corners) := by
  refine rules_bind (rules_check _) fun bounds => rules_stage_bind fun s => ?_
  split
  · exact rules_bind (rules_aside fun _ => .of_eq rfl rfl rfl rfl rfl rfl) fun _ => hh.flush _ _
  · exact rules_pure ()

theorem setGravity (b : Ref .behaviour) (gravity : Gravity) :
    R.Rules (Script.setGravity host b gravity) := by
  refine rules_stage_bind fun s => ?_
  split
  · split
    · exact rules_pure ()
    · exact rules_bind (rules_aside fun _ => .of_eq rfl rfl rfl rfl rfl rfl) fun _ => hh.notify _ _
  · exact rules_pure ()

theorem setOpacityBounds (b : Ref .behaviour) (bounds : Range UInt8) :
    R.Rules (Script.setOpacityBounds host b bounds) := by
  refine rules_stage_bind fun s => ?_
  split
  · exact rules_bind (rules_aside fun _ => .of_eq rfl rfl rfl rfl rfl rfl) fun _ => hh.flush _ _
  · exact rules_pure ()

theorem announce (t : Ref .timeline) (event : TimelineEvent) (payload : Payload) :
    R.Rules (Script.announce host t event payload) :=
  rules_stage_bind fun _ => hh.emit _ _ _

theorem askScale (a : Ref .actor) (gravity : Gravity) (x y : Double) :
    R.Rules (Script.askScale host a gravity x y) := by
  unfold Script.askScale
  split
  · exact rules_bind (hh.ask a _) fun _ => hh.ask a _
  · exact hh.ask a _

theorem drive (b : Ref .behaviour) (alpha : Nat) : R.Rules (Script.drive host b alpha) := by
  refine rules_stage_bind fun s => ?_
  dsimp only
  split
  · exact rules_bind (rules_check _) fun _ => rules_forEachActor (fun a => hh.askScale a _ _ _) _
  · exact rules_bind (rules_check _) fun _ => rules_forEachActor (fun a => hh.ask a _) _
  · exact hh.driven _ alpha

theorem tick (b : Ref .behaviour) : R.Rules (Script.tick host b) := by
  refine rules_stage_bind fun s => ?_
  dsimp only
  split
  · exact rules_pure ()
  · exact rules_holding _ (rules_bind (rules_note rfl) fun _ => hh.drive b _)

theorem tickEach (entries : List Attachment) : R.Rules (Script.tickEach host entries) := by
  induction entries with
  | nil => exact rules_pure []
  | cons e rest ih =>
      refine rules_stage_bind fun s => ?_
      split
      · exact rules_bind (rules_holding _ (hh.tick e.behaviour)) fun _ => ih
      · exact rules_bind ih fun _ => rules_pure _

theorem tickAttached (t : Ref .timeline) : R.Rules (Script.tickAttached host t) := by
  refine rules_stage_bind fun s => rules_bind (hh.tickEach _) fun gone => ?_
  split
  · exact rules_pure ()
  · exact rules_bind (rules_note rfl) fun _ => rules_aside fun _ => .of_eq rfl rfl rfl rfl rfl rfl

theorem concludeFrame (t : Ref .timeline) (played : Clock) :
    R.Rules (Script.concludeFrame host t played) := by
  refine rules_bind (hh.announce t .newFrame _) fun _ => ?_
  split
  · refine rules_bind (hh.announce t .completed _) fun _ => ?_
    split
    · exact rules_bind (rules_setClock t _) fun _ => rules_pure _
    · exact rules_pure _
  · exact rules_pure _

theorem nextFrame (t : Ref .timeline) : R.Rules (Script.nextFrame host t) := by
  refine rules_stage_bind fun s => ?_
  dsimp only
  split
  · exact rules_pure _
  · exact rules_bind (rules_check _) fun played => rules_bind (rules_setClock t _) fun _ =>
      rules_bind (rules_note rfl) fun _ =>
        rules_bind (hh.tickAttached t) fun _ => hh.concludeFrame t played

theorem launch (t : Ref .timeline) : R.Rules (Script.launch host t) := by
  refine rules_stage_bind fun s => rules_bind (rules_note rfl) fun _ =>
    rules_bind (hh.announce t .started _) fun _ =>
      rules_bind (rules_produce fun s => .aside (.spawn s _)) fun k => ?_
  cases k with
  | none => exact rules_pure _
  | some k =>
      exact rules_bind (rules_aside fun _ => .of_eq rfl rfl rfl rfl rfl rfl) fun _ => rules_pure _

theorem start (t : Ref .timeline) : R.Rules (Script.start host t) := by
  refine rules_stage_bind fun s => ?_
  split
  · exact rules_pure _
  · refine rules_stage_bind fun s' => ?_
    dsimp only
    split
    · exact rules_bind (rules_setClock t _) fun _ => hh.launch t
    · exact hh.launch t

theorem pause (t : Ref .timeline) : R.Rules (Script.pause host t) := by
  refine rules_stage_bind fun s => rules_bind (rules_aside fun s => .cancelPlayback s t) fun _ => ?_
  split
  · exact rules_stage_bind fun _ => rules_bind (rules_note rfl) fun _ => hh.announce t .paused _
  · exact rules_pure ()

theorem stop (t : Ref .timeline) : R.Rules (Script.stop host t) :=
  rules_bind (hh.pause t) fun _ => rules_setClock t _

/-- Whatever the library offers to those who use a host is in the regime. -/
theorem offered {α : Type} {handles : List Handle} {x : Script υ α}
    (h : Offered host handles x) : R.Rules x := by
  cases h with
  | retain handle => exact rules_aside fun s => .retain s handle
  | release handle => exact rules_aside fun s => .release s handle
  | addTimeline duration => exact rules_addTimeline duration
  | setDuration t _ | setRepeats t _ | setDirection t _ | rewind t => exact rules_setClock t _
  | setFps t _ | advance t _ => exact rules_tryClock t _
  | skip t count => exact rules_skip t count
  | nextFrame t => exact hh.nextFrame t
  | start t => exact hh.start t
  | pause t => exact hh.pause t
  | stop t => exact hh.stop t
  | addAlpha t easing =>
      exact rules_produce fun s => .aside
        (.trans (.retain s (.timeline t)) (.of_eq rfl rfl rfl rfl rfl rfl))
  | addCore => exact leads_addCore
  | makeScale corners gravity alpha => exact rules_bind (rules_check _) fun _ => hh.make _ alpha
  | makeOpacity _ alpha | makeCustom _ alpha => exact hh.make _ alpha
  | bindTo b alpha => exact hh.bindTo b alpha
  | setScaleBounds b corners => exact hh.setScaleBounds b corners
  | setGravity b gravity => exact hh.setGravity b gravity
  | setOpacityBounds b bounds => exact hh.setOpacityBounds b bounds
  | drive b alpha => exact hh.drive b alpha
  | tick b => exact hh.tick b
  | ask a call => exact hh.ask a call
  | applyActor c a => exact rules_aside fun s => .applyActor s c a
  | removeActor c a => exact rules_aside fun s => .removeActor s c a
  | setEasing _ _ | clearActors _ => exact rules_aside fun _ => .of_eq rfl rfl rfl rfl rfl rfl
  | addActor row => exact rules_produce fun s => .aside (.addActor s row)
  | gatherActors _ => exact rules_produce fun _ => .aside (.of_eq rfl rfl rfl rfl rfl rfl)
  | addNotifier => exact rules_produce fun _ => .addNotifier
  | register n property callback => exact rules_change fun _ => .register n property callback
  | unregister n id => exact rules_change fun _ => .unregister n id
  | notify n change => exact hh.notify n change
  | flush n batch => exact hh.flush n batch
  | addEmitter => exact rules_produce fun _ => .addEmitter
  | registerHandler m event accepts callback =>
      exact rules_registerHandler m event accepts callback
  | unregisterHandler m id => exact rules_unregisterHandler m id
  | emit m event payload => exact hh.emit m event payload
  | spawn job => exact rules_produce fun s => .aside (.spawn s job)
  | abort k => exact rules_aside fun s => .abort s k

theorem work (resume : ∀ code, R.Rules (host.resume code)) (k : Ref .task) (row : Task) :
    R.Rules (Script.work host k row) := by
  unfold Script.work
  split
  · exact rules_pure ()
  · exact rules_conclude _ k
  · exact rules_stage_bind fun _ => rules_rest k _
  · refine rules_bind (rules_attempt (hh.nextFrame _)) fun r => ?_
    split
    · exact rules_rest k _
    · exact rules_conclude _ k
    · exact rules_conclude _ k
  · refine rules_bind (rules_attempt (resume _)) fun r => ?_
    split
    · exact rules_stage_bind fun _ => rules_rest k _
    · exact rules_conclude _ k
    · exact rules_conclude _ k

theorem takeTurn (resume : ∀ code, R.Rules (host.resume code)) (k : Ref .task) :
    R.Rules (Script.takeTurn host k) := by
  refine rules_stage_bind fun s => ?_
  dsimp only
  split
  · split
    · exact rules_conclude _ k
    · exact hh.work resume k _
  · exact rules_pure ()

end Governs

end Regime

/-! ## What users do -/

namespace Script

/-- What users of a stage do, where their hosts are tamed in some way before the library takes them,
and only some things may be written down. -/
inductive Practice {υ : Type} (tame : Host υ → Host υ) (writes : World υ → υ → Prop) :
    {α : Type} → Script υ α → Prop
  | call {host : Host υ} {α : Type} {handles : List Handle} {x : Script υ α}
      (offered : Offered (tame host) handles x)
      (notified : ∀ callback change, Practice tame writes (host.notified callback change))
      (called : ∀ callback payload, Practice tame writes (host.called callback payload))
      (driven : ∀ callback alpha, Practice tame writes (host.driven callback alpha))
      (reacts : ∀ a call, Practice tame writes (host.reacts a call)) :
      Practice tame writes (owning handles x)
  | visit {c : Ref .core} {visit : Ref .actor → Script υ Unit}
      (h : ∀ a, Practice tame writes (visit a)) :
      Practice tame writes (owning [.core c] (forEachActor c visit))
  | look : Practice tame writes (get : Script υ (World υ))
  | write {f : World υ → υ} (h : ∀ w, writes w (f w)) :
      Practice tame writes (modify fun w => { w with user := f w } : Script υ Unit)
  | pure {α : Type} (a : α) : Practice tame writes (pure a)
  | bind {α β : Type} {x : Script υ α} {f : α → Script υ β} (hx : Practice tame writes x)
      (hf : ∀ a, Practice tame writes (f a)) : Practice tame writes (x >>= f)
  | breakOff {α : Type} (fault : Fault) : Practice tame writes (throw fault : Script υ α)
  | goOn {α : Type} {x : Script υ α} (h : Practice tame writes x) : Practice tame writes x.attempt

variable {υ α : Type} {tame : Host υ → Host υ} {writes : World υ → υ → Prop}

/-- The callbacks of a host are practices. -/
structure Practices (tame : Host υ → Host υ) (writes : World υ → υ → Prop) (host : Host υ) :
    Prop where
  notified : ∀ callback change, Practice tame writes (host.notified callback change)
  called : ∀ callback payload, Practice tame writes (host.called callback payload)
  driven : ∀ callback alpha, Practice tame writes (host.driven callback alpha)
  reacts : ∀ a call, Practice tame writes (host.reacts a call)

section Ruled

variable {R : Regime υ} (governs : ∀ {host : Host υ}, R.Allows host → R.Governs (tame host))
  (written : ∀ {w : World υ} {u : υ}, writes w u → R.leads w { w with user := u })

include governs written

open Regime in
/-- A regime that governs tamed hosts, and allows what may be written, rules all practices. -/
theorem Practice.ruled {x : Script υ α} (practice : Practice tame writes x) : R.Rules x := by
  induction practice with
  | call offered _ _ _ _ notified called driven reacts =>
      exact rules_owning _ ((governs ⟨notified, called, driven, reacts⟩).offered offered)
  | visit _ ih => exact rules_owning _ (rules_forEachActor ih _)
  | look => exact R.refl
  | write h => exact fun w => written (h w)
  | pure a => exact rules_pure a
  | bind _ _ hx hf => exact rules_bind hx hf
  | breakOff fault => exact rules_throw fault
  | goOn _ ih => exact rules_attempt ih

theorem Practices.allowed {host : Host υ} (h : Practices tame writes host) : R.Allows host where
  notified callback change := (h.notified callback change).ruled governs written
  called callback payload := (h.called callback payload).ruled governs written
  driven callback alpha := (h.driven callback alpha).ruled governs written
  reacts a call := (h.reacts a call).ruled governs written

end Ruled

/-- What may be written in a course: stages that are met are put down on pages. -/
def putsDown (pages : υ → List Stage) (w : World υ) (u : υ) : Prop :=
  ∀ s ∈ pages u, s = w.stage ∨ s ∈ pages w.user

/-- Courses are practices where hosts are taken as they are. -/
theorem Course.practice {pages : υ → List Stage} {x : Script υ α} (course : Course pages x) :
    Practice id (putsDown pages) x := by
  induction course with
  | call offered _ _ _ _ notified called driven reacts =>
      exact .call offered notified called driven reacts
  | visit _ ih => exact .visit ih
  | look => exact .look
  | write h => exact .write h
  | pure a => exact .pure a
  | bind _ _ hx hf => exact .bind hx hf
  | breakOff fault => exact .breakOff fault
  | goOn _ ih => exact .goOn ih

end Script

/-- What a regime carries over from each world to those it leads to, and holds of the openings,
holds of all worlds that arise. -/
theorem Arises.carries {υ : Type} {pages : υ → List Stage} {R : Regime υ}
    (governs : ∀ {host : Host υ}, R.Allows host → R.Governs host)
    (written : ∀ {w : World υ} {u : υ}, Script.putsDown pages w u → R.leads w { w with user := u })
    {P : World υ → Prop} (carry : ∀ {w w'}, R.leads w w' → P w → P w')
    (opening : ∀ hasChannel u, pages u = [] → P ⟨.empty hasChannel, u⟩) {w : World υ}
    (h : Arises pages w) : P w := by
  induction h with
  | opening hasChannel none => exact opening hasChannel _ none
  | course _ hx ih => exact carry (hx.practice.ruled governs written _) ih
  | turn k _ notified called driven reacts resume ih =>
      have practices : Script.Practices id (Script.putsDown pages) _ :=
        ⟨fun callback change => (notified callback change).practice,
          fun callback payload => (called callback payload).practice,
          fun callback alpha => (driven callback alpha).practice,
          fun a call => (reacts a call).practice⟩
      have turn := (governs (practices.allowed governs written)).takeTurn
        (fun code => (resume code).practice.ruled governs written) k
      exact carry (turn _) ih
  | time now _ ih => exact carry (Regime.leads_aside (.setNow _ now)) ih
  | drain _ ih => exact carry (Regime.leads_aside (.drainChannel _)) ih

end Animation
