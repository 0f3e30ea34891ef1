/-
# No cycle of handles

Handles run from behaviours by way of their cores to alphas, and from alphas to timelines. What a
timeline knows of the behaviours attached to it are no handles. So nothing is kept alive by itself:
whatever was made, named, bound, bound again and dropped before, a thing is alive just if a handle
by name leads to it, and once all names have been dropped, in whatever order, nothing is left.

A dealing is what users of a stage do who keep no handle but by name: they make things, take and
drop names, and ask whatever they like of the library. Their callbacks have no handles of their
own, but they may deal with those by name, to any depth.
-/

import Animation.Proofs.Custody.Settling

namespace Animation

variable {υ α : Type}

namespace Script

/-- Make a thing and name the handle on it. -/
def naming {k : Kind} (name : Ref k → Possession) (make : Script (Owner υ) (Ref k)) :
    Script (Owner υ) (Ref k) := do
  let r ← make
  modify fun w => { w with user := { w.user with names := name r :: w.user.names } }
  return r

/-- Take one more handle by name on something that is alive. -/
def clone (p : Possession) : Script (Owner υ) Unit :=
  modify fun w =>
    if w.stage.isAlive p.handle then
      { stage := w.stage.retain p.handle, user := { w.user with names := p :: w.user.names } }
    else w

/-- Drop a handle by name. -/
def drop (p : Possession) : Script (Owner υ) Unit :=
  modify fun w =>
    if p ∈ w.user.names then
      { stage := w.stage.release p.handle, user := { w.user with names := w.user.names.erase p } }
    else w

/-- Tell a task to end that was spawned. -/
def abortSpawned (k : Ref .task) : Script υ Unit := do
  if k.index < (← stage).tasks.size then change (·.abort k)

/-- What the library offers that gives nobody a handle but for the time of the call, and the
handles that each of it takes. -/
inductive Lent (host : Host υ) : {α : Type} → List Handle → Script υ α → Prop
  -- timelines
  | setDuration (t : Ref .timeline) (duration : Nat) :
      Lent host [.timeline t] (setDuration t duration)
  | setFps (t : Ref .timeline) (fps : Nat) : Lent host [.timeline t] (setFps t fps)
  | setRepeats (t : Ref .timeline) (repeats : Bool) :
      Lent host [.timeline t] (setRepeats t repeats)
  | setDirection (t : Ref .timeline) (direction : Direction) :
      Lent host [.timeline t] (setDirection t direction)
  | advance (t : Ref .timeline) (frame : Nat) : Lent host [.timeline t] (advance t frame)
  | skip (t : Ref .timeline) (count : Nat) : Lent host [.timeline t] (skip t count)
  | rewind (t : Ref .timeline) : Lent host [.timeline t] (rewind t)
  | nextFrame (t : Ref .timeline) : Lent host [.timeline t] (nextFrame host t)
  | start (t : Ref .timeline) : Lent host [.timeline t] (start host t)
  | pause (t : Ref .timeline) : Lent host [.timeline t] (pause host t)
  | stop (t : Ref .timeline) : Lent host [.timeline t] (stop host t)
  -- alphas and behaviours
  | setEasing (a : Ref .alpha) (easing : Easing) :
      Lent host [.alpha a] (change (·.modifyAlpha a fun row => { row with easing }))
  | bindTo (b : Ref .behaviour) (alpha : Option (Ref .alpha)) :
      Lent host (.behaviour b :: (alpha.map .alpha).toList) (bindTo host b alpha)
  | setScaleBounds (b : Ref .behaviour) (corners : Corners Fixed) :
      Lent host [.behaviour b] (setScaleBounds host b corners)
  | setGravity (b : Ref .behaviour) (gravity : Gravity) :
      Lent host [.behaviour b] (setGravity host b gravity)
  | setOpacityBounds (b : Ref .behaviour) (bounds : Range UInt8) :
      Lent host [.behaviour b] (setOpacityBounds host b bounds)
  | drive (b : Ref .behaviour) (alpha : Nat) : Lent host [.behaviour b] (drive host b alpha)
  | tick (b : Ref .behaviour) : Lent host [.behaviour b] (tick host b)
  -- actors
  | addActor (actor : Actor) : Lent host [] (produce (·.addActor actor))
  | retainActor (a : Ref .actor) : Lent host [.actor a] (change (·.retain (.actor a)))
  | releaseActor (a : Ref .actor) : Lent host [.actor a] (change (·.release (.actor a)))
  | ask (a : Ref .actor) (call : ActorCall) : Lent host [.actor a] (ask host a call)
  | applyActor (c : Ref .core) (a : Ref .actor) :
      Lent host [.core c, .actor a] (change (·.applyActor c a))
  | removeActor (c : Ref .core) (a : Ref .actor) :
      Lent host [.core c, .actor a] (change (·.removeActor c a))
  | clearActors (c : Ref .core) : Lent host [.core c] (change (·.clearActors c))
  | gatherActors (c : Ref .core) : Lent host [.core c] (produce (·.gatherActors c))
  -- notifiers and emitters
  | addNotifier : Lent host [] (produce (·.addNotifier))
  | register (n : Ref .notifier) (property : Option String) (callback : Callback) :
      Lent host [] (change (·.modifyNotifier n (·.register property callback)))
  | unregister (n : Ref .notifier) (id : Nat) :
      Lent host [] (change (·.modifyNotifier n (·.unregister id)))
  | notify (n : Ref .notifier) (change : Change) : Lent host [] (notify host n change)
  | flush (n : Ref .notifier) (batch : Batch) : Lent host [] (flush host n batch)
  | addEmitter : Lent host [] (produce (·.addEmitter))
  | registerHandler (m : Ref .emitter) (event : String) (accepts : PayloadKind)
      (callback : Callback) : Lent host [] (registerHandler m event accepts callback)
  | unregisterHandler (m : Ref .emitter) (id : Nat) : Lent host [] (unregisterHandler m id)
  | emit (m : Ref .emitter) (event : String) (payload : Payload) :
      Lent host payload.handles (emit host m event payload)
  -- tasks
  | spawn (job : Job) : Lent host job.handles (produce (·.spawn job))
  | abort (k : Ref .task) : Lent host [] (abortSpawned k)

/-- What is done by users of a stage who have handles only by name. -/
inductive Dealing : {α : Type} → Script (Owner υ) α → Prop
  | makeTimeline (duration : Nat) : Dealing (naming .timeline (produce (·.addTimeline duration)))
  | makeAlpha (t : Ref .timeline) (easing : Easing) :
      Dealing (owning [.timeline t] (naming .alpha (produce (·.addAlpha t easing))))
  | makeScale (host : Host (Owner υ)) (corners : Corners Fixed) (gravity : Gravity)
      (alpha : Option (Ref .alpha)) : Dealing (owning (alpha.map .alpha).toList
        (naming .behaviour (makeScale host corners gravity alpha)))
  | makeOpacity (host : Host (Owner υ)) (bounds : Range UInt8) (alpha : Option (Ref .alpha)) :
      Dealing (owning (alpha.map .alpha).toList
        (naming .behaviour (makeOpacity host bounds alpha)))
  | makeCustom (host : Host (Owner υ)) (callback : Callback) (alpha : Option (Ref .alpha)) :
      Dealing (owning (alpha.map .alpha).toList
        (naming .behaviour (makeCustom host callback alpha)))
  | clone (p : Possession) : Dealing (clone p)
  | drop (p : Possession) : Dealing (drop p)
  | call {host : Host (Owner υ)} {α : Type} {handles : List Handle} {x : Script (Owner υ) α}
      (lent : Lent host handles x)
      (notified : ∀ callback change, Dealing (host.notified callback change))
      (called : ∀ callback payload, Dealing (host.called callback payload))
      (driven : ∀ callback alpha, Dealing (host.driven callback alpha))
      (reacts : ∀ a call, Dealing (host.reacts a call)) : Dealing (owning handles x)
  | visit {c : Ref .core} {visit : Ref .actor → Script (Owner υ) Unit}
      (h : ∀ a, Dealing (visit a)) : Dealing (owning [.core c] (forEachActor c visit))
  | look : Dealing (get : Script (Owner υ) (World (Owner υ)))
  | write (f : World (Owner υ) → υ) :
      Dealing (modify fun w => { w with user := { w.user with rest := f w } } :
        Script (Owner υ) Unit)
  | pure {α : Type} (a : α) : Dealing (pure a)
  | bind {α β : Type} {x : Script (Owner υ) α} {f : α → Script (Owner υ) β} (hx : Dealing x)
      (hf : ∀ a, Dealing (f a)) : Dealing (x >>= f)
  | breakOff {α : Type} (fault : Fault) : Dealing (throw fault : Script (Owner υ) α)
  | goOn {α : Type} {x : Script (Owner υ) α} (h : Dealing x) : Dealing x.attempt

/-! ## Dealings settle their accounts -/

theorem Lent.settles {host : Host (Owner υ)} (hh : host.Settling) {handles : List Handle}
    {x : Script (Owner υ) α} (lent : Lent host handles x) : x.Settles handles := by
  cases lent with
  | setDuration t _ | setRepeats t _ | setDirection t _ | rewind t => exact settles_changeClock t _
  | setFps t _ | advance t _ => exact settles_tryClock t _
  | skip t count => exact settles_skip t count
  | nextFrame t => exact hh.nextFrame t
  | start t => exact hh.start t
  | pause t => exact hh.pause t
  | stop t => exact hh.stop t
  | setEasing a easing =>
      exact settles_quiet fun s => .modifyAlpha s a (fun _ => rfl) fun _ => rfl
  | bindTo b alpha => exact hh.bindTo b alpha
  | setScaleBounds b corners => exact hh.setScaleBounds b corners
  | setGravity b gravity => exact hh.setGravity b gravity
  | setOpacityBounds b bounds => exact hh.setOpacityBounds b bounds
  | drive b alpha => exact hh.drive b alpha
  | tick b => exact hh.tick b
  | retainActor a => exact settles_quiet fun s => .retainActors s [a]
  | releaseActor a => exact settles_quiet fun s => .releaseActors s [a]
  | ask a call => exact hh.ask a call
  | applyActor c a => exact settles_quiet fun s => .applyActor s c a
  | removeActor c a => exact settles_quiet fun s => .removeActor s c a
  | clearActors c => exact settles_quiet fun s => .setActors s c []
  | gatherActors c => exact settles_quietly fun s => .setActors s c _
  | register _ _ _ | unregister _ _ => exact settles_quiet fun _ => .of_tables rfl rfl rfl rfl rfl
  | notify n change => exact hh.notify n change
  | flush n batch => exact hh.flush n batch
  | addActor _ | addNotifier | addEmitter =>
      exact settles_quietly fun _ => .of_tables rfl rfl rfl rfl rfl
  | registerHandler m event accepts callback =>
      exact settles_bind (settles_await m) fun _ =>
        settles_bind (settles_modifyEmitter m _) fun _ => settles_pure _
  | unregisterHandler m id =>
      exact settles_bind (settles_await m) fun _ => settles_modifyEmitter m _
  | emit m event payload => exact hh.emit m event payload
  | spawn job => exact settles_spawn (List.Subset.refl _)
  | abort k =>
      intro turn debts w _ settled
      unfold abortSpawned
      rw [run_stage_bind]
      split
      · next spawned => exact settled.abort spawned
      · exact settled

/-- A script makes a thing with one handle on it, which its caller gets, or it fails and makes
nothing. -/
def Makes {k : Kind} (needs : List Handle) (name : Ref k → Possession)
    (make : Script (Owner υ) (Ref k)) : Prop :=
  ∀ turn debts w, needs ⊆ debts → Settled turn debts w →
    (∃ r w', make.run w = (.ok r, w') ∧ Settled turn ((name r).handle :: debts) w') ∨
      ∃ fault, make.run w = (.error fault, w)

variable {needs : List Handle}

theorem settles_naming {k : Kind} {name : Ref k → Possession} {make : Script (Owner υ) (Ref k)}
    (makes : Makes needs name make) : (naming name make).Settles needs := by
  intro turn debts w held settled
  unfold naming
  rcases makes turn debts w held settled with ⟨r, w', made, kept⟩ | ⟨fault, failed⟩
  · rw [run_bind_of_ok made]
    exact kept.name
  · rw [run_bind, failed]
    exact settled

theorem makes_timeline (duration : Nat) :
    Makes (υ := υ) needs .timeline (produce (·.addTimeline duration)) :=
  fun _ _ _ _ settled => .inl ⟨_, _, rfl, settled.addTimeline duration⟩

theorem makes_alpha (t : Ref .timeline) (easing : Easing) :
    Makes (υ := υ) [.timeline t] .alpha (produce (·.addAlpha t easing)) :=
  fun _ _ _ held settled =>
    .inl ⟨_, _, rfl, settled.addAlpha (held (List.mem_singleton_self _)) easing⟩

/-- A behaviour that nobody listens to is bound, and nobody is called back. -/
theorem settled_bindTo_unheard (host : Host (Owner υ)) {turn : Option Turn} {debts : List Handle}
    {w : World (Owner υ)} {b : Ref .behaviour} (alpha : Option (Ref .alpha))
    (unheard : (w.stage.notifiers.get (notifierOf b w.stage)).hearing bindingProperty = [])
    (settled : Settled turn debts w) (hb : .behaviour b ∈ debts)
    (ha : ∀ a, alpha = some a → .alpha a ∈ debts) :
    ∃ w', (bindTo host b alpha).run w = (.ok (), w') ∧ Settled turn debts w' := by
  unfold bindTo
  rw [run_stage_bind]
  dsimp only
  split
  · exact ⟨w, rfl, settled⟩
  · have bound := settled.rebind hb ha
    have noted := (bound.quiet (.note _ (.bound (w.stage.coreOf b) alpha.isSome))).quiet
      (.note _ (.notified (notifierOf b w.stage) ⟨bindingProperty, alpha.isSome⟩))
    refine ⟨_, ?_, noted⟩
    rw [← (w.stage.rebound_rebind b alpha).notifiers] at unheard
    rw [run_change_bind, run_note_bind, run_notify]
    show (forEach _ (((w.stage.rebind b alpha).notifiers.get (notifierOf b w.stage)).hearing
      bindingProperty)).run _ = _
    rw [unheard]
    rfl

/-- Nobody listens to a new behaviour yet. -/
theorem makes_behaviour (host : Host (Owner υ)) (drive : Drive) (alpha : Option (Ref .alpha)) :
    Makes (alpha.map .alpha).toList .behaviour
      (produce (·.addBehaviour drive) >>= fun b => do
        bindTo host b alpha
        return b) := by
  intro turn debts w held settled
  have unheard : ((w.stage.addBehaviour drive).1.notifiers.get (notifierOf
      (w.stage.addBehaviour drive).2 (w.stage.addBehaviour drive).1)).hearing bindingProperty =
      [] := by
    simp [notifierOf, Stage.addBehaviour, Stage.addCore, Stage.addNotifier, Notifier.empty,
      Notifier.hearing]
  obtain ⟨w', bound, kept⟩ := settled_bindTo_unheard host alpha unheard
    (settled.addBehaviour drive) (List.mem_cons_self ..) (by
      rintro a rfl
      exact List.mem_cons_of_mem _ (held (List.mem_singleton_self _)))
  refine .inl ⟨_, w', ?_, kept⟩
  rw [run_produce_bind, run_bind_of_ok bound]
  rfl

theorem settles_clone (p : Possession) : (clone p : Script (Owner υ) Unit).Settles [] := by
  intro turn debts w _ settled
  show Settled turn debts (if w.stage.isAlive p.handle then _ else w)
  split
  · next alive =>
      have handed : ∀ h ∈ [p.handle], w.stage.isAlive h = true := fun h mem => by
        rw [List.mem_singleton.1 mem]
        exact alive
      exact (settled.retainAll handed).name
  · exact settled

theorem settles_drop (p : Possession) : (drop p : Script (Owner υ) Unit).Settles [] := by
  intro turn debts w _ settled
  show Settled turn debts (if p ∈ w.user.names then _ else w)
  split
  · next named =>
      have owed : Settled turn ([p.handle] ++ debts) _ := settled.unname named
      exact owed.releaseAll
  · exact settled

/-- Whatever users of a stage do who have handles only by name, the accounts are settled. -/
theorem Dealing.settles {x : Script (Owner υ) α} (dealing : Dealing x) : x.Settles [] := by
  induction dealing with
  | makeTimeline duration => exact settles_naming (makes_timeline duration)
  | makeAlpha t easing => exact settles_owning (settles_naming (makes_alpha t easing))
  | makeScale host corners gravity alpha =>
      refine settles_owning (settles_naming fun turn debts w held settled => ?_)
      unfold Script.makeScale
      cases checked : corners.toBounds with
      | error cause => exact .inr ⟨_, rfl⟩
      | ok bounds => exact makes_behaviour host _ alpha turn debts w held settled
  | makeOpacity host bounds alpha =>
      exact settles_owning (settles_naming (makes_behaviour host _ alpha))
  | makeCustom host callback alpha =>
      exact settles_owning (settles_naming (makes_behaviour host _ alpha))
  | clone p => exact settles_clone p
  | drop p => exact settles_drop p
  | call lent _ _ _ _ notified called driven reacts =>
      exact settles_owning (lent.settles ⟨notified, called, driven, reacts⟩)
  | visit _ ih =>
      exact settles_owning (settles_forEachActor (fun a => (ih a).mono (List.nil_subset _)) _)
  | look => exact fun _ _ _ _ settled => settled
  | write f => exact fun _ _ _ _ settled => ⟨settled.balanced, settled.players, settled.own⟩
  | pure a => exact settles_pure a
  | bind _ _ hx hf => exact settles_bind hx hf
  | breakOff fault => exact settles_throw fault
  | goOn _ ih => exact settles_attempt ih

end Script

open Script

/-- The worlds that come of dealings, of the turns of tasks and of the passing of time. -/
inductive Dealt : World (Owner υ) → Prop
  | opening (hasChannel : Bool) (rest : υ) : Dealt ⟨.empty hasChannel, ⟨[], rest⟩⟩
  | dealing {w : World (Owner υ)} {α : Type} {x : Script (Owner υ) α} (h : Dealt w)
      (hx : Dealing x) : Dealt (x.run w).2
  | turn {w : World (Owner υ)} {host : Host (Owner υ)} {k : Ref .task} (h : Dealt w)
      (spawned : k.index < w.stage.tasks.size)
      (notified : ∀ callback change, Dealing (host.notified callback change))
      (called : ∀ callback payload, Dealing (host.called callback payload))
      (driven : ∀ callback alpha, Dealing (host.driven callback alpha))
      (reacts : ∀ a call, Dealing (host.reacts a call))
      (resume : ∀ code, Dealing (host.resume code)) : Dealt ((takeTurn host k).run w).2
  | time {w : World (Owner υ)} (now : Nat) (h : Dealt w) :
      Dealt { w with stage := w.stage.setNow now }
  | drain {w : World (Owner υ)} (h : Dealt w) : Dealt { w with stage := drainChannel w.stage }

theorem Dealt.settled {w : World (Owner υ)} (dealt : Dealt w) : Settled none [] w := by
  induction dealt with
  | opening hasChannel rest =>
      refine ⟨fun h counted => ?_, fun t k taken => ?_, nofun⟩
      · cases h <;> rfl
      · exact nomatch taken
  | dealing _ hx ih => exact hx.settles _ _ _ (List.nil_subset _) ih
  | turn _ spawned notified called driven reacts resume ih =>
      have hh : Host.Settling _ := ⟨fun callback change => (notified callback change).settles,
        fun callback payload => (called callback payload).settles,
        fun callback alpha => (driven callback alpha).settles,
        fun a call => (reacts a call).settles⟩
      exact hh.takeTurn (fun code => (resume code).settles) ih spawned
  | time now _ ih => exact ih.quiet (.of_tables rfl rfl rfl rfl rfl)
  | drain _ ih => exact ih.quiet (.of_tables rfl rfl rfl rfl rfl)

/-- All tasks have ended. -/
def Stage.Resting (s : Stage) : Prop := ∀ k ∈ s.tasks.refs, s.hasEnded k = true

/-- At rest nobody but those who have names and things that are alive keeps a handle. -/
theorem Dealt.balanced {w : World (Owner υ)} (dealt : Dealt w) (resting : w.stage.Resting) :
    w.stage.Balanced (w.user.names.map (·.handle)) := by
  have nothing : w.stage.owed none = [] := by
    refine List.flatMap_eq_nil_iff.2 fun k mem => ?_
    rw [Task.owes, show (w.stage.tasks.get k).phase.isEnded = true from
      resting k (List.mem_of_mem_filter mem)]
    rfl
  have balanced := dealt.settled.balanced
  rwa [Option.map_none, nothing, List.nil_append, List.nil_append] at balanced

/-- A behaviour is alive that is bound to an alpha. -/
def Stage.Binds (s : Stage) (b : Ref .behaviour) (a : Ref .alpha) : Prop :=
  s.isAlive (.behaviour b) = true ∧ s.boundAlpha? (s.coreOf b) = some a

/-- There is a handle on an alpha by name or with a behaviour that is alive. -/
def World.HoldsAlpha (w : World (Owner υ)) (a : Ref .alpha) : Prop :=
  .alpha a ∈ w.user.names ∨ ∃ b, w.stage.Binds b a

/-- There is a handle on a timeline by name, or one on an alpha of it by name or with a behaviour
that is alive. -/
def World.HoldsTimeline (w : World (Owner υ)) (t : Ref .timeline) : Prop :=
  .timeline t ∈ w.user.names ∨ ∃ a, w.stage.timelineOf a = t ∧ w.HoldsAlpha a

section Living

variable {w : World (Owner υ)} (balanced : w.stage.Balanced (w.user.names.map (·.handle)))

include balanced

theorem isAlive_behaviour_iff (b : Ref .behaviour) :
    w.stage.isAlive (.behaviour b) = true ↔ .behaviour b ∈ w.user.names := by
  rw [balanced.isAlive_iff_mem rfl]
  constructor
  · rintro (named | ⟨x, -, -, kept⟩)
    · obtain ⟨p, mem, same⟩ := List.mem_map.1 named
      cases p <;> cases same
      exact mem
    · cases x <;> simp [Stage.keeps] at kept
  · exact fun mem => .inl (List.mem_map_of_mem mem)

theorem isAlive_core_iff (c : Ref .core) :
    w.stage.isAlive (.core c) = true ↔
      ∃ b, w.stage.isAlive (.behaviour b) = true ∧ w.stage.coreOf b = c := by
  rw [balanced.isAlive_iff_mem rfl]
  constructor
  · rintro (named | ⟨x, -, alive, kept⟩)
    · obtain ⟨p, -, same⟩ := List.mem_map.1 named
      cases p <;> cases same
    · cases x with
      | behaviour b => exact ⟨b, alive, (Handle.core.inj (List.mem_singleton.1 kept)).symm⟩
      | timeline _ | alpha _ | core _ | actor _ => simp [Stage.keeps] at kept
  · rintro ⟨b, alive, rfl⟩
    exact .inr ⟨.behaviour b, rfl, alive, List.mem_singleton_self _⟩

theorem isAlive_alpha_iff (a : Ref .alpha) :
    w.stage.isAlive (.alpha a) = true ↔ w.HoldsAlpha a := by
  rw [balanced.isAlive_iff_mem rfl]
  constructor
  · rintro (named | ⟨x, -, alive, kept⟩)
    · obtain ⟨p, mem, same⟩ := List.mem_map.1 named
      cases p <;> cases same
      exact .inl mem
    · cases x with
      | core c =>
          obtain ⟨a', bound, same⟩ := Option.map_eq_some_iff.1 (Option.mem_toList.1 kept)
          cases same
          obtain ⟨b, living, rfl⟩ := (isAlive_core_iff balanced c).1 alive
          exact .inr ⟨b, living, bound⟩
      | timeline _ | alpha _ | behaviour _ | actor _ => simp [Stage.keeps] at kept
  · rintro (mem | ⟨b, living, bound⟩)
    · exact .inl (List.mem_map_of_mem mem)
    · refine .inr ⟨.core (w.stage.coreOf b), rfl,
        (isAlive_core_iff balanced _).2 ⟨b, living, rfl⟩, ?_⟩
      rw [Stage.keeps, bound]
      exact List.mem_singleton_self _

theorem isAlive_timeline_iff (t : Ref .timeline) :
    w.stage.isAlive (.timeline t) = true ↔ w.HoldsTimeline t := by
  rw [balanced.isAlive_iff_mem rfl]
  constructor
  · rintro (named | ⟨x, -, alive, kept⟩)
    · obtain ⟨p, mem, same⟩ := List.mem_map.1 named
      cases p <;> cases same
      exact .inl mem
    · cases x with
      | alpha a =>
          refine .inr ⟨a, (Handle.timeline.inj (List.mem_singleton.1 kept)).symm, ?_⟩
          exact (isAlive_alpha_iff balanced a).1 alive
      | timeline _ | behaviour _ | actor _ => simp [Stage.keeps] at kept
      | core c => simp [Stage.keeps] at kept
  · rintro (mem | ⟨a, rfl, held⟩)
    · exact .inl (List.mem_map_of_mem mem)
    · exact .inr ⟨.alpha a, rfl, (isAlive_alpha_iff balanced a).2 held, List.mem_singleton_self _⟩

/-- Where there are no names nothing is alive. -/
theorem isAlive_of_names_eq_nil (none : w.user.names = []) {h : Handle}
    (counted : h.isOnActor = false) : w.stage.isAlive h = false := by
  rw [Bool.eq_false_iff]
  intro alive
  have behaviour (b : Ref .behaviour) : ¬ w.stage.isAlive (.behaviour b) = true := by
    rw [isAlive_behaviour_iff balanced, none]
    exact List.not_mem_nil
  have alpha (a : Ref .alpha) : ¬ w.HoldsAlpha a := by
    rintro (mem | ⟨b, living, -⟩)
    · exact nomatch none ▸ mem
    · exact behaviour b living
  cases h with
  | behaviour b => exact behaviour b alive
  | core c =>
      obtain ⟨b, living, -⟩ := (isAlive_core_iff balanced c).1 alive
      exact behaviour b living
  | alpha a => exact alpha a ((isAlive_alpha_iff balanced a).1 alive)
  | timeline t =>
      rcases (isAlive_timeline_iff balanced t).1 alive with mem | ⟨a, -, held⟩
      · exact nomatch none ▸ mem
      · exact alpha a held
  | actor a => exact nomatch counted

end Living

/-! ## What is left when names are dropped -/

section Dropping

variable {w : World (Owner υ)}

/-- The world after a name was dropped. -/
def World.afterDrop (w : World (Owner υ)) (p : Possession) : World (Owner υ) where
  stage := w.stage.release p.handle
  user := { w.user with names := w.user.names.erase p }

theorem run_drop {p : Possession} (named : p ∈ w.user.names) :
    (drop p).run w = (.ok (), w.afterDrop p) := by
  show (Except.ok (), if p ∈ w.user.names then w.afterDrop p else w) = _
  rw [if_pos named]

theorem Dealt.afterDrop (dealt : Dealt w) {p : Possession} (named : p ∈ w.user.names) :
    Dealt (w.afterDrop p) := by
  have dropped := dealt.dealing (.drop p)
  rwa [run_drop named] at dropped

theorem Stage.Resting.release {s : Stage} (resting : s.Resting) (h : Handle) :
    (s.release h).Resting := by
  have tasks := (s.rehandled_release h).tasks
  intro k mem
  rw [tasks] at mem
  rw [Stage.hasEnded, tasks]
  exact resting k mem

/-- Names are dropped in some order until there are none. -/
theorem Dealt.run_dropAll (dealt : Dealt w) (resting : w.stage.Resting) {order : List Possession}
    (perm : order.Perm w.user.names) :
    ∃ w', (forEach drop order).run w = (.ok (), w') ∧ Dealt w' ∧ w'.stage.Resting ∧
      w'.user.names = [] := by
  induction order generalizing w with
  | nil => exact ⟨w, rfl, dealt, resting, perm.nil_eq.symm⟩
  | cons p rest ih =>
      have named : p ∈ w.user.names := perm.subset (List.mem_cons_self ..)
      have others : rest.Perm (w.user.names.erase p) := by
        have erased := perm.erase p
        rwa [List.erase_cons_head] at erased
      obtain ⟨w', ran, left⟩ := ih (dealt.afterDrop named) (resting.release p.handle) others
      refine ⟨w', ?_, left⟩
      rw [run_forEach_cons, run_bind_of_ok (run_drop named)]
      exact ran

/-- To drop a name binds no behaviour. -/
theorem Stage.Binds.of_release {s : Stage} {h : Handle} {b : Ref .behaviour} {a : Ref .alpha}
    (binds : (s.release h).Binds b a) : s.Binds b a := by
  obtain ⟨alive, bound⟩ := binds
  have rehandled := s.rehandled_release h
  rw [rehandled.boundAlpha?_eq, rehandled.coreOf] at bound
  exact ⟨(s.loosens_release h).alive b alive, bound⟩

/-- The only handle on an alpha is the one of the binding of a behaviour. -/
def World.LastOnAlpha (w : World (Owner υ)) (b : Ref .behaviour) (a : Ref .alpha) : Prop :=
  .alpha a ∉ w.user.names ∧ ∀ b', w.stage.Binds b' a → b' = b

/-- The only handles on a timeline are those of alphas, the only handles on which are those of the
binding of a behaviour. -/
def World.LastOnTimeline (w : World (Owner υ)) (b : Ref .behaviour) (t : Ref .timeline) : Prop :=
  .timeline t ∉ w.user.names ∧ ∀ a, w.stage.timelineOf a = t → w.LastOnAlpha b a

theorem not_holdsAlpha_afterDrop {b : Ref .behaviour} {a : Ref .alpha}
    (dead : (w.afterDrop (.behaviour b)).stage.isAlive (.behaviour b) = false)
    (last : w.LastOnAlpha b a) : ¬ (w.afterDrop (.behaviour b)).HoldsAlpha a := by
  rintro (named | ⟨b', binds⟩)
  · exact last.1 (List.mem_of_mem_erase named)
  · cases last.2 b' binds.of_release
    exact nomatch dead.symm.trans binds.1

end Dropping

/-- Handles run in no cycle. Whatever was made, named, bound, bound again and dropped before, and
with whatever calls in between, as long as callbacks have no handles of their own and all tasks
have ended: a behaviour is alive just if it has a name, an alpha just if it has one or if a
behaviour that is alive is bound to it, and a timeline just if it has one or if there is such a
handle on one of its alphas. Once all names have been dropped, in whatever order, nothing is left.
And with the last name of a behaviour those alphas and timelines go on which it was the last to have
a handle. -/
theorem Dealt.alive_iff_held {w : World (Owner υ)} (dealt : Dealt w) (resting : w.stage.Resting) :
    (∀ b, w.stage.isAlive (.behaviour b) = true ↔ .behaviour b ∈ w.user.names) ∧
    (∀ a, w.stage.isAlive (.alpha a) = true ↔ w.HoldsAlpha a) ∧
    (∀ t, w.stage.isAlive (.timeline t) = true ↔ w.HoldsTimeline t) ∧
    (∀ order : List Possession, order.Perm w.user.names →
      ∃ w', (forEach drop order).run w = (.ok (), w') ∧
        ∀ h, h.isOnActor = false → w'.stage.isAlive h = false) ∧
    ∀ b, w.user.names.count (.behaviour b) = 1 →
      ∃ w', (drop (.behaviour b)).run w = (.ok (), w') ∧
        w'.stage.isAlive (.behaviour b) = false ∧
        (∀ a, w.LastOnAlpha b a → w'.stage.isAlive (.alpha a) = false) ∧
        ∀ t, w.LastOnTimeline b t → w'.stage.isAlive (.timeline t) = false := by
  have balanced := dealt.balanced resting
  refine ⟨isAlive_behaviour_iff balanced, isAlive_alpha_iff balanced,
    isAlive_timeline_iff balanced, fun order perm => ?_, fun b once => ?_⟩
  · obtain ⟨w', ran, dealt', resting', none⟩ := dealt.run_dropAll resting perm
    exact ⟨w', ran, fun h counted =>
      isAlive_of_names_eq_nil (dealt'.balanced resting') none counted⟩
  · have named : .behaviour b ∈ w.user.names := List.count_pos_iff.1 (by omega)
    have balanced' := (dealt.afterDrop named).balanced (resting.release _)
    have unnamed : .behaviour b ∉ w.user.names.erase (.behaviour b) := by
      rw [← List.count_eq_zero, List.count_erase_self]
      omega
    have dead : (w.afterDrop (.behaviour b)).stage.isAlive (.behaviour b) = false := by
      rw [Bool.eq_false_iff, Ne, isAlive_behaviour_iff balanced']
      exact unnamed
    refine ⟨_, run_drop named, dead, fun a last => ?_, fun t last => ?_⟩
    · rw [Bool.eq_false_iff, Ne, isAlive_alpha_iff balanced']
      exact not_holdsAlpha_afterDrop dead last
    · rw [Bool.eq_false_iff, Ne, isAlive_timeline_iff balanced']
      rintro (kept | ⟨a, follows, held⟩)
      · exact last.1 (List.mem_of_mem_erase kept)
      · have follows' : w.stage.timelineOf a = t :=
          ((w.stage.rehandled_release _).timelineOf a).symm.trans follows
        exact not_holdsAlpha_afterDrop dead (last.2 a follows') held

/-- Two timelines with an alpha each. A behaviour is moved from the first alpha to the second,
another one stays with the first, and then all names are dropped but those of the behaviours. -/
def Script.moving : Script (Owner Unit) Unit := do
  let host := Host.silent (Owner Unit)
  let _ ← naming .timeline (produce (·.addTimeline 1000))
  let _ ← naming .timeline (produce (·.addTimeline 500))
  let _ ← owning [.timeline ⟨0⟩] (naming .alpha (produce (·.addAlpha ⟨0⟩ .rampInc)))
  let _ ← owning [.timeline ⟨1⟩] (naming .alpha (produce (·.addAlpha ⟨1⟩ .rampDec)))
  let _ ← owning [.alpha ⟨0⟩] (naming .behaviour (makeCustom host 0 (some ⟨0⟩)))
  let _ ← owning [.alpha ⟨0⟩] (naming .behaviour (makeCustom host 1 (some ⟨0⟩)))
  let _ ← owning [.behaviour ⟨0⟩, .alpha ⟨1⟩] (bindTo host ⟨0⟩ (some ⟨1⟩))
  forEach drop [.alpha ⟨0⟩, .timeline ⟨1⟩, .alpha ⟨1⟩, .timeline ⟨0⟩]

/-- The world after that. -/
def afterMoving : World (Owner Unit) := (moving.run ⟨.empty true, ⟨[], ()⟩⟩).2

theorem dealt_afterMoving : Dealt afterMoving := by
  have drops (list : List Possession) : Dealing (υ := Unit) (forEach drop list) := by
    induction list with
    | nil => exact .pure ()
    | cons p rest ih => exact .bind (.drop p) fun _ => ih
  have silent {handles : List Handle} {x : Script (Owner Unit) Unit}
      (lent : Lent (.silent (Owner Unit)) handles x) : Dealing (owning handles x) :=
    .call lent (fun _ _ => .pure ()) (fun _ _ => .pure 0) (fun _ _ => .pure ()) fun _ _ => .pure ()
  have moving : Dealing moving :=
    .bind (.makeTimeline 1000) fun _ => .bind (.makeTimeline 500) fun _ =>
    .bind (.makeAlpha ⟨0⟩ .rampInc) fun _ => .bind (.makeAlpha ⟨1⟩ .rampDec) fun _ =>
    .bind (.makeCustom _ 0 (some ⟨0⟩)) fun _ => .bind (.makeCustom _ 1 (some ⟨0⟩)) fun _ =>
    .bind (silent (.bindTo ⟨0⟩ (some ⟨1⟩))) fun _ => drops _
  exact (Dealt.opening true ()).dealing moving

theorem alive_iff_held_afterMoving :
    afterMoving.stage.Resting ∧ afterMoving.user.names = [.behaviour ⟨1⟩, .behaviour ⟨0⟩] ∧
      afterMoving.stage.isAlive (.timeline ⟨1⟩) = true ∧
      (∃ w', (forEach drop [.behaviour ⟨0⟩, .behaviour ⟨1⟩]).run afterMoving = (.ok (), w') ∧
        ∀ h, h.isOnActor = false → w'.stage.isAlive h = false) ∧
      ∃ w', (drop (.behaviour ⟨0⟩)).run afterMoving = (.ok (), w') ∧
        w'.stage.isAlive (.alpha ⟨1⟩) = false ∧ w'.stage.isAlive (.timeline ⟨1⟩) = false := by
  have names : afterMoving.user.names = [.behaviour ⟨1⟩, .behaviour ⟨0⟩] := by decide +kernel
  have tasks : afterMoving.stage.tasks.refs = [] := by decide +kernel
  have bound : afterMoving.stage.boundAlpha? (afterMoving.stage.coreOf ⟨0⟩) = some ⟨1⟩ := by
    decide +kernel
  have elsewhere : afterMoving.stage.boundAlpha? (afterMoving.stage.coreOf ⟨1⟩) = some ⟨0⟩ := by
    decide +kernel
  have follows : afterMoving.stage.timelineOf ⟨1⟩ = ⟨1⟩ := by decide +kernel
  have apart : afterMoving.stage.timelineOf ⟨0⟩ ≠ ⟨1⟩ := by decide +kernel
  have resting : afterMoving.stage.Resting := fun k mem => by simp [tasks] at mem
  obtain ⟨behaviours, -, timelines, dropAll, dropLast⟩ := dealt_afterMoving.alive_iff_held resting
  rw [names] at dropAll dropLast
  have alive : afterMoving.stage.isAlive (.behaviour ⟨0⟩) = true :=
    (behaviours ⟨0⟩).2 (by simp [names])
  have last (a : Ref .alpha) (other : a ≠ ⟨0⟩) : afterMoving.LastOnAlpha ⟨0⟩ a := by
    refine ⟨by simp [names], fun b' ⟨alive, binds⟩ => ?_⟩
    have named := (behaviours b').1 alive
    rw [names] at named
    rcases List.mem_cons.1 named with same | same
    · cases same
      exact absurd (Option.some.inj (binds.symm.trans elsewhere)) other
    · cases List.mem_singleton.1 same
      rfl
  obtain ⟨w', dropped, -, alphas, timelines'⟩ := dropLast ⟨0⟩ (by decide)
  refine ⟨resting, names, (timelines ⟨1⟩).2 (.inr ⟨⟨1⟩, follows, .inr ⟨⟨0⟩, alive, bound⟩⟩),
    dropAll _ (.swap ..), w', dropped, alphas ⟨1⟩ (last ⟨1⟩ (by decide)), ?_⟩
  refine timelines' ⟨1⟩ ⟨by simp [names], fun a on => last a ?_⟩
  rintro rfl
  exact apart on

end Animation
