/-
# Who has to wait

Users do whatever the library offers, under its locks, and so do all those whom it calls back, to
any depth. Nobody is called back while an operation holds a lock, but for two: the handlers of an
emitter are called under the lock of that emitter, and an actor is asked under its own. So all that
can ever be waited for is an emitter by those whom it calls, or an actor by those whom it asks to
do something. Whoever does not need these is never stopped: things go as they would go without any
locks, and in the end nothing is held.

A handler that needs the emitter that calls it waits for good, as the last case here shows.
-/

import Animation.Proofs.Locks.Shadowing

namespace Animation

/-- No emitter is held. -/
def Stage.AtLiberty (s : Stage) : Prop := ∀ m, (s.emitters.get m).isHeld = false

theorem Stage.atLiberty_empty (hasChannel : Bool) : (empty hasChannel).AtLiberty := fun _ => rfl

theorem World.IsSound.idle {υ : Type} {s : Stage} (free : s.AtLiberty) (own : υ) :
    World.IsSound [] [] ⟨s, .idle own⟩ where
  held := rfl
  outer := rfl
  lenders := nofun
  emitters := free
  fair := nofun

open Script

variable {υ : Type}

/-- What the library offers under its locks, and what that is without them. -/
inductive Offers (host' : Host (Guarded υ)) (host : Host υ) :
    {α : Type} → List Handle → Script (Guarded υ) α → Script υ α → Prop
  | retain (handle : Handle) :
      Offers host' host [handle] (change (·.retain handle)) (change (·.retain handle))
  | release (handle : Handle) :
      Offers host' host [handle] (change (·.release handle)) (change (·.release handle))
  -- timelines
  | addTimeline (duration : Nat) :
      Offers host' host [] (produce (·.addTimeline duration)) (produce (·.addTimeline duration))
  | setDuration (t : Ref .timeline) (duration : Nat) :
      Offers host' host [.timeline t] (Locking.setDuration t duration) (setDuration t duration)
  | setFps (t : Ref .timeline) (fps : Nat) :
      Offers host' host [.timeline t] (Locking.setFps t fps) (setFps t fps)
  | setRepeats (t : Ref .timeline) (repeats : Bool) :
      Offers host' host [.timeline t] (Locking.setRepeats t repeats) (setRepeats t repeats)
  | setDirection (t : Ref .timeline) (direction : Direction) :
      Offers host' host [.timeline t] (Locking.setDirection t direction) (setDirection t direction)
  | advance (t : Ref .timeline) (frame : Nat) :
      Offers host' host [.timeline t] (Locking.advance t frame) (advance t frame)
  | skip (t : Ref .timeline) (count : Nat) :
      Offers host' host [.timeline t] (Locking.skip t count) (skip t count)
  | rewind (t : Ref .timeline) :
      Offers host' host [.timeline t] (Locking.rewind t) (rewind t)
  | nextFrame (t : Ref .timeline) :
      Offers host' host [.timeline t] (Locking.nextFrame host' t) (nextFrame host t)
  | start (t : Ref .timeline) :
      Offers host' host [.timeline t] (Locking.start host' t) (start host t)
  | pause (t : Ref .timeline) :
      Offers host' host [.timeline t] (Locking.pause host' t) (pause host t)
  | stop (t : Ref .timeline) :
      Offers host' host [.timeline t] (Locking.stop host' t) (stop host t)
  -- alphas
  | addAlpha (t : Ref .timeline) (easing : Easing) :
      Offers host' host [.timeline t] (produce (·.addAlpha t easing))
        (produce (·.addAlpha t easing))
  | setEasing (a : Ref .alpha) (easing : Easing) :
      Offers host' host [.alpha a] (Locking.setEasing a easing)
        (change (·.modifyAlpha a fun row => { row with easing }))
  -- behaviours
  | addCore : Offers host' host [] (produce (·.addCore)) (produce (·.addCore))
  | makeScale (corners : Corners Fixed) (gravity : Gravity) (alpha : Option (Ref .alpha)) :
      Offers host' host (alpha.map .alpha).toList (Locking.makeScale host' corners gravity alpha)
        (makeScale host corners gravity alpha)
  | makeOpacity (bounds : Range UInt8) (alpha : Option (Ref .alpha)) :
      Offers host' host (alpha.map .alpha).toList (Locking.make host' (.opacity bounds) alpha)
        (makeOpacity host bounds alpha)
  | makeCustom (callback : Callback) (alpha : Option (Ref .alpha)) :
      Offers host' host (alpha.map .alpha).toList (Locking.make host' (.custom callback) alpha)
        (makeCustom host callback alpha)
  | bindTo (b : Ref .behaviour) (alpha : Option (Ref .alpha)) :
      Offers host' host (.behaviour b :: (alpha.map .alpha).toList)
        (Locking.bindTo host' b alpha) (bindTo host b alpha)
  | setScaleBounds (b : Ref .behaviour) (corners : Corners Fixed) :
      Offers host' host [.behaviour b] (Locking.setScaleBounds host' b corners)
        (setScaleBounds host b corners)
  | setGravity (b : Ref .behaviour) (gravity : Gravity) :
      Offers host' host [.behaviour b] (Locking.setGravity host' b gravity)
        (setGravity host b gravity)
  | setOpacityBounds (b : Ref .behaviour) (bounds : Range UInt8) :
      Offers host' host [.behaviour b] (Locking.setOpacityBounds host' b bounds)
        (setOpacityBounds host b bounds)
  | drive (b : Ref .behaviour) (alpha : Nat) :
      Offers host' host [.behaviour b] (Locking.drive host' b alpha) (drive host b alpha)
  | tick (b : Ref .behaviour) :
      Offers host' host [.behaviour b] (Locking.tick host' b) (tick host b)
  -- actors
  | addActor (actor : Actor) :
      Offers host' host [] (produce (·.addActor actor)) (produce (·.addActor actor))
  | ask (a : Ref .actor) (call : ActorCall) :
      Offers host' host [.actor a] (locking (.actor a) (Locking.ask host' a call))
        (ask host a call)
  | applyActor (c : Ref .core) (a : Ref .actor) :
      Offers host' host [.core c, .actor a] (Locking.applyActor c a) (change (·.applyActor c a))
  | removeActor (c : Ref .core) (a : Ref .actor) :
      Offers host' host [.core c, .actor a] (Locking.removeActor c a) (change (·.removeActor c a))
  | clearActors (c : Ref .core) :
      Offers host' host [.core c] (Locking.clearActors c) (change (·.clearActors c))
  | gatherActors (c : Ref .core) :
      Offers host' host [.core c] (Locking.gatherActors c) (produce (·.gatherActors c))
  -- notifiers and emitters
  | addNotifier : Offers host' host [] (produce (·.addNotifier)) (produce (·.addNotifier))
  | register (n : Ref .notifier) (property : Option String) (callback : Callback) :
      Offers host' host [] (Locking.register n property callback)
        (change (·.modifyNotifier n (·.register property callback)))
  | unregister (n : Ref .notifier) (id : Nat) :
      Offers host' host [] (Locking.unregister n id) (change (·.modifyNotifier n (·.unregister id)))
  | notify (n : Ref .notifier) (change : Change) :
      Offers host' host [] (Locking.notify host' n change) (notify host n change)
  | flush (n : Ref .notifier) (batch : Batch) :
      Offers host' host [] (Locking.flush host' n batch) (flush host n batch)
  | addEmitter : Offers host' host [] (produce (·.addEmitter)) (produce (·.addEmitter))
  | registerHandler (m : Ref .emitter) (event : String) (accepts : PayloadKind)
      (callback : Callback) :
      Offers host' host [] (Locking.registerHandler m event accepts callback)
        (registerHandler m event accepts callback)
  | unregisterHandler (m : Ref .emitter) (id : Nat) :
      Offers host' host [] (Locking.unregisterHandler m id) (unregisterHandler m id)
  | emit (m : Ref .emitter) (event : String) (payload : Payload) :
      Offers host' host payload.handles (Locking.emit host' m event payload)
        (emit host m event payload)
  -- tasks
  | spawn (job : Job) :
      Offers host' host job.handles (produce (·.spawn job)) (produce (·.spawn job))
  | abort (k : Ref .task) : Offers host' host [] (change (·.abort k)) (change (·.abort k))

namespace Offers

variable {host' : Host (Guarded υ)} {host : Host υ} {α : Type} {handles : List Handle}

/-- It is what the library offers, -/
theorem offered {x' : Script (Guarded υ) α} {x : Script υ α}
    (h : Offers host' host handles x' x) : Offered host handles x := by
  cases h <;> constructor

/-- and all of it. -/
theorem exists_of_offered (host' : Host (Guarded υ)) {x : Script υ α}
    (h : Offered host handles x) : ∃ x', Offers host' host handles x' x := by
  cases h <;> exact ⟨_, by constructor⟩

end Offers

namespace Shadows

/-- Whatever the library offers does under its locks what it does without them. -/
theorem offers {host' : Host (Guarded υ)} {host : Host υ} (hh : host'.Shadows host) {α : Type}
    {handles : List Handle} {x' : Script (Guarded υ) α} {x : Script υ α}
    (h : Offers host' host handles x' x) : Shadows [] x' x := by
  cases h with
  | retain handle => exact change fun s => (s.rehandled_retain handle).holdsAlike
  | release handle => exact change fun s => (s.rehandled_release handle).holdsAlike
  | addTimeline _ => exact produce fun s => s.holdsAlike_addEmitter
  | setDuration t duration => exact setDuration t duration
  | setFps t fps => exact setFps t fps
  | setRepeats t repeats => exact setRepeats t repeats
  | setDirection t direction => exact setDirection t direction
  | advance t frame => exact advance t frame
  | skip t count => exact skip t count
  | rewind t => exact rewind t
  | nextFrame t => exact nextFrame hh t
  | start t => exact start hh t
  | pause t => exact pause hh t
  | stop t => exact stop hh t
  | addAlpha t _ => exact produce fun s => (s.rehandled_retain (.timeline t)).holdsAlike
  | makeScale corners gravity alpha => exact makeScale hh corners gravity alpha
  | makeOpacity _ alpha | makeCustom _ alpha => exact make hh _ alpha
  | bindTo b alpha => exact bindTo hh b alpha
  | setScaleBounds b corners => exact setScaleBounds hh b corners
  | setGravity b gravity => exact setGravity hh b gravity
  | setOpacityBounds b bounds => exact setOpacityBounds hh b bounds
  | drive b alpha => exact drive hh b alpha
  | tick b => exact tick hh b
  | ask a call => exact locking_actor (ask hh a call)
  | applyActor c a => exact writing List.not_mem_nil rfl fun s => s.holdsAlike_applyActor c a
  | removeActor c a => exact writing List.not_mem_nil rfl fun s => s.holdsAlike_removeActor c a
  | gatherActors c => exact accessing List.not_mem_nil rfl fun _ _ => rfl
  | notify n change => exact notify hh n change
  | flush n batch => exact flush hh n batch
  | addEmitter => exact produce fun s => s.holdsAlike_addEmitter
  | registerHandler m event accepts callback => exact registerHandler m event accepts callback
  | unregisterHandler m id => exact unregisterHandler m id
  | emit m event payload => exact emit hh m event payload
  | spawn job => exact produce fun s => s.holdsAlike_spawn job
  | abort k => exact change fun s => s.holdsAlike_abort k
  | setEasing _ _ | clearActors _ | register _ _ _ | unregister _ _ =>
      exact writing List.not_mem_nil rfl fun _ _ => rfl
  | addCore | addActor _ | addNotifier => exact produce fun _ _ => rfl

end Shadows

/-- What users do under locks, in courses and in the turns of tasks, and what that is without them.
Those who are called back are such users. They read what is behind a lock under that lock, and may
look at the rest. -/
inductive Likewise : {α : Type} → Script (Guarded υ) α → Script υ α → Prop
  | call {host' : Host (Guarded υ)} {host : Host υ} {α : Type} {handles : List Handle}
      {x' : Script (Guarded υ) α} {x : Script υ α} (offers : Offers host' host handles x' x)
      (curves : host'.curves = host.curves)
      (notified : ∀ callback change,
        Likewise (host'.notified callback change) (host.notified callback change))
      (called : ∀ callback payload,
        Likewise (host'.called callback payload) (host.called callback payload))
      (driven : ∀ callback alpha,
        Likewise (host'.driven callback alpha) (host.driven callback alpha))
      (reacts : ∀ a call, Likewise (host'.reacts a call) (host.reacts a call)) :
      Likewise (owning handles x') (owning handles x)
  | visit {c : Ref .core} {visit' : Ref .actor → Script (Guarded υ) Unit}
      {visit : Ref .actor → Script υ Unit} (h : ∀ a, Likewise (visit' a) (visit a)) :
      Likewise (owning [.core c] (Locking.forEachActor c fun a => entering .visitor (visit' a)))
        (owning [.core c] (forEachActor c visit))
  | turn {host' : Host (Guarded υ)} {host : Host υ} (k : Ref .task)
      (curves : host'.curves = host.curves)
      (notified : ∀ callback change,
        Likewise (host'.notified callback change) (host.notified callback change))
      (called : ∀ callback payload,
        Likewise (host'.called callback payload) (host.called callback payload))
      (driven : ∀ callback alpha,
        Likewise (host'.driven callback alpha) (host.driven callback alpha))
      (reacts : ∀ a call, Likewise (host'.reacts a call) (host.reacts a call))
      (resume : ∀ code, Likewise (host'.resume code) (host.resume code)) :
      Likewise (Locking.takeTurn host' k) (takeTurn host k)
  | read {α : Type} (l : Lock) (f : Stage → α) : Likewise (reading l f) (return f (← stage))
  | look : Likewise (return (← get).bare) (get : Script υ (World υ))
  | write (f : World υ → υ) :
      Likewise (modify fun w => { w with user := { w.user with own := f w.bare } })
        (modify fun w => { w with user := f w })
  | pure {α : Type} (a : α) : Likewise (pure a) (pure a)
  | bind {α β : Type} {x' : Script (Guarded υ) α} {x : Script υ α}
      {f' : α → Script (Guarded υ) β} {f : α → Script υ β} (hx : Likewise x' x)
      (hf : ∀ a, Likewise (f' a) (f a)) : Likewise (x' >>= f') (x >>= f)
  | breakOff {α : Type} (cause : Violation) :
      Likewise (throw (.violation cause) : Script (Guarded υ) α) (throw (.violation cause))
  | goOn {α : Type} {x' : Script (Guarded υ) α} {x : Script υ α} (h : Likewise x' x) :
      Likewise x'.attempt x.attempt

namespace Likewise

theorem shadows {α : Type} {x' : Script (Guarded υ) α} {x : Script υ α} (h : Likewise x' x) :
    Shadows [] x' x := by
  -- What is called back stands below the call, so it is known to agree when the call is met.
  induction h with
  | call offers curves _ _ _ _ notified called driven reacts =>
      exact .owning _ (.offers ⟨curves, notified, called, driven, reacts⟩ offers)
  | visit _ ih => exact .owning _ (.forEachActor (fun a => .entering .visitor (ih a)) _)
  | turn k curves _ _ _ _ _ notified called driven reacts resume =>
      exact .takeTurn ⟨curves, notified, called, driven, reacts⟩ resume k
  | read l f => exact .reading List.not_mem_nil f
  | look => exact .look
  | write f => exact .write f
  | pure a => exact .pure a
  | bind _ _ hx hf => exact .bind hx hf
  | breakOff cause => exact .violation cause
  | goOn _ ih => exact .attempt ih

/-- Whoever is called back is called while the operation that calls back holds nothing, but for the
lock of an emitter whose handlers are called and of an actor that is asked. Only for such a lock
does anybody ever wait, and only while the call for which it is held goes on. Otherwise all goes as
it goes without locks, and in the end all of them are free. -/
theorem waits_only_for_lenders {α : Type} {x' : Script (Guarded υ) α} {x : Script υ α}
    (h : Likewise x' x) {s : Stage} (free : s.AtLiberty) (own : υ) :
    let outcome := x'.run ⟨s, .idle own⟩
    let locks := outcome.2.user
    (∀ e ∈ locks.entrances, e.IsFair) ∧
      (outcome.1 = .error .stuck →
        ∃ e ∈ locks.entrances, ∃ l ∈ e.callee.lent, locks.wanted = some l ∧ l ∈ locks.lent) ∧
      (outcome.1 ≠ .error .stuck →
        outcome.1 = (x.run ⟨s, own⟩).1 ∧ outcome.2.bare = (x.run ⟨s, own⟩).2 ∧
          locks.held = [] ∧ outcome.2.stage.AtLiberty) := by
  have agrees : Agrees (World.IsSound [] []) (x'.run ⟨s, .idle own⟩) (x.run ⟨s, own⟩) :=
    h.shadows [] _ (.idle free own)
  dsimp only
  generalize x'.run ⟨s, .idle own⟩ = p', x.run ⟨s, own⟩ = p at agrees ⊢
  cases agrees with
  | waits wants mem lender fair =>
      obtain ⟨e, entered, lends⟩ := lender
      exact ⟨fair, fun _ => ⟨e, entered, _, lends, wants, mem⟩, fun goes => absurd rfl goes⟩
  | same goes left =>
      refine ⟨left.fair, fun stuck => absurd stuck goes,
        fun _ => ⟨rfl, rfl, left.held, fun m => ?_⟩⟩
      rw [left.emitters, left.held]
      rfl

theorem offered {α : Type} {handles : List Handle} {x' : Script (Guarded υ) α} {x : Script υ α}
    (h : Offers (.silent (Guarded υ)) (.silent υ) handles x' x) :
    Likewise (owning handles x') (owning handles x) :=
  .call h rfl (fun _ _ => .pure ()) (fun _ _ => .pure 0) (fun _ _ => .pure ()) fun _ _ => .pure ()

section Interjection

/-- A listener registers a handler, has it called and takes it away again, and takes itself away
from the notifier that calls it, all while a change is being delivered to it. -/
def interjecting : Host Unit := { Host.silent Unit with
  notified := fun _ _ => do
    let _ ← owning [] (registerHandler ⟨0⟩ "heard" .unit 0)
    let _ ← owning [] (emit (.silent Unit) ⟨0⟩ "heard" .unit)
    let _ ← owning [] (unregisterHandler ⟨0⟩ 0)
    let _ ← owning [] (change (·.modifyNotifier ⟨0⟩ (·.unregister 0))) }

def interjectingLocked : Host (Guarded Unit) := { Host.silent (Guarded Unit) with
  notified := fun _ _ => do
    let _ ← owning [] (Locking.registerHandler ⟨0⟩ "heard" .unit 0)
    let _ ← owning [] (Locking.emit (.silent (Guarded Unit)) ⟨0⟩ "heard" .unit)
    let _ ← owning [] (Locking.unregisterHandler ⟨0⟩ 0)
    let _ ← owning [] (Locking.unregister ⟨0⟩ 0) }

def interjection : Script Unit Unit := do
  let _ ← owning [] (produce (·.addNotifier))
  let _ ← owning [] (produce (·.addEmitter))
  let _ ← owning [] (change (·.modifyNotifier ⟨0⟩ (·.register none 0)))
  let _ ← owning [] (notify interjecting ⟨0⟩ ⟨"opacity-start", .null⟩)

def interjectionLocked : Script (Guarded Unit) Unit := do
  let _ ← owning [] (produce (·.addNotifier))
  let _ ← owning [] (produce (·.addEmitter))
  let _ ← owning [] (Locking.register ⟨0⟩ none 0)
  let _ ← owning [] (Locking.notify interjectingLocked ⟨0⟩ ⟨"opacity-start", .null⟩)

theorem likewise_interjection : Likewise interjectionLocked interjection := by
  have listens : ∀ callback change, Likewise (interjectingLocked.notified callback change)
      (interjecting.notified callback change) := fun _ _ =>
    .bind (.offered (.registerHandler ⟨0⟩ "heard" .unit 0)) fun _ =>
      .bind (.offered (.emit ⟨0⟩ "heard" .unit)) fun _ =>
        .bind (.offered (.unregisterHandler ⟨0⟩ 0)) fun _ =>
          .bind (.offered (.unregister ⟨0⟩ 0)) fun _ => .pure ()
  exact .bind (.offered .addNotifier) fun _ => .bind (.offered .addEmitter) fun _ =>
    .bind (.offered (.register ⟨0⟩ none 0)) fun _ => .bind
      (.call (.notify ⟨0⟩ _) rfl listens (fun _ _ => .pure 0) (fun _ _ => .pure ())
        fun _ _ => .pure ())
      fun _ => .pure ()

theorem waits_only_for_lenders_interjection :
    let outcome := interjectionLocked.run ⟨.empty true, .idle ()⟩
    (∀ e ∈ outcome.2.user.entrances, e.IsFair) ∧ outcome.1 ≠ .error .stuck ∧
      outcome.2.user.held = [] ∧ outcome.2.user.entrances.length = 2 ∧
      outcome.2.stage.tasks.size = 1 := by
  have waits := likewise_interjection.waits_only_for_lenders (Stage.atLiberty_empty true) ()
  have goes : (interjectionLocked.run ⟨.empty true, .idle ()⟩).1 ≠ .error .stuck := by
    decide +kernel
  exact ⟨waits.1, goes, (waits.2.2 goes).2.2.1, by decide +kernel⟩

end Interjection

end Likewise

/-- A handler that begins by taking the lock of the emitter that calls it waits for good, and with
it whoever emitted the event. -/
theorem run_emit_of_needy {host : Host (Guarded υ)} {w : World (Guarded υ)} {m : Ref .emitter}
    (free : .handlers m ∉ w.user.held) {event : String} {payload : Payload} {h : Handler}
    {rest : List Handler} (first : (w.stage.emitters.get m).handling event = h :: rest)
    (accepts : h.matches payload = true) {α : Type} {x : Script (Guarded υ) α}
    {f : α → Script (Guarded υ) Nat}
    (needs : host.called h.callback payload = locking (.handlers m) x >>= f) :
    ((Locking.emit host m event payload).run w).1 = .error .stuck := by
  let inside : World (Guarded υ) :=
    ⟨hold true m ((w.stage.note (.emitted m event payload)).retainAll payload.handles),
      w.user.take (.handlers m)⟩
  let entered : World (Guarded υ) := { inside with user := inside.user.enter (.handler m) }
  let waiting : World (Guarded υ) := { entered with user := entered.user.want (.handlers m) }
  have called : (host.called h.callback payload).run entered = (.error .stuck, waiting) := by
    rw [needs, run_bind, run_locking_of_held (show _ ∈ entered.user.held from List.mem_cons_self)]
  have enters : (entering (.handler m) (host.called h.callback payload)).run inside =
      (.error .stuck, waiting) := run_between_of_stuck called
  have offers : (Locking.offer host m event payload h).run inside = (.error .stuck, waiting) := by
    rw [Locking.offer, run_bind, Locking.respond, if_pos accepts, run_bind, enters]
  have visits : (forEach (Locking.offer host m event payload) (h :: rest)).run inside =
      (.error .stuck, waiting) := by
    simp [offers, run_bind]
  unfold Locking.emit
  rw [run_locking_of_free free, run_between_fst, run_stage_bind]
  dsimp only
  rw [run_note_bind, first]
  exact congrArg Prod.fst visits

/-- A handler registers again with the emitter that calls it. -/
def echoing : Host (Guarded Unit) := { Host.silent (Guarded Unit) with
  called := fun _ _ => Locking.registerHandler ⟨0⟩ "changed" .unit 0 }

def echo : Script (Guarded Unit) Unit := do
  let _ ← produce (·.addEmitter)
  let _ ← Locking.registerHandler ⟨0⟩ "changed" .unit 0
  Locking.emit echoing ⟨0⟩ "changed" .unit

theorem stuck_in_echo :
    let outcome := echo.run ⟨.empty true, .idle ()⟩
    outcome.1 = .error .stuck ∧ outcome.2.user.wanted = some (.handlers ⟨0⟩) ∧
      outcome.2.user.entrances.map (·.held) = [[.handlers ⟨0⟩]] ∧
      outcome.2.user.entrances.map (·.outer) = [[]] := by
  decide +kernel

end Animation
