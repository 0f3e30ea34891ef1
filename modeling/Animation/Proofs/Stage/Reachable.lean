/-
# The stages that can arise

Those who use a stage put together, as they like, what the library offers on things that
they have handles on, and their callbacks do the same while the library runs. A course is
whatever they do in this way. Courses are built up from their callbacks, so that callbacks
call back within callbacks to any depth, but not for ever.

A stage can arise if it is met at any point, from an empty stage on, while courses and the
tasks of the stage run: the callers put down on pages of their own state what they meet.
-/

import Animation.Proofs.Script.Services

namespace Animation

variable {υ : Type}

/-- Callbacks that do nothing. -/
def Host.silent (υ : Type) : Host υ where
  curves := Easing.drawn
  notified _ _ := pure ()
  called _ _ := pure 0
  driven _ _ := pure ()
  reacts _ _ := pure ()
  resume _ := pure (.ends none)

namespace Script

/-- Do something with things that one has handles on. They are there until it is over. -/
def owning {α : Type} (handles : List Handle) (x : Script υ α) : Script υ (Option α) := do
  if handles.all (← stage).isAlive then
    return some (← holding handles x)
  else return none

/-- What the library offers, and the handles that each of it takes. -/
inductive Offered (host : Host υ) : {α : Type} → List Handle → Script υ α → Prop
  | retain (handle : Handle) : Offered host [handle] (change (·.retain handle))
  | release (handle : Handle) : Offered host [handle] (change (·.release handle))
  -- timelines
  | addTimeline (duration : Nat) : Offered host [] (produce (·.addTimeline duration))
  | setDuration (t : Ref .timeline) (duration : Nat) :
      Offered host [.timeline t] (setDuration t duration)
  | setFps (t : Ref .timeline) (fps : Nat) : Offered host [.timeline t] (setFps t fps)
  | setRepeats (t : Ref .timeline) (repeats : Bool) :
      Offered host [.timeline t] (setRepeats t repeats)
  | setDirection (t : Ref .timeline) (direction : Direction) :
      Offered host [.timeline t] (setDirection t direction)
  | advance (t : Ref .timeline) (frame : Nat) : Offered host [.timeline t] (advance t frame)
  | skip (t : Ref .timeline) (count : Nat) : Offered host [.timeline t] (skip t count)
  | rewind (t : Ref .timeline) : Offered host [.timeline t] (rewind t)
  | nextFrame (t : Ref .timeline) : Offered host [.timeline t] (nextFrame host t)
  | start (t : Ref .timeline) : Offered host [.timeline t] (start host t)
  | pause (t : Ref .timeline) : Offered host [.timeline t] (pause host t)
  | stop (t : Ref .timeline) : Offered host [.timeline t] (stop host t)
  -- alphas
  | addAlpha (t : Ref .timeline) (easing : Easing) :
      Offered host [.timeline t] (produce (·.addAlpha t easing))
  | setEasing (a : Ref .alpha) (easing : Easing) :
      Offered host [.alpha a] (change (·.modifyAlpha a fun row => { row with easing }))
  -- behaviours
  | addCore : Offered host [] (produce (·.addCore))
  | makeScale (corners : Corners Fixed) (gravity : Gravity) (alpha : Option (Ref .alpha)) :
      Offered host (alpha.map .alpha).toList (makeScale host corners gravity alpha)
  | makeOpacity (bounds : Range UInt8) (alpha : Option (Ref .alpha)) :
      Offered host (alpha.map .alpha).toList (makeOpacity host bounds alpha)
  | makeCustom (callback : Callback) (alpha : Option (Ref .alpha)) :
      Offered host (alpha.map .alpha).toList (makeCustom host callback alpha)
  | bindTo (b : Ref .behaviour) (alpha : Option (Ref .alpha)) :
      Offered host (.behaviour b :: (alpha.map .alpha).toList) (bindTo host b alpha)
  | setScaleBounds (b : Ref .behaviour) (corners : Corners Fixed) :
      Offered host [.behaviour b] (setScaleBounds host b corners)
  | setGravity (b : Ref .behaviour) (gravity : Gravity) :
      Offered host [.behaviour b] (setGravity host b gravity)
  | setOpacityBounds (b : Ref .behaviour) (bounds : Range UInt8) :
      Offered host [.behaviour b] (setOpacityBounds host b bounds)
  | drive (b : Ref .behaviour) (alpha : Nat) : Offered host [.behaviour b] (drive host b alpha)
  | tick (b : Ref .behaviour) : Offered host [.behaviour b] (tick host b)
  -- actors
  | addActor (actor : Actor) : Offered host [] (produce (·.addActor actor))
  | ask (a : Ref .actor) (call : ActorCall) : Offered host [.actor a] (ask host a call)
  | applyActor (c : Ref .core) (a : Ref .actor) :
      Offered host [.core c, .actor a] (change (·.applyActor c a))
  | removeActor (c : Ref .core) (a : Ref .actor) :
      Offered host [.core c, .actor a] (change (·.removeActor c a))
  | clearActors (c : Ref .core) : Offered host [.core c] (change (·.clearActors c))
  | gatherActors (c : Ref .core) : Offered host [.core c] (produce (·.gatherActors c))
  -- notifiers and emitters
  | addNotifier : Offered host [] (produce (·.addNotifier))
  | register (n : Ref .notifier) (property : Option String) (callback : Callback) :
      Offered host [] (change (·.modifyNotifier n (·.register property callback)))
  | unregister (n : Ref .notifier) (id : Nat) :
      Offered host [] (change (·.modifyNotifier n (·.unregister id)))
  | notify (n : Ref .notifier) (change : Change) : Offered host [] (notify host n change)
  | flush (n : Ref .notifier) (batch : Batch) : Offered host [] (flush host n batch)
  | addEmitter : Offered host [] (produce (·.addEmitter))
  | registerHandler (m : Ref .emitter) (event : String) (accepts : PayloadKind)
      (callback : Callback) : Offered host [] (registerHandler m event accepts callback)
  | unregisterHandler (m : Ref .emitter) (id : Nat) : Offered host [] (unregisterHandler m id)
  | emit (m : Ref .emitter) (event : String) (payload : Payload) :
      Offered host payload.handles (emit host m event payload)
  -- tasks
  | spawn (job : Job) : Offered host job.handles (produce (·.spawn job))
  | abort (k : Ref .task) : Offered host [] (change (·.abort k))

/-- What users of a stage do: they make calls, go by what they read, write down what they
like in their own state, and may break off, or go on after a call that was broken off. -/
inductive Course (pages : υ → List Stage) : {α : Type} → Script υ α → Prop
  | call {host : Host υ} {α : Type} {handles : List Handle} {x : Script υ α}
      (offered : Offered host handles x)
      (notified : ∀ callback change, Course pages (host.notified callback change))
      (called : ∀ callback payload, Course pages (host.called callback payload))
      (driven : ∀ callback alpha, Course pages (host.driven callback alpha))
      (reacts : ∀ a call, Course pages (host.reacts a call)) : Course pages (owning handles x)
  | visit {c : Ref .core} {visit : Ref .actor → Script υ Unit}
      (h : ∀ a, Course pages (visit a)) : Course pages (owning [.core c] (forEachActor c visit))
  | look : Course pages (get : Script υ (World υ))
  | write {f : World υ → υ} (h : ∀ w, ∀ s ∈ pages (f w), s = w.stage ∨ s ∈ pages w.user) :
      Course pages (modify fun w => { w with user := f w } : Script υ Unit)
  | pure {α : Type} (a : α) : Course pages (pure a)
  | bind {α β : Type} {x : Script υ α} {f : α → Script υ β} (hx : Course pages x)
      (hf : ∀ a, Course pages (f a)) : Course pages (x >>= f)
  | breakOff {α : Type} (fault : Fault) : Course pages (throw fault : Script υ α)
  | goOn {α : Type} {x : Script υ α} (h : Course pages x) : Course pages x.attempt

theorem Course.offered {pages : υ → List Stage} {α : Type} {handles : List Handle}
    {x : Script υ α} (h : Offered (Host.silent υ) handles x) : Course pages (owning handles x) :=
  .call h (fun _ _ => .pure ()) (fun _ _ => .pure 0) (fun _ _ => .pure ()) (fun _ _ => .pure ())

section Passing

variable {pages : υ → List Stage} {w : World υ}

theorem passes_owning {α : Type} {handles : List Handle} {x : Script υ α}
    (h : ∀ w : World υ, (∀ handle ∈ handles, w.stage.isAlive handle) → x.Passes pages w) :
    (owning handles x).Passes pages w := by
  apply passes_stage_bind
  split
  · next alive =>
      rw [List.all_eq_true] at alive
      refine passes_bind (passes_holding (fun b hb => alive _ hb) (h _ fun handle mem => ?_))
        fun _ _ _ _ => passes_pure _
      exact Stage.isAlive_retainAll (alive handle mem)
  · exact passes_pure _

theorem Offered.passes {host : Host υ} (hh : host.Passing pages) {α : Type}
    {handles : List Handle} {x : Script υ α} (offered : Offered host handles x)
    (alive : ∀ handle ∈ handles, w.stage.isAlive handle) : x.Passes pages w := by
  have alive_alpha : ∀ {alpha : Option (Ref .alpha)} (rest : List Handle),
      handles = rest ++ (alpha.map .alpha).toList → ∀ a, alpha = some a →
        w.stage.isAlive (.alpha a) := by
    rintro _ rest rfl a rfl
    exact alive _ (by simp)
  cases offered with
  | retain handle =>
      refine passes_change (.single (.retain fun b e => alive _ ?_))
      rw [e]
      exact List.mem_singleton_self _
  | release handle => exact passes_change (.single (.release handle))
  | addTimeline duration => exact passes_produce (.single (.addTimeline duration))
  | setDuration t duration => exact passes_setDuration t duration
  | setFps t fps => exact passes_setFps t fps
  | setRepeats t repeats => exact passes_setRepeats t repeats
  | setDirection t direction => exact passes_setDirection t direction
  | advance t frame => exact passes_advance t frame
  | skip t count => exact passes_skip t count
  | rewind t => exact passes_rewind t
  | nextFrame t => exact hh.nextFrame w t
  | start t => exact hh.start w t
  | pause t => exact hh.pause w t
  | stop t => exact hh.stop w t
  | addAlpha t easing => exact passes_produce (.single (.addAlpha t easing))
  | setEasing a easing => exact passes_change (.single (.setEasing a easing))
  | addCore => exact passes_produce (.single .addCore)
  | makeScale corners gravity alpha =>
      exact hh.makeScale w corners gravity (alive_alpha [] rfl)
  | makeOpacity bounds alpha => exact hh.makeOpacity w bounds (alive_alpha [] rfl)
  | makeCustom callback alpha => exact hh.makeCustom w callback (alive_alpha [] rfl)
  | bindTo b alpha =>
      exact hh.bindTo w (alive _ (List.mem_cons_self ..)) (alive_alpha [.behaviour b] rfl)
  | setScaleBounds b corners => exact hh.setScaleBounds w b corners
  | setGravity b gravity => exact hh.setGravity w b gravity
  | setOpacityBounds b bounds => exact hh.setOpacityBounds w b bounds
  | drive b alpha => exact hh.drive w b alpha
  | tick b => exact hh.tick w b
  | addActor actor => exact passes_produce (.single (.addActor actor))
  | ask a call => exact hh.ask w a call
  | applyActor c a => exact passes_change (Stage.moves_applyActor _ c a)
  | removeActor c a => exact passes_change (Stage.moves_removeActor _ c a)
  | clearActors c => exact passes_change (.single (Stage.move_clearActors _ c))
  | gatherActors c => exact passes_produce (.single (Stage.move_pruneActors _ c))
  | addNotifier => exact passes_produce (.single .addNotifier)
  | register n property callback => exact passes_change (.single (.modifyNotifier ..))
  | unregister n id => exact passes_change (.single (.modifyNotifier ..))
  | notify n change => exact hh.notify w n change
  | flush n batch => exact hh.flush w n batch
  | addEmitter => exact passes_produce (.single .addEmitter)
  | registerHandler m event accepts callback =>
      exact passes_registerHandler m event accepts callback
  | unregisterHandler m id => exact passes_unregisterHandler m id
  | emit m event payload => exact hh.emit w m event payload
  | spawn job => exact passes_produce (moves_spawn _ job)
  | abort k => exact passes_change (moves_abort _ k)

/-- A course is made of moves, whatever it is put together from. -/
theorem Course.passes {α : Type} {x : Script υ α} (course : Course pages x) (w : World υ) :
    x.Passes pages w := by
  induction course generalizing w with
  | call offered _ _ _ _ notified called driven reacts =>
      have hh : Host.Passing pages _ := ⟨notified, called, driven, reacts⟩
      exact passes_owning fun w alive => offered.passes hh alive
  | visit _ ih => exact passes_owning fun w _ => Host.Passing.forEachActor w ih _
  | look => exact fun _ => .refl
  | write h => exact fun _ => .single (.write (h w))
  | pure a => exact passes_pure a
  | bind _ _ hx hf => exact passes_bind (hx w) fun a w _ _ => hf a w
  | breakOff fault => exact passes_throw fault
  | goOn _ ih => exact passes_attempt (ih w)

end Passing

end Script

/-- The worlds that come of courses, of the turns of tasks and of the passing of time. -/
inductive Arises (pages : υ → List Stage) : World υ → Prop
  | opening (hasChannel : Bool) {u : υ} (h : pages u = []) :
      Arises pages ⟨.empty hasChannel, u⟩
  | course {w : World υ} {α : Type} {x : Script υ α} (h : Arises pages w)
      (hx : Script.Course pages x) : Arises pages (x.run w).2
  | turn {w : World υ} {host : Host υ} (k : Ref .task) (h : Arises pages w)
      (notified : ∀ callback change, Script.Course pages (host.notified callback change))
      (called : ∀ callback payload, Script.Course pages (host.called callback payload))
      (driven : ∀ callback alpha, Script.Course pages (host.driven callback alpha))
      (reacts : ∀ a call, Script.Course pages (host.reacts a call))
      (resume : ∀ code, Script.Course pages (host.resume code)) :
      Arises pages ((Script.takeTurn host k).run w).2
  | time {w : World υ} (now : Nat) (h : Arises pages w) :
      Arises pages { w with stage := w.stage.setNow now }
  | drain {w : World υ} (h : Arises pages w) :
      Arises pages { w with stage := Script.drainChannel w.stage }

/-- A stage can be met: at the end of all that has happened, or on a page. -/
def Stage.Reachable (s : Stage) : Prop :=
  ∃ (υ : Type) (pages : υ → List Stage) (w : World υ), Arises pages w ∧ s ∈ w.stage :: pages w.user

/-- What holds of the empty stages and is kept by every move, together with the ties, holds of
all worlds that arise, and of all their pages. -/
theorem Arises.keeps {pages : υ → List Stage} {w : World υ} (h : Arises pages w)
    {P : Stage → Prop} (empty : ∀ hasChannel, P (.empty hasChannel))
    (keep : ∀ {s s' : Stage}, s.Move s' → P s → P s') :
    w.stage.Tied ∧ P w.stage ∧ ∀ s ∈ pages w.user, P s := by
  have step : ∀ {w w' : World υ}, (w.stage.Tied ∧ P w.stage ∧ ∀ s ∈ pages w.user, P s) →
      w.Passages pages w' → w'.stage.Tied ∧ P w'.stage ∧ ∀ s ∈ pages w'.user, P s :=
    fun ⟨tied, hw, hpages⟩ passed =>
      ⟨passed.keeps Stage.Move.tied tied, passed.keeps keep hw, passed.keeps_pages keep hw hpages⟩
  induction h with
  | opening hasChannel none =>
      refine ⟨Stage.tied_empty hasChannel, empty hasChannel, fun s hs => ?_⟩
      rw [none] at hs
      exact nomatch hs
  | course _ hx ih => exact step ih (hx.passes _ ih.1)
  | turn k _ notified called driven reacts resume ih =>
      have hh : Host.Passing pages _ := ⟨fun callback change => (notified callback change).passes,
        fun callback payload => (called callback payload).passes,
        fun callback alpha => (driven callback alpha).passes, fun a call => (reacts a call).passes⟩
      exact step ih (hh.takeTurn _ (fun code => (resume code).passes) k ih.1)
  | time now _ ih => exact step ih (.of_moves (.single (.schedule _ _)))
  | drain _ ih => exact step ih (.of_moves (.single (.schedule _ _)))

theorem Arises.reachable {pages : υ → List Stage} {w : World υ} (h : Arises pages w) :
    w.stage.Reachable := ⟨υ, pages, w, h, List.mem_cons_self ..⟩

namespace Stage.Reachable

/-- What holds of the empty stages and is kept by every move holds of all reachable stages. -/
theorem keeps {s : Stage} (h : s.Reachable) {P : Stage → Prop}
    (empty : ∀ hasChannel, P (.empty hasChannel))
    (keep : ∀ {s s' : Stage}, s.Move s' → P s → P s') : P s := by
  obtain ⟨υ, pages, w, arises, hs⟩ := h
  obtain ⟨_, hw, hpages⟩ := arises.keeps empty keep
  rcases List.mem_cons.1 hs with rfl | hs
  · exact hw
  · exact hpages s hs

theorem tied {s : Stage} (h : s.Reachable) : s.Tied := h.keeps tied_empty Move.tied

end Stage.Reachable

end Animation
