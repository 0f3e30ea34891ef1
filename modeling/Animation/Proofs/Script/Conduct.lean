/-
# Rules of conduct

A pact is kept by callbacks that come to their end. A rule of conduct also binds callbacks that
break off, or wait for good: it says in which worlds it is kept, and how the stage before a
script is related to the stage after it, whatever comes of the script.

While it drives actors and calls handlers the library keeps house, which no rule forbids.
Besides it asks actors to do something, and not every rule allows that of every actor. If the
callbacks of a host observe a rule then so do its drives of actors that may be asked, and its
emissions.
-/

import Animation.Proofs.Behaviours.Scene
import Animation.Proofs.Script.Pact

namespace Animation

namespace Stage

/-- What the library does on its own account: moves that are incidental, leave actors as they are
up to the handles on them, and add none to a core. -/
structure Housekeeping (s s' : Stage) : Prop extends s.Incidental s' where
  moves : s.Moves s'
  actor : ∀ x, ∃ n, s'.actors.get x = { s.actors.get x with holders := n }
  cast : ∀ c, (s'.cores.get c).actors ⊆ (s.cores.get c).actors

namespace Housekeeping

variable {s s' : Stage}

/-- Handles are taken and given up, but none on behaviours. -/
theorem of_rehandled (h : s.Rehandled s') (incidental : s.Incidental s') (moves : s.Moves s') :
    s.Housekeeping s' :=
  ⟨incidental, moves, h.actor, fun c => h.actors c ▸ List.Subset.refl _⟩

theorem retainAll (s : Stage) {handles : List Handle}
    (others : ∀ h ∈ handles, h.isOnBehaviour = false) : s.Housekeeping (s.retainAll handles) :=
  of_rehandled (s.rehandled_retainAll handles) (.retainAll s others)
    (moves_retainAll fun _ mem => nomatch others _ mem)

theorem release (s : Stage) {h : Handle} (other : h.isOnBehaviour = false) :
    s.Housekeeping (s.release h) :=
  of_rehandled (s.rehandled_release h) (.release s other) (.single (.release h))

theorem releaseAll (s : Stage) {handles : List Handle}
    (others : ∀ h ∈ handles, h.isOnBehaviour = false) : s.Housekeeping (s.releaseAll handles) :=
  of_rehandled (s.rehandled_releaseAll handles) (.releaseAll s others) (moves_releaseAll s handles)

theorem pruneActors (s : Stage) (c : Ref .core) : s.Housekeeping (s.pruneActors c) :=
  ⟨.pruneActors s c, .single (move_pruneActors s c), fun _ => ⟨_, rfl⟩,
    fun _ _ mem => mem_of_mem_pruneActors mem⟩

theorem note (s : Stage) {what : Occurrence} (h : what.isIncidental) :
    s.Housekeeping (s.note what) :=
  ⟨.note s h, .single (.note what), fun _ => ⟨_, rfl⟩, fun _ => List.Subset.refl _⟩

theorem spawn (s : Stage) {job : Job} (idle : ∀ t, (Task.mk job .ready false).plays t = false) :
    s.Housekeeping (s.spawn job).1 := by
  have incidental := Incidental.spawn s idle
  have moves := Script.moves_spawn s job
  cases channel : s.agenda.channel with
  | none =>
      rw [spawn_of_no_channel channel] at incidental moves ⊢
      exact ⟨incidental, moves, fun _ => ⟨_, rfl⟩, fun _ => List.Subset.refl _⟩
  | some reported =>
      have first := s.rehandled_retainAll job.handles
      rw [spawn_of_channel channel] at incidental moves ⊢
      exact ⟨incidental, moves, first.actor, fun c => first.actors c ▸ List.Subset.refl _⟩

end Housekeeping

end Stage

/-- A rule of conduct: the worlds in which it is kept, and what a script leaves of a stage. -/
structure Conduct (υ : Type) where
  keeps : World υ → Prop
  leaves : Stage → Stage → Prop
  refl : ∀ s, leaves s s
  trans : ∀ {s s' s''}, leaves s s' → leaves s' s'' → leaves s s''
  housekeeping : ∀ {w : World υ} {s : Stage}, keeps w → w.stage.Housekeeping s →
    keeps { w with stage := s } ∧ leaves w.stage s
  /-- Whether an emitter is held does not matter to the rule. -/
  hold : ∀ {w : World υ} (isHeld : Bool) (m : Ref .emitter), keeps w →
    keeps { w with stage := Script.hold isHeld m w.stage }
  /-- An emitter may be held meanwhile that was free. -/
  held : ∀ {s s' m}, (s.emitters.get m).isHeld = false → leaves (Script.hold true m s) s' →
    leaves s (Script.hold false m s')

namespace Conduct

open Script

variable {υ α β : Type} (c : Conduct υ)

/-- One world follows on another as a rule says. -/
structure Follows (w w' : World υ) : Prop where
  keeps : c.keeps w'
  leaves : c.leaves w.stage w'.stage

/-- A script observes a rule in a world, whatever comes of it. -/
def Observes (x : Script υ α) (w : World υ) : Prop := c.keeps w → c.Follows w (x.run w).2

/-- An actor may be asked to do anything that can be asked of actors. -/
def MayAsk (a : Ref .actor) : Prop :=
  ∀ w call, c.keeps w → c.Follows w { w with stage := w.stage.modifyActor a (·.receive call) }

/-- The callbacks of a host that may run while frames are played observe a rule. -/
structure Binds (host : Host υ) : Prop where
  called : ∀ callback payload w, c.Observes (host.called callback payload) w
  driven : ∀ callback alpha w, c.Observes (host.driven callback alpha) w
  reacts : ∀ a call w, c.Observes (host.reacts a call) w

variable {c} {w w' w'' : World υ}

theorem Follows.refl (keeps : c.keeps w) : c.Follows w w := ⟨keeps, c.refl _⟩

theorem Follows.trans (h : c.Follows w w') (h' : c.Follows w' w'') : c.Follows w w'' :=
  ⟨h'.keeps, c.trans h.leaves h'.leaves⟩

theorem follows_housekeeping (keeps : c.keeps w) {s : Stage} (h : w.stage.Housekeeping s) :
    c.Follows w { w with stage := s } :=
  ⟨(c.housekeeping keeps h).1, (c.housekeeping keeps h).2⟩

theorem observes_pure (a : α) : c.Observes (pure a) w := .refl

theorem observes_throw (fault : Fault) : c.Observes (throw fault : Script υ α) w := .refl

theorem observes_bind {x : Script υ α} {f : α → Script υ β} (hx : c.Observes x w)
    (hf : ∀ a w', c.Follows w w' → c.Observes (f a) w') : c.Observes (x >>= f) w := by
  intro keeps
  have first := hx keeps
  rw [run_bind]
  split
  · exact first.trans (hf _ _ first first.keeps)
  · exact first

theorem observes_stage_bind {f : Stage → Script υ β} (hf : c.keeps w → c.Observes (f w.stage) w) :
    c.Observes (stage >>= f) w :=
  fun keeps => hf keeps keeps

/-- After a change of the stage the rest is run. -/
theorem Follows.observes {x : Script υ α} {s : Stage} (first : c.Follows w { w with stage := s })
    (hx : c.Observes x { w with stage := s }) :
    c.Follows w (x.run { w with stage := s }).2 :=
  first.trans (hx first.keeps)

theorem observes_change_bind {g : Stage → Stage} {f : Unit → Script υ β}
    (h : w.stage.Housekeeping (g w.stage))
    (hf : c.Observes (f ()) { w with stage := g w.stage }) : c.Observes (change g >>= f) w :=
  fun keeps => (follows_housekeeping keeps h).observes hf

theorem observes_produce_bind {g : Stage → Stage × α} {f : α → Script υ β}
    (h : w.stage.Housekeeping (g w.stage).1)
    (hf : c.Observes (f (g w.stage).2) { w with stage := (g w.stage).1 }) :
    c.Observes (produce g >>= f) w :=
  fun keeps => (follows_housekeeping keeps h).observes hf

theorem observes_note {what : Occurrence} (h : what.isIncidental) :
    c.Observes (note what : Script υ Unit) w :=
  fun keeps => follows_housekeeping keeps (.note w.stage h)

/-- Something is noted that may be noted, and then the rest is run. -/
theorem observes_note_bind {what : Occurrence} {f : Unit → Script υ β}
    (quiet : c.keeps w → c.Follows w { w with stage := w.stage.note what })
    (hf : c.Observes (f ()) { w with stage := w.stage.note what }) :
    c.Observes (note what >>= f) w :=
  fun keeps => (quiet keeps).observes hf

theorem observes_check_bind {r : Except Violation α} {f : α → Script υ β}
    (hf : ∀ a, c.Observes (f a) w) : c.Observes (check r >>= f) w := by
  cases r with
  | ok a => exact hf a
  | error cause => exact .refl

theorem observes_thenTidy {x : Script υ α} {tidy : Stage → Stage} (hx : c.Observes x w)
    (h : ∀ s : Stage, s.Housekeeping (tidy s)) : c.Observes (x.thenTidy tidy) w := by
  intro keeps
  have first := hx keeps
  exact first.trans (follows_housekeeping first.keeps (h _))

theorem observes_holding {handles : List Handle} {x : Script υ α}
    (others : ∀ h ∈ handles, h.isOnBehaviour = false)
    (hx : c.Observes x { w with stage := w.stage.retainAll handles }) :
    c.Observes (holding handles x) w :=
  observes_change_bind (.retainAll _ others) (observes_thenTidy hx fun s => .releaseAll s others)

theorem observes_attempt {x : Script υ α} (hx : c.Observes x w) : c.Observes x.attempt w := by
  intro keeps
  rw [run_attempt_snd]
  exact hx keeps

theorem observes_forEach {visit : β → Script υ Unit} {list : List β}
    (h : ∀ b ∈ list, ∀ w, c.Observes (visit b) w) (w : World υ) :
    c.Observes (forEach visit list) w := by
  induction list generalizing w with
  | nil => exact .refl
  | cons b rest ih =>
      exact observes_bind (h b (List.mem_cons_self ..) w) fun _ w' _ =>
        ih (fun b' mem => h b' (List.mem_cons_of_mem _ mem)) w'

/-- An emitter that is free is held while a script runs, and then free again. -/
theorem observes_whileHeld {m : Ref .emitter} {x : Script υ Unit}
    (free : (w.stage.emitters.get m).isHeld = false) (hx : ∀ w, c.Observes x w) :
    c.Observes (change (Script.hold true m) >>= fun _ => x.thenTidy (Script.hold false m)) w := by
  intro keeps
  have first := hx _ (c.hold true m keeps)
  exact ⟨c.hold false m first.keeps, c.held free first.leaves⟩

theorem isOnBehaviour_actors {actors : List (Ref .actor)} :
    ∀ h ∈ actors.map Handle.actor, h.isOnBehaviour = false := by
  intro h mem
  obtain ⟨a, -, rfl⟩ := List.mem_map.1 mem
  rfl

theorem observes_escort {visit : Ref .actor → Script υ Unit} {actors : List (Ref .actor)}
    (h : ∀ a ∈ actors, ∀ w, c.Observes (visit a) w) (w : World υ) :
    c.Observes (escort visit actors) w := by
  induction actors generalizing w with
  | nil => exact .refl
  | cons a rest ih =>
      have visits := h a (List.mem_cons_self ..) w
      refine observes_bind (observes_attempt (observes_thenTidy visits fun s =>
        .release s (h := .actor a) rfl)) fun outcome w' _ => ?_
      cases outcome with
      | ok _ => exact ih (fun a' mem => h a' (List.mem_cons_of_mem _ mem)) w'
      | error cause =>
          exact observes_change_bind (.releaseAll _ isOnBehaviour_actors) (observes_throw _)

theorem observes_forEachActor {visit : Ref .actor → Script υ Unit} {k : Ref .core}
    (h : ∀ a ∈ w.stage.actorsOf k, ∀ w, c.Observes (visit a) w) :
    c.Observes (forEachActor k visit) w :=
  observes_produce_bind (.pruneActors _ k)
    (observes_change_bind (.retainAll _ isOnBehaviour_actors) (observes_escort h _))

namespace Binds

variable {host : Host υ} (hh : c.Binds host)

include hh

theorem ask {a : Ref .actor} (may : c.MayAsk a) (call : ActorCall) (w : World υ) :
    c.Observes (Script.ask host a call) w :=
  fun keeps => (may w call keeps).observes (hh.reacts a call _)

theorem askScale {a : Ref .actor} (may : c.MayAsk a) (gravity : Gravity) (x y : Double)
    (w : World υ) : c.Observes (Script.askScale host a gravity x y) w := by
  unfold Script.askScale
  split
  · exact observes_bind (hh.ask may _ w) fun _ w' _ => hh.ask may _ w'
  · exact hh.ask may _ w

/-- A behaviour is driven whose actors may be asked. -/
theorem drive {b : Ref .behaviour} (alpha : Nat)
    (may : c.keeps w → ∀ a ∈ w.stage.actorsOf (w.stage.coreOf b), c.MayAsk a) :
    c.Observes (Script.drive host b alpha) w := by
  refine observes_stage_bind fun keeps => ?_
  dsimp only
  split
  · exact observes_check_bind fun _ =>
      observes_forEachActor fun a mem => hh.askScale (may keeps a mem) _ _ _
  · exact observes_check_bind fun _ =>
      observes_forEachActor fun a mem => hh.ask (may keeps a mem) _
  · next callback _ => exact hh.driven callback alpha w

theorem respond (m : Ref .emitter) (event : String) (payload : Payload) (h : Handler)
    {f : Job → Script υ β} (hf : ∀ job w', (∀ t, (Task.mk job .ready false).plays t = false) →
      c.Observes (f job) w') : c.Observes (Script.respond host m event payload h >>= f) w := by
  unfold Script.respond
  split
  · rw [bind_assoc]
    exact observes_bind (hh.called _ _ w) fun _ w' _ => hf _ w' fun _ => rfl
  · rw [bind_assoc]
    exact observes_bind (observes_note rfl) fun _ w' _ => hf _ w' fun _ => rfl

theorem offer (m : Ref .emitter) (event : String) (payload : Payload) (h : Handler)
    (w : World υ) : c.Observes (Script.offer host m event payload h) w := by
  refine hh.respond m event payload h fun job w' idle => observes_produce_bind (.spawn _ idle) ?_
  split
  · exact observes_pure ()
  · exact observes_note rfl

/-- An emission is noted, which may be noted, and then handed to the handlers. -/
theorem emit {m : Ref .emitter} {event : String} {payload : Payload}
    (quiet : c.keeps w → c.Follows w { w with stage := w.stage.note (.emitted m event payload) }) :
    c.Observes (Script.emit host m event payload) w := by
  cases free : (w.stage.emitters.get m).isHeld with
  | true =>
      intro keeps
      rw [run_emit_of_held free]
      exact .refl keeps
  | false =>
      intro keeps
      unfold Script.emit
      rw [run_bind_of_ok (run_await_of_free free)]
      refine observes_note_bind quiet ?_ keeps
      split
      · exact observes_pure ()
      · have free' : ((w.stage.note (.emitted m event payload)).retainAll payload.handles
            |>.emitters.get m).isHeld = false := by
          rw [(Stage.rehandled_retainAll _ _).emitters]
          exact free
        exact observes_holding Handle.isOnBehaviour_of_timeline?
          (observes_whileHeld free' (observes_forEach fun h _ => hh.offer m event payload h))

theorem announce {t : Ref .timeline} {event : TimelineEvent} {payload : Payload}
    (quiet : c.keeps w → c.Follows w
      { w with stage := w.stage.note (.emitted (w.stage.emitterOf t) event.name payload) }) :
    c.Observes (Script.announce host t event payload) w := by
  unfold Script.announce
  exact observes_stage_bind fun _ => hh.emit quiet

end Binds

end Conduct

end Animation
