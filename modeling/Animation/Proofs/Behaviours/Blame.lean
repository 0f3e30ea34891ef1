/-
# Who is to blame for a frame that breaks off

While a frame is played the library calls back handlers, behaviours of the callers' own making
and actors. These may break off because of a precondition of theirs, and then so does the frame.
`Excused` says that a script breaks off for no other reason: if it does, then its run has come to a
callback that did. It is carried from the parts of a script to the whole.

Bounds that have passed their check are what keeps the library from breaking off by itself, and
an alpha that is not beyond the end. Both hold whenever a callback returns.
-/

import Animation.Proofs.Behaviours.Path
import Animation.Proofs.Script.Services
import Animation.Proofs.Stage.InOrder
import Animation.Proofs.Timeline.Ramp

namespace Animation

/-- The ties of a stage are in order, and all bounds have passed their check. -/
structure Stage.InTune (s : Stage) : Prop where
  tied : s.Tied
  checked : ∀ b, (s.behaviours.get b).drive.Checked

theorem Stage.Reachable.inTune {s : Stage} (h : s.Reachable) : s.InTune := ⟨h.tied, h.checked⟩

theorem World.Passages.inTune {υ : Type} {pages : υ → List Stage} {w w' : World υ}
    (h : w.Passages pages w') (inTune : w.stage.InTune) : w'.stage.InTune :=
  ⟨h.keeps Stage.Move.tied inTune.tied, h.keeps Stage.Move.checked inTune.checked⟩

theorem Stage.alphaValue_le (s : Stage) (curves : Curves) (a : Ref .alpha) :
    s.alphaValue curves a ≤ alphaMax :=
  Easing.sample_le ..

/-- In its run from `w` a script comes to the run of `y` from `v`: `y` is all of it, or a part of it
that has its turn. -/
inductive Script.Comes {υ β : Type} (y : Script υ β) (v : World υ) :
    {α : Type} → Script υ α → World υ → Prop
  | here : Comes y v y v
  | first {α γ : Type} {x : Script υ α} {f : α → Script υ γ} {w : World υ} (h : Comes y v x w) :
      Comes y v (x >>= f) w
  | next {α γ : Type} {x : Script υ α} {f : α → Script υ γ} {w w' : World υ} {a : α}
      (run : x.run w = (.ok a, w')) (h : Comes y v (f a) w') : Comes y v (x >>= f) w
  | tidied {α : Type} {x : Script υ α} {tidy : Stage → Stage} {w : World υ} (h : Comes y v x w) :
      Comes y v (x.thenTidy tidy) w
  | attempted {α : Type} {x : Script υ α} {w : World υ} (h : Comes y v x w) : Comes y v x.attempt w

/-- In its run from `w` a script comes to a callback, one of those that are called during frames,
and this breaks off at once. A behaviour is only ever driven to an alpha that is not beyond the
end. -/
inductive Host.BreaksOff {υ α : Type} (host : Host υ) (x : Script υ α) (w v : World υ)
    (cause : Violation) : Prop
  | called {callback : Callback} {payload : Payload}
      (comes : (host.called callback payload).Comes v x w)
      (h : ((host.called callback payload).run v).1 = .error (.violation cause))
  | driven {callback : Callback} {alpha : Nat} (le : alpha ≤ alphaMax)
      (comes : (host.driven callback alpha).Comes v x w)
      (h : ((host.driven callback alpha).run v).1 = .error (.violation cause))
  | reacts {a : Ref .actor} {call : ActorCall} (comes : (host.reacts a call).Comes v x w)
      (h : ((host.reacts a call).run v).1 = .error (.violation cause))

/-- Who comes to all that another one comes to comes to its callbacks. -/
theorem Host.BreaksOff.lift {υ α β : Type} {host : Host υ} {x : Script υ α} {z : Script υ β}
    {w w' v : World υ} {cause : Violation} (h : host.BreaksOff x w v cause)
    (lift : ∀ {γ : Type} {y : Script υ γ}, y.Comes v x w → y.Comes v z w') :
    host.BreaksOff z w' v cause := by
  cases h with
  | called comes broken => exact .called (lift comes) broken
  | driven le comes broken => exact .driven le (lift comes) broken
  | reacts comes broken => exact .reacts (lift comes) broken

/-- If a script breaks off because of a precondition, a callback did. -/
def Script.Excused {υ α : Type} (pages : υ → List Stage) (host : Host υ) (x : Script υ α)
    (w : World υ) : Prop :=
  w.stage.InTune → ∀ cause, (x.run w).1 = .error (.violation cause) →
    ∃ v, w.Passages pages v ∧ host.BreaksOff x w v cause

namespace Script

variable {υ α β : Type} {pages : υ → List Stage} {host : Host υ} {w : World υ}

theorem excused_pure (a : α) : (pure a : Script υ α).Excused pages host w :=
  fun _ _ h => nomatch h

theorem excused_bind {x : Script υ α} {f : α → Script υ β} (passes : x.Passes pages w)
    (hx : x.Excused pages host w)
    (hf : ∀ a w', x.run w = (.ok a, w') → (f a).Excused pages host w') :
    (x >>= f).Excused pages host w := by
  intro inTune cause broken
  have first := passes inTune.tied
  rw [run_bind] at broken
  cases r : (x.run w).1 with
  | error fault =>
      rw [r] at broken
      obtain ⟨v, passed, breaks⟩ :=
        hx inTune cause (r.trans (congrArg Except.error (Except.error.inj broken)))
      exact ⟨v, passed, breaks.lift .first⟩
  | ok a =>
      rw [r] at broken
      have run : x.run w = (.ok a, (x.run w).2) := Prod.ext r rfl
      obtain ⟨v, passed, breaks⟩ := hf a _ run (first.inTune inTune) cause broken
      exact ⟨v, first.trans passed, breaks.lift (.next run)⟩

/-- What leaves all as it is and does not break off can stand before anything. -/
theorem excused_bind_of_ok {x : Script υ α} {a : α} {f : α → Script υ β}
    (run : x.run w = (.ok a, w)) (hf : (f a).Excused pages host w) :
    (x >>= f).Excused pages host w := by
  intro inTune cause broken
  rw [run_bind_of_ok run] at broken
  obtain ⟨v, passed, breaks⟩ := hf inTune cause broken
  exact ⟨v, passed, breaks.lift (.next run)⟩

theorem excused_stage_bind {f : Stage → Script υ β} (hf : (f w.stage).Excused pages host w) :
    (stage >>= f).Excused pages host w := excused_bind_of_ok rfl hf

theorem excused_change {f : Stage → Stage} : (change f : Script υ Unit).Excused pages host w :=
  fun _ _ h => nomatch h

theorem excused_change_bind {f : Stage → Stage} {g : Unit → Script υ β}
    (h : w.stage.Moves (f w.stage))
    (hg : (g ()).Excused pages host { w with stage := f w.stage }) :
    (change f >>= g).Excused pages host w :=
  excused_bind (passes_change h) excused_change fun _ _ run => by cases run; exact hg

theorem excused_note_bind {what : Occurrence} {g : Unit → Script υ β}
    (hg : (g ()).Excused pages host { w with stage := w.stage.note what }) :
    (note what >>= g).Excused pages host w :=
  excused_change_bind (.single (.note what)) hg

theorem excused_produce {f : Stage → Stage × α} :
    (produce f : Script υ α).Excused pages host w :=
  fun _ _ h => nomatch h

theorem excused_check_bind {r : Except Violation α} {a : α} {f : α → Script υ β} (h : r = .ok a)
    (hf : (f a).Excused pages host w) : (check r >>= f).Excused pages host w := by
  rw [h]
  exact excused_bind_of_ok rfl hf

theorem excused_thenTidy {x : Script υ α} {tidy : Stage → Stage} (hx : x.Excused pages host w) :
    (x.thenTidy tidy).Excused pages host w := by
  intro inTune cause broken
  obtain ⟨v, passed, breaks⟩ := hx inTune cause broken
  exact ⟨v, passed, breaks.lift .tidied⟩

/-- Whoever goes on after a script that was broken off does not break off with it. -/
theorem excused_attempt {x : Script υ α} : x.attempt.Excused pages host w := by
  intro _ cause broken
  rw [attempt, ExceptT.run_mk] at broken
  rcases run : x.run w with ⟨(_ | _) | _, w'⟩ <;> rw [run] at broken <;> cases broken

theorem excused_holding {handles : List Handle} {x : Script υ α}
    (h : ∀ b, .behaviour b ∈ handles → w.stage.isAlive (.behaviour b))
    (hx : x.Excused pages host { w with stage := w.stage.retainAll handles }) :
    (holding handles x).Excused pages host w :=
  excused_change_bind (Stage.moves_retainAll h) (excused_thenTidy hx)

theorem excused_forEach {visit : β → Script υ Unit} (passes : ∀ b w, (visit b).Passes pages w)
    (h : ∀ b w, (visit b).Excused pages host w) (list : List β) (w : World υ) :
    (forEach visit list).Excused pages host w := by
  induction list generalizing w with
  | nil => exact excused_pure ()
  | cons b rest ih => exact excused_bind (passes b w) (h b w) fun _ w' _ => ih w'

/-- A visit that is broken off breaks off all visits, for the same cause. -/
theorem excused_escort {visit : Ref .actor → Script υ Unit}
    (passes : ∀ a w, (visit a).Passes pages w) (h : ∀ a w, (visit a).Excused pages host w)
    (actors : List (Ref .actor)) (w : World υ) : (escort visit actors).Excused pages host w := by
  induction actors generalizing w with
  | nil => exact excused_pure ()
  | cons a rest ih =>
      have tidied : ((visit a).thenTidy (·.release (.actor a))).Passes pages w :=
        passes_thenTidy (passes a w) fun _ => .single (.release _)
      have visited : ((visit a).thenTidy (·.release (.actor a))).Excused pages host w :=
        excused_thenTidy (h a w)
      rcases run : ((visit a).thenTidy (·.release (.actor a))).run w with ⟨(cause | _) | _, w'⟩
      · intro inTune cause' broken
        unfold escort at broken
        rw [run_bind_of_ok (run_attempt_of_violation run)] at broken
        cases broken
        obtain ⟨v, passed, breaks⟩ := visited inTune cause (congrArg Prod.fst run)
        exact ⟨v, passed, breaks.lift fun comes => .first (.attempted comes)⟩
      · intro _ _ broken
        unfold escort at broken
        rw [run_bind, attempt, ExceptT.run_mk, run] at broken
        cases broken
      · refine excused_bind (passes_attempt tidied) excused_attempt fun outcome w'' attempted => ?_
        rw [run_attempt_of_ok run] at attempted
        cases attempted
        exact ih w'

theorem excused_forEachActor {visit : Ref .actor → Script υ Unit}
    (passes : ∀ a w, (visit a).Passes pages w) (h : ∀ a w, (visit a).Excused pages host w)
    (c : Ref .core) (w : World υ) : (forEachActor c visit).Excused pages host w := by
  refine excused_bind (passes_produce (.single (w.stage.move_pruneActors c))) excused_produce
    fun actors w' _ => ?_
  refine excused_change_bind (Stage.moves_retainAll fun b hb => ?_)
    (excused_escort passes h actors _)
  obtain ⟨a, _, e⟩ := List.mem_map.1 hb
  exact nomatch e

end Script

namespace Host.Passing

open Script

variable {υ : Type} {pages : υ → List Stage} {host : Host υ} (hh : host.Passing pages)
  (w : World υ)

include hh

omit hh in
theorem excused_ask (a : Ref .actor) (call : ActorCall) :
    (Script.ask host a call).Excused pages host w :=
  excused_change_bind (.single (.ask a call)) fun _ _ broken => ⟨_, .refl, .reacts .here broken⟩

theorem excused_askScale (a : Ref .actor) (gravity : Gravity) (x y : Double) :
    (Script.askScale host a gravity x y).Excused pages host w := by
  unfold Script.askScale
  split
  · exact excused_bind (hh.ask w a _) (excused_ask w a _) fun _ w _ => excused_ask w a _
  · exact excused_ask w a _

/-- A behaviour is driven to any alpha of an animation without breaking off by itself. -/
theorem excused_drive (b : Ref .behaviour) {alpha : Nat} (le : alpha ≤ alphaMax) :
    (Script.drive host b alpha).Excused pages host w := by
  intro inTune
  refine excused_stage_bind ?_ inTune
  dsimp only
  split
  · next bounds gravity drive =>
      have accepted := ScaleBounds.accepted_of_toBounds (inTune.checked b _ _ drive)
      exact excused_check_bind (accepted.sample_eq le)
        (excused_forEachActor (fun a w => hh.askScale w a _ _ _)
          (fun a w => hh.excused_askScale w a _ _ _) _ w)
  · next bounds _ =>
      obtain ⟨value, sample⟩ := bounds.exists_sampleOpacity le
      exact excused_check_bind sample
        (excused_forEachActor (fun a w => hh.ask w a _) (fun a w => excused_ask w a _) _ w)
  · exact fun _ _ broken => ⟨w, .refl, .driven le .here broken⟩

theorem excused_tick (b : Ref .behaviour) : (Script.tick host b).Excused pages host w := by
  apply excused_stage_bind
  dsimp only
  split
  · exact excused_pure ()
  · refine excused_holding (fun b hb => nomatch List.mem_singleton.1 hb) ?_
    exact excused_note_bind (hh.excused_drive _ b (w.stage.alphaValue_le ..))

theorem excused_tickEach (entries : List Attachment) :
    (Script.tickEach host entries).Excused pages host w := by
  induction entries generalizing w with
  | nil => exact excused_pure []
  | cons e rest ih =>
      apply excused_stage_bind
      split
      · next alive =>
          refine excused_bind (hh.holdingTick w alive) ?_ fun _ w' _ => ih w'
          refine excused_holding (fun b hb => ?_) (hh.excused_tick _ e.behaviour)
          cases List.mem_singleton.1 hb
          exact alive
      · exact excused_bind (hh.tickEach w rest) (ih w) fun _ _ _ => excused_pure _

theorem excused_respond (m : Ref .emitter) (event : String) (payload : Payload) (h : Handler) :
    (Script.respond host m event payload h).Excused pages host w := by
  unfold Script.respond
  split
  · exact excused_bind (hh.called _ _ w) (fun _ _ broken => ⟨w, .refl, .called .here broken⟩)
      fun _ _ _ => excused_pure _
  · exact excused_note_bind (excused_pure _)

theorem excused_offer (m : Ref .emitter) (event : String) (payload : Payload) (h : Handler) :
    (Script.offer host m event payload h).Excused pages host w := by
  refine excused_bind (hh.respond w m event payload h) (hh.excused_respond w m event payload h)
    fun job w _ => ?_
  refine excused_bind (passes_produce (moves_spawn w.stage job)) excused_produce fun k _ _ => ?_
  cases k with
  | none => exact excused_change
  | some k => exact excused_pure ()

omit hh in
/-- Whoever waits for an emitter that is held waits for good, which is no violation. -/
theorem excused_await (m : Ref .emitter) : (await m).Excused pages host w := by
  apply excused_stage_bind
  dsimp only
  split
  · exact fun _ _ broken => nomatch broken
  · exact excused_pure _

theorem excused_emit (m : Ref .emitter) (event : String) (payload : Payload) :
    (Script.emit host m event payload).Excused pages host w := by
  refine excused_bind (passes_await m) (excused_await w m) fun row w _ => excused_note_bind ?_
  split
  · exact excused_pure ()
  · refine excused_holding (fun b hb => ?_)
      (excused_change_bind (.single (.modifyEmitter ..)) (excused_thenTidy ?_))
    · exact absurd hb (behaviour_not_mem_timelines _ b)
    · exact excused_forEach (fun h w => hh.offer w m event payload h)
        (fun h w => hh.excused_offer w m event payload h) _ _

theorem excused_announce (t : Ref .timeline) (event : TimelineEvent) (payload : Payload) :
    (Script.announce host t event payload).Excused pages host w :=
  excused_stage_bind (hh.excused_emit w _ _ _)

theorem excused_concludeFrame (t : Ref .timeline) (played : Clock) :
    (Script.concludeFrame host t played).Excused pages host w := by
  refine excused_bind (hh.announce w _ _ _) (hh.excused_announce w _ _ _) fun _ w _ => ?_
  split
  · refine excused_bind (hh.announce w _ _ _) (hh.excused_announce w _ _ _) fun _ w _ => ?_
    split
    · exact excused_change_bind (.single (.turn .rewind)) (excused_pure _)
    · exact excused_pure _
  · exact excused_pure _

/-- A round of ticks ends, as a rule, with forgetting the entries of behaviours that are gone. -/
theorem excused_tickAttached (t : Ref .timeline) :
    (Script.tickAttached host t).Excused pages host w := by
  refine excused_stage_bind (excused_bind (hh.tickEach w _) (hh.excused_tickEach w _)
    fun ids w' _ => ?_)
  split
  · exact excused_pure ()
  · exact excused_note_bind excused_change

/-- A frame breaks off only if a callback does, or if the clock cannot go on. -/
theorem excused_nextFrame (t : Ref .timeline) (inTune : w.stage.InTune) {cause : Violation}
    (broken : ((Script.nextFrame host t).run w).1 = .error (.violation cause)) :
    (w.stage.clock t).step = .error cause ∨
      ∃ v, w.Passages pages v ∧ host.BreaksOff (Script.nextFrame host t) w v cause := by
  cases step : (w.stage.clock t).step with
  | error cause' =>
      unfold Script.nextFrame at broken
      rw [run_stage_bind] at broken
      dsimp only at broken
      split at broken
      · exact nomatch broken
      · rw [run_check_error_bind step] at broken
        cases broken
        exact .inl rfl
  | ok played =>
      right
      refine (?_ : (Script.nextFrame host t).Excused pages host w) inTune cause broken
      apply excused_stage_bind
      dsimp only
      split
      · exact excused_pure _
      · exact excused_check_bind step
          (excused_change_bind (.single (.turn (.step step))) (excused_note_bind
            (excused_bind (hh.tickAttached _ t) (hh.excused_tickAttached _ t)
              fun _ w _ => hh.excused_concludeFrame w t _)))

end Host.Passing

end Animation
