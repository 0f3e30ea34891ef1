/-
# Running scripts

What comes of running a script that is put together from others, starting from a given
world: the outcome of each part, and the world in which the next part begins.
-/

import Animation.Stage.Emission
import Animation.Stage.Notification

namespace Animation.Script

variable {υ α β : Type}

theorem run_bind (x : Script υ α) (f : α → Script υ β) (w : World υ) :
    (x >>= f).run w =
      match (x.run w).1 with
      | .ok a => (f a).run (x.run w).2
      | .error fault => (.error fault, (x.run w).2) := by
  show (ExceptT.bindCont f (x.run w).1) (x.run w).2 = _
  unfold ExceptT.bindCont
  cases (x.run w).1 <;> rfl

theorem exists_run_eq {x : Script υ α} {w : World υ} {r : Except Fault α}
    (h : (x.run w).1 = r) : ∃ w', x.run w = (r, w') := ⟨_, Prod.ext h rfl⟩

theorem run_bind_of_ok {x : Script υ α} {w w' : World υ} {a : α} (h : x.run w = (.ok a, w'))
    (f : α → Script υ β) : (x >>= f).run w = (f a).run w' := by
  rw [run_bind, h]

theorem run_bind_congr {x y : Script υ α} {w w' : World υ} (same : x.run w = y.run w')
    (f : α → Script υ β) : (x >>= f).run w = (y >>= f).run w' := by
  rw [run_bind, same, run_bind]

/-- A script that comes to its end does so part by part. -/
theorem exists_of_run_bind_eq_ok {x : Script υ α} {f : α → Script υ β} {w w' : World υ} {b : β}
    (h : (x >>= f).run w = (.ok b, w')) :
    ∃ a w₁, x.run w = (.ok a, w₁) ∧ (f a).run w₁ = (.ok b, w') := by
  rw [run_bind] at h
  cases r : (x.run w).1 with
  | error fault =>
      rw [r] at h
      exact nomatch (Prod.ext_iff.1 h).1
  | ok a =>
      rw [r] at h
      exact ⟨a, _, Prod.ext r rfl, h⟩

@[simp] theorem run_pure (a : α) (w : World υ) : (pure a : Script υ α).run w = (.ok a, w) := (rfl)

@[simp] theorem run_stage_bind (f : Stage → Script υ β) (w : World υ) :
    (stage >>= f).run w = (f w.stage).run w := (rfl)

@[simp] theorem run_change (g : Stage → Stage) (w : World υ) :
    (change g : Script υ Unit).run w = (.ok (), { w with stage := g w.stage }) := (rfl)

@[simp] theorem run_change_bind (g : Stage → Stage) (f : Unit → Script υ β) (w : World υ) :
    (change g >>= f).run w = (f ()).run { w with stage := g w.stage } := (rfl)

@[simp] theorem run_change_map (g : Stage → Stage) (f : Unit → β) (w : World υ) :
    (f <$> (change g : Script υ Unit)).run w = (.ok (f ()), { w with stage := g w.stage }) := (rfl)

@[simp] theorem run_produce_bind (g : Stage → Stage × α) (f : α → Script υ β) (w : World υ) :
    (produce g >>= f).run w = (f (g w.stage).2).run { w with stage := (g w.stage).1 } := (rfl)

@[simp] theorem run_note (what : Occurrence) (w : World υ) :
    (note what : Script υ Unit).run w = (.ok (), { w with stage := w.stage.note what }) := (rfl)

@[simp] theorem run_note_bind (what : Occurrence) (f : Unit → Script υ β) (w : World υ) :
    (note what >>= f).run w = (f ()).run { w with stage := w.stage.note what } := (rfl)

theorem run_check_ok_bind {r : Except Violation α} {a : α} (h : r = .ok a)
    (f : α → Script υ β) (w : World υ) : (check r >>= f).run w = (f a).run w := by
  rw [h]; rfl

theorem run_check_error_bind {r : Except Violation α} {cause : Violation} (h : r = .error cause)
    (f : α → Script υ β) (w : World υ) :
    (check r >>= f).run w = (.error (.violation cause), w) := by
  rw [h]; rfl

@[simp] theorem run_thenTidy (x : Script υ α) (tidy : Stage → Stage) (w : World υ) :
    (x.thenTidy tidy).run w =
      ((x.run w).1, { (x.run w).2 with stage := tidy (x.run w).2.stage }) := (rfl)

@[simp] theorem run_holding (handles : List Handle) (x : Script υ α) (w : World υ) :
    (holding handles x).run w =
      (x.thenTidy (·.releaseAll handles)).run { w with stage := w.stage.retainAll handles } :=
  (rfl)

@[simp] theorem run_attempt_snd (x : Script υ α) (w : World υ) :
    (x.attempt.run w).2 = (x.run w).2 := by
  rw [attempt, ExceptT.run_mk]
  obtain ⟨r, w'⟩ := x.run w
  rcases r with (_ | _) | _ <;> rfl

theorem run_attempt_of_ok {x : Script υ α} {w w' : World υ} {a : α}
    (h : x.run w = (.ok a, w')) : x.attempt.run w = (.ok (.ok a), w') := by
  rw [attempt, ExceptT.run_mk]
  rw [h]

theorem run_attempt_of_violation {x : Script υ α} {w w' : World υ} {cause : Violation}
    (h : x.run w = (.error (.violation cause), w')) :
    x.attempt.run w = (.ok (.error cause), w') := by
  rw [attempt, ExceptT.run_mk]
  rw [h]

@[simp] theorem run_forEach_cons {visit : β → Script υ Unit} {b : β} {rest : List β} (w : World υ) :
    (forEach visit (b :: rest)).run w = (visit b >>= fun _ => forEach visit rest).run w := rfl

section Emitters

variable {m : Ref .emitter} {w : World υ}

theorem run_await_of_free (free : (w.stage.emitters.get m).isHeld = false) :
    (await m : Script υ Emitter).run w = (.ok (w.stage.emitters.get m), w) := by
  unfold await
  rw [run_stage_bind]
  dsimp only
  rw [free]
  rfl

theorem run_await_of_held (held : (w.stage.emitters.get m).isHeld = true) :
    (await m : Script υ Emitter).run w = (.error .stuck, w) := by
  unfold await
  rw [run_stage_bind]
  dsimp only
  rw [held]
  rfl

theorem run_emit_of_held (held : (w.stage.emitters.get m).isHeld = true) (host : Host υ)
    (event : String) (payload : Payload) :
    (emit host m event payload).run w = (.error .stuck, w) := by
  unfold emit
  rw [run_bind, run_await_of_held held]

/-- An emitter that was free before it was held is free again, and any other is held as before. -/
theorem isHeld_hold_false {s s' : Stage} {m' : Ref .emitter}
    (free : (s.emitters.get m).isHeld = false)
    (same : (s'.emitters.get m').isHeld = ((hold true m s).emitters.get m').isHeld) :
    ((hold false m s').emitters.get m').isHeld = (s.emitters.get m').isHeld := by
  show ((s'.emitters.modify m _).get m').isHeld = _
  rw [Table.get_modify]
  split
  · next own => rw [← own, free]
  · next other =>
      have before : (hold true m s).emitters.get m' = s.emitters.get m' :=
        Table.get_modify_of_ne _ _ other
      rw [same, before]

end Emitters

/-- A change is noted, and then the listeners that hear it are called. -/
theorem run_notify (host : Host υ) (n : Ref .notifier) (change : Change) (w : World υ) :
    (notify host n change).run w =
      (forEach (fun callback => host.notified callback change)
        ((w.stage.notifiers.get n).hearing change.name)).run
        { w with stage := w.stage.note (.notified n change) } := rfl

end Animation.Script
