/-
# What is in order on every stage

A core has an actor once at most, however often the actor was applied, so whoever visits the
actors of a core comes to each of them once. And a behaviour that scales does so between bounds
that have passed their check, however its bounds came to be what they are.
-/

import Animation.Proofs.Stage.Bindings

namespace Animation.Stage

variable {s s' : Stage}

theorem actors_addCore (s : Stage) (c : Ref .core) :
    (s.addCore.1.cores.get c).actors = (s.cores.get c).actors := by
  simp only [addCore, addNotifier, Table.get_push]
  by_cases new : c = s.cores.next
  · rw [if_pos new, new, Table.get_next]
    rfl
  · rw [if_neg new]

theorem Move.nodup_actors (move : s.Move s') (h : ∀ c, (s.cores.get c).actors.Nodup)
    (c : Ref .core) : (s'.cores.get c).actors.Nodup := by
  cases move with
  | retain _ =>
      rw [(s.rehandled_retain _).actors]
      exact h c
  | release handle =>
      rw [(s.rehandled_release handle).actors]
      exact h c
  | rebind _ _ =>
      rw [(s.rebound_rebind _ _).actors]
      exact h c
  | addAlpha t easing =>
      apply Eq.subst ((s.rehandled_retain (.timeline t)).actors c).symm
      exact h c
  | addCore =>
      rw [actors_addCore]
      exact h c
  | addBehaviour _ =>
      apply Eq.subst (s.actors_addCore c).symm
      exact h c
  | @setActors c' actors keep =>
      simp only [Stage.setActors, modifyCore, Table.get_modify]
      split
      · exact keep (h c')
      · exact h c
  | note _ | turn _ | setPlayback _ _ | addTimeline _ | addActor _ | addNotifier | addEmitter
  | ask _ _ | setEasing _ _ | setDrive _ | prune _ | modifyNotifier _ _ | modifyEmitter _ _
  | schedule _ _ => exact h c

/-- On every stage that is ever met, the actors of a core are different ones. -/
theorem Reachable.nodup_actorsOf (h : s.Reachable) (c : Ref .core) : (s.actorsOf c).Nodup :=
  Stage.nodup_actorsOf (h.keeps (fun _ _ => List.nodup_nil) Move.nodup_actors c)

theorem Move.checked (move : s.Move s') (h : ∀ b, (s.behaviours.get b).drive.Checked)
    (b : Ref .behaviour) : (s'.behaviours.get b).drive.Checked := by
  cases move with
  | retain _ =>
      rw [(s.rehandled_retain _).drive]
      exact h b
  | release handle =>
      rw [(s.rehandled_release handle).drive]
      exact h b
  | rebind _ _ =>
      rw [(s.rebound_rebind _ _).behaviours]
      exact h b
  | addBehaviour new =>
      simp only [Stage.addBehaviour, Table.get_push]
      split
      · exact new
      · exact h b
  | @setDrive b' drive keep =>
      simp only [Stage.setDrive, modifyBehaviour, Table.get_modify]
      split
      · exact keep (h b')
      · exact h b
  | note _ | turn _ | setPlayback _ _ | addTimeline _ | addAlpha _ _ | addCore | addActor _
  | addNotifier | addEmitter | ask _ _ | setEasing _ _ | setActors _ | prune _
  | modifyNotifier _ _ | modifyEmitter _ _ | schedule _ _ => exact h b

/-- On every stage that is ever met, behaviours scale between accepted bounds. -/
theorem Reachable.checked (h : s.Reachable) (b : Ref .behaviour) :
    (s.behaviours.get b).drive.Checked := by
  apply h.keeps (fun _ b => ?_) Move.checked b
  intro bounds gravity e
  cases e
  rfl

end Animation.Stage
