/-
# One entry for every binding

A behaviour that is bound to an alpha has one entry with the timeline of the alpha and none
with other timelines, and one that is not bound has no entry. So the behaviours that a
timeline counts are those that follow it. Listeners hear of a binding once when it changes.
-/

import Animation.Proofs.Stage.Reachable
import Mathlib.Data.List.Perm.Basic

namespace Animation

namespace Stage

variable {s : Stage} {b : Ref .behaviour} {t : Ref .timeline}

/-- The timeline that a behaviour follows, if it is bound. -/
def followed? (s : Stage) (b : Ref .behaviour) : Option (Ref .timeline) :=
  (s.bindingOf b).map fun binding => s.timelineOf binding.alpha

/-- The behaviours on the stage that follow a timeline. -/
def followers (s : Stage) (t : Ref .timeline) : List (Ref .behaviour) :=
  s.behaviours.refs.filter fun b => s.isAlive (.behaviour b) && s.followed? b == some t

/-- The entries that a timeline has of a behaviour. -/
def entriesOf (s : Stage) (t : Ref .timeline) (b : Ref .behaviour) : List Attachment :=
  (s.attachments t).filter (·.behaviour = b)

namespace Tied

theorem attachments_nodup (h : s.Tied) (t : Ref .timeline) : (s.attachments t).Nodup :=
  .of_map _ (h.ids_nodup t)

/-- A timeline has the entry of a behaviour that is bound to it, and no other one. -/
theorem entriesOf_bound (h : s.Tied) (alive : s.isAlive (.behaviour b)) {a : Ref .alpha}
    {id : Nat} (bound : s.bindingOf b = some ⟨a, id⟩) :
    s.entriesOf (s.timelineOf a) b = [⟨id, b⟩] := by
  unfold entriesOf
  rw [← List.perm_singleton, List.perm_ext_iff_of_nodup
    ((h.attachments_nodup _).filter _) (List.nodup_singleton _)]
  intro e
  rw [List.mem_filter, List.mem_singleton, decide_eq_true_iff]
  constructor
  · rintro ⟨he, rfl⟩
    obtain ⟨a', bound', _⟩ := h.bound he alive
    cases bound.symm.trans bound'
    rfl
  · rintro rfl
    exact ⟨h.attached alive bound, rfl⟩

/-- A timeline that a behaviour does not follow has no entry of it. -/
theorem entriesOf_of_ne (h : s.Tied) (alive : s.isAlive (.behaviour b))
    (ne : s.followed? b ≠ some t) : s.entriesOf t b = [] := by
  rw [entriesOf, List.filter_eq_nil_iff]
  intro e he same
  rw [decide_eq_true_iff] at same
  subst same
  obtain ⟨a, bound, rfl⟩ := h.bound he alive
  exact ne (by rw [followed?, bound]; rfl)

/-- The behaviours that are there and have an entry with a timeline are its followers. -/
theorem mem_followers (h : s.Tied) :
    b ∈ s.followers t ↔ s.isAlive (.behaviour b) ∧ ∃ e ∈ s.attachments t, e.behaviour = b := by
  rw [followers, List.mem_filter, Bool.and_eq_true, beq_iff_eq]
  constructor
  · rintro ⟨_, alive, follows⟩
    obtain ⟨⟨a, id⟩, bound, rfl⟩ := Option.map_eq_some_iff.1 follows
    exact ⟨alive, _, h.attached alive bound, rfl⟩
  · rintro ⟨alive, e, he, rfl⟩
    obtain ⟨a, bound, rfl⟩ := h.bound he alive
    refine ⟨?_, alive, by rw [followed?, bound]; rfl⟩
    rw [Table.refs, List.mem_map]
    exact ⟨_, List.mem_range.2 (index_lt_of_isAlive alive), rfl⟩

/-- No behaviour that is there has two entries with a timeline. -/
theorem nodup_behaviours (h : s.Tied) (t : Ref .timeline) :
    (((s.attachments t).filter fun e => s.isAlive (.behaviour e.behaviour)).map
      (·.behaviour)).Nodup := by
  apply ((h.attachments_nodup t).filter _).map_on
  intro e he e' he' same
  obtain ⟨he, alive⟩ := List.mem_filter.1 he
  obtain ⟨he', _⟩ := List.mem_filter.1 he'
  obtain ⟨a, bound, _⟩ := h.bound he alive
  obtain ⟨a', bound', _⟩ := h.bound he' (same ▸ alive)
  rw [same, bound'] at bound
  cases e; cases e'; cases bound; cases same; rfl

/-- A timeline counts its followers. -/
theorem attachedCount_eq (h : s.Tied) (t : Ref .timeline) :
    s.attachedCount t = (s.followers t).length := by
  have followers : (s.followers t).Nodup :=
    (List.nodup_range.map fun _ _ same => congrArg Ref.index same).filter _
  have perm := (List.perm_ext_iff_of_nodup (h.nodup_behaviours t) followers).2 fun b => by
    rw [h.mem_followers, List.mem_map]
    constructor
    · rintro ⟨e, he, rfl⟩
      obtain ⟨he, alive⟩ := List.mem_filter.1 he
      exact ⟨alive, e, he, rfl⟩
    · rintro ⟨alive, e, he, rfl⟩
      exact ⟨e, List.mem_filter.2 ⟨he, alive⟩, rfl⟩
  rw [attachedCount, ← perm.length_eq, List.length_map]
  rfl

end Tied

/-- What is not changed when a behaviour is bound. -/
structure Rebound (s s' : Stage) : Prop where
  notifier : ∀ c, (s'.cores.get c).notifier = (s.cores.get c).notifier
  actors : ∀ c, (s'.cores.get c).actors = (s.cores.get c).actors
  behaviours : s'.behaviours = s.behaviours
  notifiers : s'.notifiers = s.notifiers
  agenda : s'.agenda = s.agenda
  journal : s'.journal = s.journal

theorem notifier_setBinding (s : Stage) (c c' : Ref .core) (binding : Option Binding) :
    ((s.setBinding c binding).cores.get c').notifier = (s.cores.get c').notifier :=
  Table.proj_get_modify _ c c' fun _ => rfl

theorem actors_setBinding (s : Stage) (c c' : Ref .core) (binding : Option Binding) :
    ((s.setBinding c binding).cores.get c').actors = (s.cores.get c').actors :=
  Table.proj_get_modify _ c c' fun _ => rfl

theorem rebound_unbind (s : Stage) (c : Ref .core) : s.Rebound (s.unbind c) := by
  unfold unbind
  split
  · exact ⟨fun _ => rfl, fun _ => rfl, rfl, rfl, rfl, rfl⟩
  · next a entry _ =>
      have h := ((s.detach (s.timelineOf a) [entry]).setBinding c none).rehandled_releaseAlpha a
      refine ⟨fun c' => ?_, fun c' => ?_, behaviours_releaseAlpha _ _, h.notifiers, h.agenda,
        h.journal⟩
      · exact (h.notifier c').trans (notifier_setBinding _ _ c' _)
      · exact (h.actors c').trans (actors_setBinding _ _ c' _)

theorem rebound_rebind (s : Stage) (b : Ref .behaviour) (alpha : Option (Ref .alpha)) :
    s.Rebound (s.rebind b alpha) := by
  cases alpha with
  | none => exact s.rebound_unbind _
  | some a =>
      have h := (s.retain (.alpha a)).rebound_unbind (s.coreOf b)
      refine ⟨fun c => ?_, fun c => ?_, h.behaviours, h.notifiers, h.agenda, h.journal⟩
      · exact (notifier_setBinding _ _ c _).trans (h.notifier c)
      · exact (actors_setBinding _ _ c _).trans (h.actors c)

/-- After a behaviour was bound to an alpha, or to none, it is. -/
theorem boundAlpha?_rebind (s : Stage) (b : Ref .behaviour) (alpha : Option (Ref .alpha)) :
    (s.rebind b alpha).boundAlpha? (s.coreOf b) = alpha := by
  cases alpha with
  | none =>
      have unbound := s.bindingOf_unbind b
      rw [bindingOf, coreOf_unbind] at unbound
      exact congrArg (Option.map Binding.alpha) unbound
  | some a =>
      exact congrArg (fun row : Core => row.binding.map Binding.alpha) (Table.get_modify_same ..)

end Stage

namespace Script

variable {υ : Type} (host : Host υ) (w : World υ)

/-- To bind a behaviour to what it is bound to already does nothing. -/
theorem run_bindTo_same {b : Ref .behaviour} {alpha : Option (Ref .alpha)}
    (same : w.stage.boundAlpha? (w.stage.coreOf b) = alpha) :
    (bindTo host b alpha).run w = (.ok (), w) := by
  rw [Stage.coreOf] at same
  simp [bindTo, same]

/-- To bind a behaviour to something else replaces its binding, notes the one change, and then
calls the listeners that hear it. -/
theorem run_bindTo_of_ne {b : Ref .behaviour} {alpha : Option (Ref .alpha)}
    (ne : w.stage.boundAlpha? (w.stage.coreOf b) ≠ alpha) :
    let n := notifierOf b w.stage
    let news : Change := ⟨bindingProperty, alpha.isSome⟩
    ∃ s : Stage, s.boundAlpha? (s.coreOf b) = alpha ∧
      s.journal.map (·.what) = .notified n news :: .bound (w.stage.coreOf b) alpha.isSome ::
        w.stage.journal.map (·.what) ∧
      (bindTo host b alpha).run w =
        (forEach (fun callback => host.notified callback news)
          ((w.stage.notifiers.get n).hearing bindingProperty)).run ⟨s, w.user⟩ := by
  have rebound := w.stage.rebound_rebind b alpha
  let noted := ((w.stage.rebind b alpha).note (.bound (w.stage.coreOf b) alpha.isSome)).note
    (.notified (notifierOf b w.stage) ⟨bindingProperty, alpha.isSome⟩)
  refine ⟨noted, ?_, ?_, ?_⟩
  · have bound := w.stage.boundAlpha?_rebind b alpha
    rwa [← show noted.coreOf b = w.stage.coreOf b from
      congrArg (fun rows => (Table.get rows b).core) rebound.behaviours] at bound
  · show _ :: _ :: (w.stage.rebind b alpha).journal.map (·.what) = _
    rw [rebound.journal]
  · rw [Stage.coreOf] at ne
    unfold bindTo
    rw [run_stage_bind]
    dsimp only
    rw [if_neg ne, run_change_bind, run_note_bind, run_notify]
    show (forEach _ (((w.stage.rebind b alpha).notifiers.get _).hearing _)).run _ = _
    rw [rebound.notifiers]
    rfl

end Script

/-- On every stage that is ever met, the two records of each binding agree: a behaviour that
follows a timeline has one entry there and none elsewhere, one that follows none has no entry,
the entries of a timeline are told apart by their numbers, and a timeline counts its followers.
A binding that changes is announced once, and one that does not is not announced. -/
theorem Stage.Reachable.bindings_agree {υ : Type} {w : World υ} (h : w.stage.Reachable)
    (host : Host υ) (b : Ref .behaviour) (alive : w.stage.isAlive (.behaviour b))
    (t : Ref .timeline) (alpha : Option (Ref .alpha)) :
    (∀ a id, w.stage.bindingOf b = some ⟨a, id⟩ →
      w.stage.entriesOf (w.stage.timelineOf a) b = [⟨id, b⟩] ∧
        (t ≠ w.stage.timelineOf a → w.stage.entriesOf t b = [])) ∧
      (w.stage.bindingOf b = none → w.stage.entriesOf t b = []) ∧
      ((w.stage.attachments t).map (·.id)).Nodup ∧
      w.stage.attachedCount t = (w.stage.followers t).length ∧
      (w.stage.boundAlpha? (w.stage.coreOf b) = alpha →
        (Script.bindTo host b alpha).run w = (.ok (), w)) ∧
      (w.stage.boundAlpha? (w.stage.coreOf b) ≠ alpha →
        let n := Script.notifierOf b w.stage
        let news : Change := ⟨Script.bindingProperty, alpha.isSome⟩
        ∃ s : Stage, s.boundAlpha? (s.coreOf b) = alpha ∧
          s.journal.map (·.what) =
            .notified n news :: .bound (w.stage.coreOf b) alpha.isSome ::
              w.stage.journal.map (·.what) ∧
          (Script.bindTo host b alpha).run w =
            (Script.forEach (fun callback => host.notified callback news)
              ((w.stage.notifiers.get n).hearing Script.bindingProperty)).run ⟨s, w.user⟩) := by
  refine ⟨fun a id bound => ⟨h.tied.entriesOf_bound alive bound, fun ne => ?_⟩, fun unbound => ?_,
    h.tied.ids_nodup t, h.tied.attachedCount_eq t, Script.run_bindTo_same host w,
    Script.run_bindTo_of_ne host w⟩
  · refine h.tied.entriesOf_of_ne alive fun follows => ne ?_
    rw [Stage.followed?, bound] at follows
    exact (Option.some.inj follows).symm
  · apply h.tied.entriesOf_of_ne alive
    intro follows
    rw [Stage.followed?, unbound] at follows
    exact nomatch follows

namespace Stage

/-- Two timelines, and a behaviour that follows the first of them. -/
def following : Script Unit Unit := do
  let _ ← Script.owning [] (Script.produce (·.addTimeline 1000))
  let _ ← Script.owning [] (Script.produce (·.addTimeline 500))
  let _ ← Script.owning [.timeline ⟨0⟩] (Script.produce (·.addAlpha ⟨0⟩ .rampInc))
  let _ ← Script.owning [.alpha ⟨0⟩] (Script.makeOpacity (.silent Unit) ⟨0, 255⟩ (some ⟨0⟩))

theorem reachable_following : (following.run ⟨.empty true, ()⟩).2.stage.Reachable :=
  Arises.reachable (@Arises.course _ (fun _ => []) _ _ _ (.opening true rfl)
    (.bind (.offered (.addTimeline 1000)) fun _ =>
      .bind (.offered (.addTimeline 500)) fun _ =>
        .bind (.offered (.addAlpha ⟨0⟩ .rampInc)) fun _ =>
          .bind (.offered (.makeOpacity ⟨0, 255⟩ (some ⟨0⟩))) fun _ => .pure ()))

theorem bindings_agree_following :
    let w := (following.run ⟨.empty true, ()⟩).2
    w.stage.isAlive (.behaviour ⟨0⟩) = true ∧ w.stage.entriesOf ⟨0⟩ ⟨0⟩ = [⟨0, ⟨0⟩⟩] ∧
      w.stage.entriesOf ⟨1⟩ ⟨0⟩ = [] ∧ w.stage.attachedCount ⟨1⟩ = (w.stage.followers ⟨1⟩).length ∧
      ∃ s : Stage, s.boundAlpha? (s.coreOf ⟨0⟩) = none ∧
        s.journal.map (·.what) =
          .notified (Script.notifierOf ⟨0⟩ w.stage) ⟨Script.bindingProperty, false⟩ ::
            .bound (w.stage.coreOf ⟨0⟩) false :: w.stage.journal.map (·.what) := by
  have alive : (following.run ⟨.empty true, ()⟩).2.stage.isAlive (.behaviour ⟨0⟩) = true := by
    decide +kernel
  have bound : (following.run ⟨.empty true, ()⟩).2.stage.bindingOf ⟨0⟩ = some ⟨⟨0⟩, 0⟩ := by
    decide +kernel
  have elsewhere : ⟨1⟩ ≠ (following.run ⟨.empty true, ()⟩).2.stage.timelineOf ⟨0⟩ := by
    decide +kernel
  have changes : (following.run ⟨.empty true, ()⟩).2.stage.boundAlpha?
      ((following.run ⟨.empty true, ()⟩).2.stage.coreOf ⟨0⟩) ≠ none := by
    decide +kernel
  have here : (following.run ⟨.empty true, ()⟩).2.stage.timelineOf ⟨0⟩ = ⟨0⟩ := by
    decide +kernel
  obtain ⟨entries, _, _, count, _, announced⟩ :=
    reachable_following.bindings_agree (.silent Unit) ⟨0⟩ alive ⟨1⟩ none
  obtain ⟨one, none⟩ := entries ⟨0⟩ 0 bound
  obtain ⟨s, unbound, noted, _⟩ := announced changes
  exact ⟨alive, here ▸ one, none elsewhere, count, s, unbound, noted⟩

end Stage

end Animation
