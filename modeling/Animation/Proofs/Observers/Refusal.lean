/-
# Bad scales change nothing

Whoever makes a behaviour that scales, or replaces its bounds, offers four scales. They are taken
or refused together. If one is bad, the first bad one is named, the stage is as it was, and nobody
has been called. If none is, no later check stands in the way, and the only violations that may
still come are those of listeners.
-/

import Animation.Proofs.Behaviours.Acceptance
import Animation.Proofs.Observers.Delivery

namespace Animation

/-- Whatever listeners are called about, they come to their end. -/
def Host.ListenersEnd {υ : Type} (host : Host υ) : Prop :=
  ∀ callback change w, ∃ w', (host.notified callback change).run w = (.ok (), w')

namespace Script

variable {υ : Type} {host : Host υ}

theorem exists_run_forEach_eq_ok {β : Type} {visit : β → Script υ Unit}
    (ends : ∀ x w, ∃ w', (visit x).run w = (.ok (), w')) (l : List β) (w : World υ) :
    ∃ w', (forEach visit l).run w = (.ok (), w') := by
  induction l generalizing w with
  | nil => exact ⟨w, rfl⟩
  | cons x rest ih =>
      obtain ⟨w₁, first⟩ := ends x w
      obtain ⟨w₂, others⟩ := ih w₁
      exact ⟨w₂, by rw [run_forEach_cons, run_bind_of_ok first, others]⟩

theorem exists_run_publish_eq_ok (ends : host.ListenersEnd) (n : Ref .notifier) (commit : Commit)
    (w : World υ) : ∃ w', (publish host n commit).run w = (.ok (), w') :=
  exists_run_forEach_eq_ok
    (fun change w => by
      rw [run_notify]
      exact exists_run_forEach_eq_ok (fun callback w => ends callback change w) _ _)
    commit.2 { w with stage := commit.1 }

/-- Where nobody listens, delivery only leaves its notes. -/
theorem run_notify_of_unheard {n : Ref .notifier} {w : World υ}
    (unheard : w.stage.notifiers.get n = .empty) (change : Change) :
    (notify host n change).run w =
      (.ok (), { w with stage := w.stage.note (.notified n change) }) := by
  rw [run_notify, unheard]
  rfl

theorem exists_run_bindTo_of_unheard (host : Host υ) {b : Ref .behaviour} {w : World υ}
    (unheard : w.stage.notifiers.get (notifierOf b w.stage) = .empty)
    (alpha : Option (Ref .alpha)) :
    ∃ w', (bindTo host b alpha).run w = (.ok (), w') ∧
      w'.stage.behaviours = w.stage.behaviours := by
  by_cases same : w.stage.boundAlpha? (w.stage.coreOf b) = alpha
  · exact ⟨w, run_bindTo_same host w same, rfl⟩
  · have rebound := w.stage.rebound_rebind b alpha
    rw [run_bindTo]
    unfold Mutation.commitAlpha publish
    rw [if_neg same, run_change_bind, run_forEach_singleton, run_notify_of_unheard]
    · exact ⟨_, rfl, rebound.behaviours⟩
    · show (w.stage.rebind b alpha).notifiers.get _ = _
      rw [rebound.notifiers, unheard]

/-- A new behaviour that scales, from scales in double precision. -/
def makeScaleOf (host : Host υ) (corners : Corners Double) (gravity : Gravity)
    (alpha : Option (Ref .alpha)) : Script υ (Ref .behaviour) := do
  makeScale host (← check corners.toFixed) gravity alpha

/-- Nobody listens to a behaviour that has just been added. -/
theorem unheard_addBehaviour (s : Stage) (drive : Drive) :
    (s.addBehaviour drive).1.notifiers.get
      (notifierOf (s.addBehaviour drive).2 (s.addBehaviour drive).1) = .empty := by
  simp [Stage.addBehaviour, Stage.addCore, Stage.addNotifier, notifierOf]

theorem driveOf_addBehaviour (s : Stage) (drive : Drive) :
    (s.addBehaviour drive).1.driveOf (s.addBehaviour drive).2 = drive := by
  simp [Stage.addBehaviour, Stage.addCore, Stage.addNotifier, Stage.driveOf]

theorem exists_run_makeScale_eq_ok (host : Host υ) {corners : Corners Fixed} {bounds : ScaleBounds}
    (accepted : corners.toBounds = .ok bounds) (gravity : Gravity) (alpha : Option (Ref .alpha))
    (w : World υ) : ∃ b w', (makeScale host corners gravity alpha).run w = (.ok b, w') ∧
      w'.stage.driveOf b = .scale bounds gravity := by
  let added := w.stage.addBehaviour (.scale bounds gravity)
  obtain ⟨w', bound, behaviours⟩ := exists_run_bindTo_of_unheard host
    (b := added.2) (w := { w with stage := added.1 }) (unheard_addBehaviour w.stage _) alpha
  refine ⟨added.2, w', ?_, ?_⟩
  · unfold makeScale
    rw [run_check_ok_bind accepted, run_produce_bind]
    exact run_bind_of_ok bound _
  · rw [Stage.driveOf, behaviours]
    exact driveOf_addBehaviour w.stage (.scale bounds gravity)

variable {b : Ref .behaviour} {w : World υ}

theorem run_setFixedBounds_of_ok {fixed : Corners Fixed}
    (accepted : fixed.toBounds = .ok (.ofCorners fixed)) :
    (mutate host b (.setFixedBounds fixed)).run w =
      (publish host (notifierOf b w.stage)
        (Mutation.commitBounds b w.stage (.ofCorners fixed))).run w := by
  show (setScaleBounds host b fixed).run w = _
  rw [run_setScaleBounds, accepted]
  rfl

/-- Scales that are converted are set as what they are converted to. -/
theorem run_setBounds_of_ok {corners : Corners Double} {fixed : Corners Fixed}
    (converted : corners.toFixed = .ok fixed) :
    (mutate host b (.setBounds corners)).run w =
      (mutate host b (.setFixedBounds fixed)).run w :=
  run_check_ok_bind converted _ _

section Offers

variable (host) (b) (w)

theorem run_of_bad {corners : Corners Double} (bad : corners.AreBad) :
    ∃ d, corners.Refuses IsScale d ∧
      (∀ gravity alpha, (makeScaleOf host corners gravity alpha).run w =
        (.error (.violation (.invalidScale d)), w)) ∧
      (mutate host b (.setBounds corners)).run w = (.error (.violation (.invalidScale d)), w) := by
  obtain ⟨d, first, refusal⟩ := Corners.exists_toFixed_eq_error bad
  exact ⟨d, first, fun _ _ => run_check_error_bind refusal _ _, run_check_error_bind refusal _ _⟩

theorem run_of_badFixed {fixed : Corners Fixed} (bad : fixed.AreBadFixed) :
    ∃ x, fixed.Refuses (0 ≤ ·.toRaw) x ∧ (mutate host b (.setFixedBounds fixed)).run w =
      (.error (.violation (.invalidScale x.toDouble)), w) := by
  obtain ⟨x, first, refusal⟩ := Corners.exists_toBounds_eq_error bad
  exact ⟨x, first, run_check_error_bind refusal _ _⟩

theorem run_of_not_bad {corners : Corners Double} (good : ¬ corners.AreBad) (gravity : Gravity)
    (alpha : Option (Ref .alpha)) :
    ∃ new b' w', corners.toFixed = .ok new ∧ corners.Match ConvertsTo new ∧
      (makeScaleOf host corners gravity alpha).run w = (.ok b', w') ∧
      w'.stage.driveOf b' = .scale (.ofCorners new) gravity ∧
      (mutate host b (.setBounds corners)).run w =
        (publish host (notifierOf b w.stage)
          (Mutation.commitBounds b w.stage (.ofCorners new))).run w := by
  obtain ⟨new, converted, corner⟩ := Corners.exists_toFixed_eq_ok good
  have accepted := Corners.toBounds_of_match corner
  obtain ⟨b', w', made, drive⟩ :=
    exists_run_makeScale_eq_ok host accepted gravity alpha w
  exact ⟨new, b', w', converted, corner, (run_check_ok_bind converted _ _).trans made, drive,
    (run_setBounds_of_ok converted).trans (run_setFixedBounds_of_ok accepted)⟩

end Offers

/-- Four scales are refused if and only if one of them is not finite, negative or too large. The
first that is so is named, also if it is the last one, and the world is what it was: bounds,
gravity, binding and actors on the stage, the journal, in which every delivery is noted, and
whatever listeners would have changed. If they are not refused, all four are converted to numbers
that are not negative, a new behaviour has them, and new bounds are committed before anyone is
called. In fixed point it is the sign alone that decides. -/
theorem bad_scales_refused (host : Host υ) (w : World υ) (b : Ref .behaviour)
    (corners : Corners Double) (fixed : Corners Fixed) (gravity : Gravity)
    (alpha : Option (Ref .alpha)) :
    let making := (makeScaleOf host corners gravity alpha).run w
    let setting := (mutate host b (.setBounds corners)).run w
    let settingFixed := (mutate host b (.setFixedBounds fixed)).run w
    let committing := fun new => (publish host (notifierOf b w.stage)
      (Mutation.commitBounds b w.stage (.ofCorners new))).run w
    ((∃ fault, making.1 = .error fault) ↔ corners.AreBad) ∧
    (host.ListenersEnd → ((∃ fault, setting.1 = .error fault) ↔ corners.AreBad)) ∧
    (host.ListenersEnd → ((∃ fault, settingFixed.1 = .error fault) ↔ fixed.AreBadFixed)) ∧
    (corners.AreBad → ∃ d, corners.Refuses IsScale d ∧
      making = (.error (.violation (.invalidScale d)), w) ∧
      setting = (.error (.violation (.invalidScale d)), w)) ∧
    (fixed.AreBadFixed → ∃ x, fixed.Refuses (0 ≤ ·.toRaw) x ∧
      settingFixed = (.error (.violation (.invalidScale x.toDouble)), w)) ∧
    (¬ corners.AreBad → ∃ new b' w', corners.toFixed = .ok new ∧ corners.Match ConvertsTo new ∧
      making = (.ok b', w') ∧ w'.stage.driveOf b' = .scale (.ofCorners new) gravity ∧
      setting = committing new) ∧
    (¬ fixed.AreBadFixed → settingFixed = committing fixed) := by
  intro making setting settingFixed committing
  have refused (bad : corners.AreBad) : ∃ d, corners.Refuses IsScale d ∧
      making = (.error (.violation (.invalidScale d)), w) ∧
      setting = (.error (.violation (.invalidScale d)), w) := by
    obtain ⟨d, first, made, set⟩ := run_of_bad host b w bad
    exact ⟨d, first, made gravity alpha, set⟩
  have takenFixed (good : ¬ fixed.AreBadFixed) : settingFixed = committing fixed :=
    run_setFixedBounds_of_ok (Corners.toBounds_eq_ok_iff.2 good)
  have committed (ends : host.ListenersEnd) (new : Corners Fixed) :
      (committing new).1 = .ok () := by
    obtain ⟨w', run⟩ := exists_run_publish_eq_ok ends (notifierOf b w.stage)
      (Mutation.commitBounds b w.stage (.ofCorners new)) w
    exact congrArg Prod.fst run
  refine ⟨⟨?_, fun bad => ?_⟩, fun ends => ⟨?_, fun bad => ?_⟩, fun ends => ⟨?_, fun bad => ?_⟩,
    refused, run_of_badFixed host b w, fun good => run_of_not_bad host b w good gravity alpha,
    takenFixed⟩
  · rintro ⟨fault, broken⟩
    by_contra good
    obtain ⟨_, _, _, -, -, made, -⟩ := run_of_not_bad host b w good gravity alpha
    exact nomatch (congrArg Prod.fst made).symm.trans broken
  · obtain ⟨_, -, refusal, -⟩ := refused bad
    exact ⟨_, congrArg Prod.fst refusal⟩
  · rintro ⟨fault, broken⟩
    by_contra good
    obtain ⟨new, _, _, -, -, -, -, set⟩ := run_of_not_bad host b w good gravity alpha
    exact nomatch (committed ends new).symm.trans ((congrArg Prod.fst set).symm.trans broken)
  · obtain ⟨_, -, -, refusal⟩ := refused bad
    exact ⟨_, congrArg Prod.fst refusal⟩
  · rintro ⟨fault, broken⟩
    by_contra good
    exact nomatch (committed ends fixed).symm.trans
      ((congrArg Prod.fst (takenFixed good)).symm.trans broken)
  · obtain ⟨_, -, refusal⟩ := run_of_badFixed host b w bad
    exact ⟨_, congrArg Prod.fst refusal⟩

/-- Three good scales, of which one is the zero with a sign, and one that is not a number. -/
def lastBad : Corners Double := ⟨.zero true, 1 / 2, 3, .nan⟩

/-- A behaviour with two listeners refuses bounds for the sake of the last one. -/
theorem bad_scales_refused_last :
    let w : World (Attended Nat) := ⟨twoListeners, ⟨0, []⟩⟩
    (mutate (counting.attended ⟨0⟩) ⟨0⟩ (.setBounds lastBad)).run w =
      (.error (.violation (.invalidScale .nan)), w) := by
  intro w
  have bad : lastBad.AreBad := ⟨.nan, by simp [lastBad, Corners.toList], .inl rfl⟩
  obtain ⟨-, -, -, refused, -⟩ := bad_scales_refused (counting.attended ⟨0⟩) w ⟨0⟩ lastBad
    ⟨.one, .one, .one, .one⟩ .center none
  obtain ⟨d, ⟨before, after, split, -, fails⟩, -, refusal⟩ := refused bad
  have mem : d ∈ lastBad.toList := split ▸ List.mem_append_right _ List.mem_cons_self
  have good : ∀ d ∈ [lastBad.xStart, lastBad.yStart, lastBad.xEnd], IsScale d := by
    intro d mem
    rw [← checkScale_eq_ok_iff]
    revert d
    decide +kernel
  have last : d = .nan := by
    by_contra other
    refine fails (good d ?_)
    simpa [Corners.toList, lastBad, other] using mem
  rw [← last]
  exact refusal

end Script

end Animation
