/-
# Changing a behaviour, one commit at a time

Whoever changes the bounds, the gravity or the binding of a behaviour either is refused or
commits all new values at once, and then has one change delivered for each property that has
a new value. What is delivered is what has been committed.
-/

import Animation.Proofs.Stage.Bindings

namespace Animation

/-- What listeners can hear about what a behaviour does, with the values as they are. -/
def Drive.properties : Drive → List Change
  | scale bounds gravity =>
      [⟨ScaleProperty.xStart.name, bounds.x.start⟩, ⟨ScaleProperty.yStart.name, bounds.y.start⟩,
        ⟨ScaleProperty.xEnd.name, bounds.x.finish⟩, ⟨ScaleProperty.yEnd.name, bounds.y.finish⟩,
        ⟨ScaleProperty.gravity.name, gravity⟩]
  | opacity bounds =>
      [⟨OpacityProperty.start.name, bounds.start⟩, ⟨OpacityProperty.finish.name, bounds.finish⟩]
  | custom _ => []

/-- What listeners can hear about a behaviour, with the values as they are. -/
def Stage.properties (s : Stage) (b : Ref .behaviour) : List Change :=
  ⟨Script.bindingProperty, (s.boundAlpha? (s.coreOf b)).isSome⟩ ::
    (s.behaviours.get b).drive.properties

/-- The value that a list of changes has for a property. -/
def valueIn (changes : List Change) (property : String) : Option Value :=
  (changes.find? (·.name == property)).map (·.value)

/-- The value of a property of a behaviour. -/
def Stage.valueOf (s : Stage) (b : Ref .behaviour) (property : String) : Option Value :=
  valueIn (s.properties b) property

@[simp]
theorem valueIn_nil (property : String) : valueIn [] property = none := rfl

@[simp]
theorem valueIn_cons (change : Change) (rest : List Change) (property : String) :
    valueIn (change :: rest) property =
      if change.name = property then some change.value else valueIn rest property := by
  by_cases h : change.name = property <;> simp [valueIn, h]

theorem valueIn_eq_none {changes : List Change} {property : String}
    (h : property ∉ changes.map (·.name)) : valueIn changes property = none := by
  induction changes with
  | nil => rfl
  | cons change rest ih =>
      rw [List.map_cons, List.mem_cons, not_or] at h
      rw [valueIn_cons, if_neg (Ne.symm h.1), ih h.2]

namespace Batch

theorem valueIn_place (name : String) (value : Value) (changes : List Change)
    (property : String) :
    valueIn (place name value changes) property =
      if name = property then some value else valueIn changes property := by
  induction changes with
  | nil => simp [place]
  | cons change rest ih =>
      by_cases h : change.name = name
      · by_cases h' : name = property <;> simp [place, h, h']
      · by_cases h' : change.name = property
        · subst h'
          simp [place, h, Ne.symm h]
        · simp [place, h, h', ih]

theorem valueIn_pushIf (batch : Batch) (changed : Bool) (name : String) (value : Value)
    (property : String) :
    valueIn (batch.pushIf changed name value).pending property =
      if changed ∧ name = property then some value else valueIn batch.pending property := by
  cases changed with
  | false => simp [pushIf]
  | true =>
      simp only [pushIf, if_pos, true_and]
      exact valueIn_place name value batch.pending property

theorem nodup_empty : empty.names.Nodup := List.nodup_nil

theorem nodup_pushIf {batch : Batch} (h : batch.names.Nodup) (changed : Bool) (name : String)
    (value : Value) : (batch.pushIf changed name value).names.Nodup := by
  cases changed with
  | false => exact h
  | true =>
      show (batch.push name value).names.Nodup
      rw [names_push]
      split
      · exact h
      · next new => exact List.nodup_append.2 ⟨h, List.nodup_singleton _, by
          intro a ha b hb e
          rw [List.mem_singleton.1 hb] at e
          exact new (e ▸ ha)⟩

end Batch

theorem ScaleBounds.nodup_changes (old new : ScaleBounds) : (old.changes new).names.Nodup :=
  Batch.nodup_pushIf (Batch.nodup_pushIf (Batch.nodup_pushIf (Batch.nodup_pushIf
    Batch.nodup_empty _ _ _) _ _ _) _ _ _) _ _ _

theorem Range.nodup_opacityChanges (old new : Range UInt8) :
    (old.opacityChanges new).names.Nodup :=
  Batch.nodup_pushIf (Batch.nodup_pushIf Batch.nodup_empty _ _ _) _ _ _

/-- What can be changed about a behaviour while listeners hear of it. -/
inductive Mutation where
  | setBounds (corners : Corners Double)
  | setFixedBounds (corners : Corners Fixed)
  | setOpacityBounds (bounds : Range UInt8)
  | setGravity (gravity : Gravity)
  | setAlpha (alpha : Option (Ref .alpha))

/-- Make a change to a behaviour. -/
def Script.mutate {υ : Type} (host : Host υ) (b : Ref .behaviour) : Mutation → Script υ Unit
  | .setBounds corners => do setScaleBounds host b (← check corners.toFixed)
  | .setFixedBounds corners => setScaleBounds host b corners
  | .setOpacityBounds bounds => setOpacityBounds host b bounds
  | .setGravity gravity => setGravity host b gravity
  | .setAlpha alpha => bindTo host b alpha

/-- What is committed: a new stage, and what is then to be delivered. -/
abbrev Commit : Type := Stage × List Change

namespace Mutation

variable (b : Ref .behaviour) (s : Stage)

/-- What accepted scale bounds commit. -/
def commitBounds (new : ScaleBounds) : Commit :=
  match (s.behaviours.get b).drive with
  | .scale old gravity => (s.setDrive b (.scale new gravity), (old.changes new).pending)
  | _ => (s, [])

/-- What opacity bounds commit. -/
def commitOpacity (new : Range UInt8) : Commit :=
  match (s.behaviours.get b).drive with
  | .opacity old => (s.setDrive b (.opacity new), (old.opacityChanges new).pending)
  | _ => (s, [])

/-- What a gravity commits. -/
def commitGravity (new : Gravity) : Commit :=
  match (s.behaviours.get b).drive with
  | .scale bounds old =>
      if old = new then (s, [])
      else (s.setDrive b (.scale bounds new), [⟨ScaleProperty.gravity.name, new⟩])
  | _ => (s, [])

/-- What an alpha commits. -/
def commitAlpha (alpha : Option (Ref .alpha)) : Commit :=
  if s.boundAlpha? (s.coreOf b) = alpha then (s, [])
  else
    ((s.rebind b alpha).note (.bound (s.coreOf b) alpha.isSome),
      [⟨Script.bindingProperty, alpha.isSome⟩])

/-- What a mutation commits, unless it is refused. -/
def commit : Mutation → Except Violation Commit
  | setBounds corners => do return commitBounds b s (← (← corners.toFixed).toBounds)
  | setFixedBounds corners => do return commitBounds b s (← corners.toBounds)
  | setOpacityBounds new => return commitOpacity b s new
  | setGravity new => return commitGravity b s new
  | setAlpha alpha => return commitAlpha b s alpha

end Mutation

namespace Script

variable {υ : Type} (host : Host υ) (b : Ref .behaviour) (w : World υ)

theorem run_forEach_singleton {β : Type} (visit : β → Script υ Unit) (x : β) :
    (forEach visit [x]).run w = (visit x).run w := by
  rw [run_forEach_cons, run_bind]
  cases h : (visit x).run w with
  | mk r w' => cases r <;> rfl

/-- Put a commit in place and deliver what is to be delivered. -/
def publish (n : Ref .notifier) (commit : Commit) : Script υ Unit := do
  change fun _ => commit.1
  forEach (notify host n) commit.2

theorem run_setScaleBounds (corners : Corners Fixed) :
    (setScaleBounds host b corners).run w =
      (check (do return Mutation.commitBounds b w.stage (← corners.toBounds)) >>=
        publish host (notifierOf b w.stage)).run w := by
  unfold setScaleBounds Mutation.commitBounds
  cases corners.toBounds with
  | error cause => rfl
  | ok new =>
      rw [run_check_ok_bind rfl, run_stage_bind]
      cases (w.stage.behaviours.get b).drive <;> rfl

theorem run_setGravity (new : Gravity) :
    (setGravity host b new).run w =
      (publish host (notifierOf b w.stage) (Mutation.commitGravity b w.stage new)).run w := by
  unfold setGravity Mutation.commitGravity
  rw [run_stage_bind]
  cases (w.stage.behaviours.get b).drive with
  | scale bounds old =>
      by_cases same : old = new
      · simp only [if_pos same]
        rfl
      · simp only [if_neg same]
        exact (run_forEach_singleton _ _ _).symm
  | opacity _ => rfl
  | custom _ => rfl

theorem run_setOpacityBounds (new : Range UInt8) :
    (setOpacityBounds host b new).run w =
      (publish host (notifierOf b w.stage) (Mutation.commitOpacity b w.stage new)).run w := by
  unfold setOpacityBounds Mutation.commitOpacity
  rw [run_stage_bind]
  cases (w.stage.behaviours.get b).drive <;> rfl

theorem run_bindTo (alpha : Option (Ref .alpha)) :
    (bindTo host b alpha).run w =
      (publish host (notifierOf b w.stage) (Mutation.commitAlpha b w.stage alpha)).run w := by
  unfold bindTo Mutation.commitAlpha Stage.coreOf
  rw [run_stage_bind]
  by_cases same : w.stage.boundAlpha? (w.stage.behaviours.get b).core = alpha
  · simp only [if_pos same]
    rfl
  · simp only [if_neg same]
    exact (run_forEach_singleton _ _ _).symm

/-- A mutation is refused and changes nothing, or it commits and then delivers. -/
theorem run_mutate (m : Mutation) :
    (mutate host b m).run w =
      (check (m.commit b w.stage) >>= publish host (notifierOf b w.stage)).run w := by
  cases m with
  | setBounds corners =>
      show (check corners.toFixed >>= setScaleBounds host b).run w =
        (check (do return Mutation.commitBounds b w.stage (← (← corners.toFixed).toBounds)) >>=
          publish host (notifierOf b w.stage)).run w
      cases corners.toFixed with
      | error cause => rfl
      | ok fixed => exact run_setScaleBounds host b w fixed
  | setFixedBounds corners => exact run_setScaleBounds host b w corners
  | setOpacityBounds new => exact run_setOpacityBounds host b w new
  | setGravity new => exact run_setGravity host b w new
  | setAlpha alpha => exact run_bindTo host b w alpha

end Script

/-- A commit gives the properties of a behaviour the values that are then delivered, and
leaves the others as they are. Nobody is registered or unregistered by it. -/
structure Commit.Sound (b : Ref .behaviour) (s : Stage) (commit : Commit) : Prop where
  nodup : (commit.2.map (·.name)).Nodup
  value : ∀ p, commit.1.valueOf b p = (valueIn commit.2 p).or (s.valueOf b p)
  notifier : Script.notifierOf b commit.1 = Script.notifierOf b s
  notifiers : commit.1.notifiers = s.notifiers

namespace Mutation

variable {b : Ref .behaviour} {s : Stage}

theorem sound_refl (b : Ref .behaviour) (s : Stage) : Commit.Sound b s (s, []) :=
  ⟨List.nodup_nil, fun _ => rfl, rfl, rfl⟩

theorem valueIn_scaleChanges (old new : ScaleBounds) (gravity : Gravity) (p : String) :
    valueIn (Drive.scale new gravity).properties p =
      (valueIn (old.changes new).pending p).or
        (valueIn (Drive.scale old gravity).properties p) := by
  simp only [Drive.properties, ScaleBounds.changes, Batch.valueIn_pushIf, valueIn_cons,
    Batch.empty, valueIn_nil]
  by_cases xStart : ScaleProperty.xStart.name = p
  · subst xStart
    by_cases same : old.x.start = new.x.start <;> simp [same, ScaleProperty.name]
  by_cases yStart : ScaleProperty.yStart.name = p
  · subst yStart
    by_cases same : old.y.start = new.y.start <;> simp [same, ScaleProperty.name]
  by_cases xEnd : ScaleProperty.xEnd.name = p
  · subst xEnd
    by_cases same : old.x.finish = new.x.finish <;> simp [same, ScaleProperty.name]
  by_cases yEnd : ScaleProperty.yEnd.name = p
  · subst yEnd
    by_cases same : old.y.finish = new.y.finish <;> simp [same, ScaleProperty.name]
  simp [xStart, yStart, xEnd, yEnd]

theorem valueIn_opacityChanges (old new : Range UInt8) (p : String) :
    valueIn (Drive.opacity new).properties p =
      (valueIn (old.opacityChanges new).pending p).or
        (valueIn (Drive.opacity old).properties p) := by
  simp only [Drive.properties, Range.opacityChanges, Batch.valueIn_pushIf, valueIn_cons,
    Batch.empty, valueIn_nil]
  by_cases start : OpacityProperty.start.name = p
  · subst start
    by_cases same : old.start = new.start <;> simp [same, OpacityProperty.name]
  by_cases finish : OpacityProperty.finish.name = p
  · subst finish
    by_cases same : old.finish = new.finish <;> simp [same, OpacityProperty.name]
  simp [start, finish]

theorem valueIn_gravityChange (bounds : ScaleBounds) (old new : Gravity) (p : String) :
    valueIn (Drive.scale bounds new).properties p =
      (valueIn [⟨ScaleProperty.gravity.name, new⟩] p).or
        (valueIn (Drive.scale bounds old).properties p) := by
  simp only [Drive.properties, valueIn_cons, valueIn_nil]
  by_cases gravity : ScaleProperty.gravity.name = p
  · subst gravity
    simp [ScaleProperty.name]
  simp [gravity]

/-- Whether a behaviour is bound is not a property of what it does. -/
theorem valueIn_binding (drive : Drive) :
    valueIn drive.properties Script.bindingProperty = none := by
  cases drive <;>
    simp [Drive.properties, Script.bindingProperty, ScaleProperty.name, OpacityProperty.name]

/-- To replace what a behaviour does is sound if the properties of that change so. -/
theorem sound_setDrive {drive : Drive} {changes : List Change}
    (nodup : (changes.map (·.name)).Nodup)
    (value : ∀ p, valueIn drive.properties p =
      (valueIn changes p).or (valueIn (s.behaviours.get b).drive.properties p)) :
    Commit.Sound b s (s.setDrive b drive, changes) := by
  have row : (s.setDrive b drive).behaviours.get b = { s.behaviours.get b with drive } :=
    Table.get_modify_same ..
  have core : (s.setDrive b drive).coreOf b = s.coreOf b := by
    rw [Stage.coreOf, row, Stage.coreOf]
  refine ⟨nodup, ?_, ?_, rfl⟩
  · intro p
    simp only [Stage.valueOf, Stage.properties, core, row, valueIn_cons]
    by_cases binding : Script.bindingProperty = p
    · subst binding
      have others := value Script.bindingProperty
      rw [valueIn_binding, valueIn_binding, Option.or_none] at others
      rw [← others]
      rfl
    · rw [if_neg binding, if_neg binding]
      exact value p
  · rw [Script.notifierOf, row]
    rfl

theorem sound_commitBounds (new : ScaleBounds) : (commitBounds b s new).Sound b s := by
  unfold commitBounds
  cases h : (s.behaviours.get b).drive with
  | scale old gravity =>
      apply sound_setDrive (ScaleBounds.nodup_changes old new)
      rw [h]
      exact valueIn_scaleChanges old new gravity
  | opacity _ => exact sound_refl b s
  | custom _ => exact sound_refl b s

theorem sound_commitOpacity (new : Range UInt8) : (commitOpacity b s new).Sound b s := by
  unfold commitOpacity
  cases h : (s.behaviours.get b).drive with
  | scale _ _ => exact sound_refl b s
  | opacity old =>
      apply sound_setDrive (Range.nodup_opacityChanges old new)
      rw [h]
      exact valueIn_opacityChanges old new
  | custom _ => exact sound_refl b s

theorem sound_commitGravity (new : Gravity) : (commitGravity b s new).Sound b s := by
  unfold commitGravity
  cases h : (s.behaviours.get b).drive with
  | scale bounds old =>
      by_cases same : old = new
      · simp only [if_pos same]
        exact sound_refl b s
      · simp only [if_neg same]
        apply sound_setDrive (by simp)
        rw [h]
        exact valueIn_gravityChange bounds old new
  | opacity _ => exact sound_refl b s
  | custom _ => exact sound_refl b s

theorem sound_commitAlpha (alpha : Option (Ref .alpha)) : (commitAlpha b s alpha).Sound b s := by
  unfold commitAlpha
  by_cases same : s.boundAlpha? (s.coreOf b) = alpha
  · rw [if_pos same]
    exact sound_refl b s
  rw [if_neg same]
  have rebound := s.rebound_rebind b alpha
  have bound := s.boundAlpha?_rebind b alpha
  have core : (s.rebind b alpha).coreOf b = s.coreOf b := by
    rw [Stage.coreOf, rebound.behaviours, Stage.coreOf]
  refine ⟨List.nodup_singleton _, ?_, ?_, rebound.notifiers⟩
  · intro p
    have properties : ((s.rebind b alpha).note (.bound (s.coreOf b) alpha.isSome)).properties b =
        ⟨Script.bindingProperty, alpha.isSome⟩ :: (s.behaviours.get b).drive.properties := by
      show ⟨_, ((s.rebind b alpha).boundAlpha? ((s.rebind b alpha).coreOf b)).isSome⟩ ::
        ((s.rebind b alpha).behaviours.get b).drive.properties = _
      rw [core, bound, rebound.behaviours]
    simp only [Stage.valueOf]
    rw [properties, Stage.properties]
    by_cases binding : Script.bindingProperty = p
    · simp [binding]
    · simp [binding]
  · show ((s.rebind b alpha).cores.get ((s.rebind b alpha).coreOf b)).notifier = _
    rw [core, rebound.notifier]
    rfl

theorem sound_commit {m : Mutation} {commit : Commit} (h : m.commit b s = .ok commit) :
    commit.Sound b s := by
  cases m with
  | setBounds corners =>
      obtain ⟨fixed, _, h⟩ := Word.exists_of_bind_eq_ok h
      obtain ⟨new, _, h⟩ := Word.exists_of_bind_eq_ok h
      cases h
      exact sound_commitBounds new
  | setFixedBounds corners =>
      obtain ⟨new, _, h⟩ := Word.exists_of_bind_eq_ok h
      cases h
      exact sound_commitBounds new
  | setOpacityBounds new =>
      cases h
      exact sound_commitOpacity new
  | setGravity new =>
      cases h
      exact sound_commitGravity new
  | setAlpha alpha =>
      cases h
      exact sound_commitAlpha alpha

end Mutation

end Animation
