/-
# New bounds, and what listeners hear of them

The bounds of a behaviour are all in place before the first listener hears of them. Each
listener then hears of every property that has a new value, once and in a fixed order, and
whatever it reads of the behaviour meanwhile is new throughout. What it hears is enough to get
from the old bounds to the new ones. If nothing is new nobody is called.

The calls are taken down in the callers' own state, each with what can be read at its time.
-/

import Animation.Proofs.Behaviours.Path
import Animation.Proofs.Observers.Mutation

namespace Animation

namespace ScaleBounds

/-- The four scales, in the order in which listeners hear of them. -/
def fields (b : ScaleBounds) : List (ScaleProperty × Fixed) :=
  [(.xStart, b.x.start), (.yStart, b.y.start), (.xEnd, b.x.finish), (.yEnd, b.y.finish)]

/-- The changes that lead from old bounds to new ones: one for each field that differs. -/
def news (old new : ScaleBounds) : List Change :=
  (new.fields.filter (· ∉ old.fields)).map fun (property, scale) => ⟨property.name, scale⟩

/-- The bounds with one of the scales replaced. -/
def replace (b : ScaleBounds) : ScaleProperty → Fixed → ScaleBounds
  | .xStart, scale => { b with x.start := scale }
  | .yStart, scale => { b with y.start := scale }
  | .xEnd, scale => { b with x.finish := scale }
  | .yEnd, scale => { b with y.finish := scale }
  | .gravity, _ => b

/-- The bounds as someone knows them who has heard of a change. -/
def revise (b : ScaleBounds) (change : Change) : ScaleBounds :=
  match ScaleProperty.all.find? (·.name == change.name),
    change.value.asFloat?.map Fixed.ofDouble with
  | some property, some (.ok scale) => b.replace property scale
  | _, _ => b

/-- Scales can be told of exactly. -/
theorem revise_field (b : ScaleBounds) (property : ScaleProperty) (scale : Fixed) :
    b.revise ⟨property.name, scale⟩ = b.replace property scale := by
  have found : ScaleProperty.all.find? (·.name == property.name) = some property := by
    cases property <;> decide
  unfold revise
  rw [found]
  show (match some property, some (Fixed.ofDouble scale.toDouble) with
    | some property, some (.ok scale) => b.replace property scale
    | _, _ => b) = _
  rw [Fixed.ofDouble_toDouble]

/-- What is told when bounds are replaced is what is new about them. -/
theorem pending_changes (old new : ScaleBounds) : (old.changes new).pending = old.news new := by
  obtain ⟨⟨xStart, xEnd⟩, ⟨yStart, yEnd⟩⟩ := old
  obtain ⟨⟨xStart', xEnd'⟩, ⟨yStart', yEnd'⟩⟩ := new
  by_cases h₁ : xStart = xStart' <;> by_cases h₂ : yStart = yStart' <;>
    by_cases h₃ : xEnd = xEnd' <;> by_cases h₄ : yEnd = yEnd' <;>
    simp [changes, news, fields, Batch.pushIf, Batch.push, Batch.place, Batch.empty,
      ScaleProperty.name, h₁, h₂, h₃, h₄, @eq_comm _ xStart' xStart, @eq_comm _ yStart' yStart,
      @eq_comm _ xEnd' xEnd, @eq_comm _ yEnd' yEnd]

theorem news_eq_nil_iff {old new : ScaleBounds} : old.news new = [] ↔ new = old := by
  obtain ⟨⟨xStart, xEnd⟩, ⟨yStart, yEnd⟩⟩ := old
  obtain ⟨⟨xStart', xEnd'⟩, ⟨yStart', yEnd'⟩⟩ := new
  simp [news, fields, List.filter_eq_nil_iff]
  tauto

/-- Whoever knows the old bounds and hears of all that is new knows the new ones. -/
theorem foldl_revise_news (old new : ScaleBounds) : (old.news new).foldl revise old = new := by
  obtain ⟨⟨xStart, xEnd⟩, ⟨yStart, yEnd⟩⟩ := old
  obtain ⟨⟨xStart', xEnd'⟩, ⟨yStart', yEnd'⟩⟩ := new
  by_cases e₁ : xStart' = xStart <;> by_cases e₂ : yStart' = yStart <;>
    by_cases e₃ : xEnd' = xEnd <;> by_cases e₄ : yEnd' = yEnd <;>
    simp [news, fields, revise_field, replace, e₁, e₂, e₃, e₄]

end ScaleBounds

namespace Range

/-- The two opacities, in the order in which listeners hear of them. -/
def opacityFields (r : Range UInt8) : List (OpacityProperty × UInt8) :=
  [(.start, r.start), (.finish, r.finish)]

/-- The changes that lead from old opacities to new ones: one for each field that differs. -/
def opacityNews (old new : Range UInt8) : List Change :=
  (new.opacityFields.filter (· ∉ old.opacityFields)).map
    fun (property, opacity) => ⟨property.name, opacity⟩

/-- The opacities as someone knows them who has heard of a change. -/
def reviseOpacity (r : Range UInt8) (change : Change) : Range UInt8 :=
  match change.value.asInteger? with
  | some opacity =>
      if change.name = OpacityProperty.start.name then { r with start := opacity.toUInt8 }
      else if change.name = OpacityProperty.finish.name then { r with finish := opacity.toUInt8 }
      else r
  | none => r

theorem pending_opacityChanges (old new : Range UInt8) :
    (old.opacityChanges new).pending = old.opacityNews new := by
  obtain ⟨start, finish⟩ := old
  obtain ⟨start', finish'⟩ := new
  by_cases h₁ : start = start' <;> by_cases h₂ : finish = finish' <;>
    simp [opacityChanges, opacityNews, opacityFields, Batch.pushIf, Batch.push, Batch.place,
      Batch.empty, OpacityProperty.name, h₁, h₂, @eq_comm _ start' start,
      @eq_comm _ finish' finish]

theorem opacityNews_eq_nil_iff {old new : Range UInt8} :
    old.opacityNews new = [] ↔ new = old := by
  obtain ⟨start, finish⟩ := old
  obtain ⟨start', finish'⟩ := new
  simp [opacityNews, opacityFields, List.filter_eq_nil_iff]

theorem foldl_reviseOpacity_opacityNews (old new : Range UInt8) :
    (old.opacityNews new).foldl reviseOpacity old = new := by
  obtain ⟨start, finish⟩ := old
  obtain ⟨start', finish'⟩ := new
  by_cases h₁ : start' = start <;> by_cases h₂ : finish' = finish <;>
    simp [opacityNews, opacityFields, reviseOpacity, OpacityProperty.name, Value.asInteger?, h₁,
      h₂]

end Range

/-- A listener is called about a change, and can read what the behaviour does. -/
structure Call where
  callback : Callback
  change : Change
  reads : Drive
  deriving DecidableEq

/-- The callers' own state, and the calls that were taken down, in their order. -/
structure Attended (υ : Type) where
  own : υ
  calls : List Call

/-- What the behaviour does. -/
def Stage.driveOf (s : Stage) (b : Ref .behaviour) : Drive := (s.behaviours.get b).drive

/-- Take down that a listener to a behaviour is called. -/
def Script.takeDown {υ : Type} (b : Ref .behaviour) (callback : Callback) (change : Change) :
    Script (Attended υ) Unit :=
  modify fun w =>
    { w with user.calls := w.user.calls ++ [⟨callback, change, w.stage.driveOf b⟩] }

/-- The same callbacks, where the calls of listeners to a behaviour are taken down. -/
def Host.attended {υ : Type} (host : Host (Attended υ)) (b : Ref .behaviour) :
    Host (Attended υ) :=
  { host with
    notified := fun callback change => do
      Script.takeDown b callback change
      host.notified callback change }

/-- The calls of one listener. -/
def callsOf (callback : Callback) (calls : List Call) : List Call :=
  calls.filter (·.callback = callback)

/-- Listeners that are registered with a notifier, each with a callback of its own. -/
def Notifier.Keeps (n : Notifier) (audience : List Listener) : Prop :=
  ∀ l ∈ audience, n.listeners.filter (·.callback = l.callback) = [l]

namespace Notifier.Keeps

variable {n : Notifier} {audience : List Listener}

/-- Of the callbacks that hear a change those of a listener are itself, if it hears it. -/
theorem hearing (h : n.Keeps audience) {l : Listener} (mem : l ∈ audience) (name : String) :
    (n.hearing name).filter (· = l.callback) = if l.hears name then [l.callback] else [] := by
  have own : (n.listeners.filter (·.hears name)).filter (·.callback = l.callback) =
      [l].filter (·.hears name) := by
    rw [List.filter_filter, ← h l mem, List.filter_filter]
    congr 1
    funext other
    rw [Bool.and_comm]
  unfold Notifier.hearing
  rw [List.filter_map]
  show List.map _ (List.filter (fun other : Listener => decide (other.callback = l.callback)) _) = _
  rw [own]
  cases hears : l.hears name <;> simp [hears]

end Notifier.Keeps

/-- All calls from one world to another, while an audience to a behaviour stays: each of them
is about something that is new, can read what the behaviour now does, and each listener of the
audience is called about what is new to it. -/
structure Attendance {υ : Type} (b : Ref .behaviour) (n : Ref .notifier)
    (audience : List Listener) (news : List Change) (w w' : World (Attended υ))
    (calls : List Call) : Prop where
  stays : (w'.stage.notifiers.get n).Keeps audience
  drive : w'.stage.driveOf b = w.stage.driveOf b
  taken : w'.user.calls = w.user.calls ++ calls
  new : ∀ call ∈ calls, call.change ∈ news
  reads : ∀ call ∈ calls, call.reads = w.stage.driveOf b
  own : ∀ l ∈ audience, callsOf l.callback calls =
    (news.filter (l.hears ·.name)).map (⟨l.callback, ·, w.stage.driveOf b⟩)

/-- A callback that does not change the behaviour, keeps the audience, and comes to its end. -/
def Script.LooksOn {υ : Type} (b : Ref .behaviour) (n : Ref .notifier)
    (audience : List Listener) (x : Script (Attended υ) Unit) : Prop :=
  ∀ w, (w.stage.notifiers.get n).Keeps audience → ∃ w', x.run w = (.ok (), w') ∧
    (w'.stage.notifiers.get n).Keeps audience ∧ w'.stage.driveOf b = w.stage.driveOf b ∧
    w'.user.calls = w.user.calls

/-! ## Delivery to an audience -/

namespace Attendance

variable {υ : Type} {b : Ref .behaviour} {n : Ref .notifier} {audience : List Listener}
  {news news' : List Change} {w w' w'' : World (Attended υ)} {calls calls' : List Call}

theorem nil (stays : (w.stage.notifiers.get n).Keeps audience) :
    Attendance b n audience [] w w [] where
  stays := stays
  drive := rfl
  taken := (List.append_nil _).symm
  new _ mem := nomatch mem
  reads _ mem := nomatch mem
  own _ _ := rfl

theorem append (h : Attendance b n audience news w w' calls)
    (h' : Attendance b n audience news' w' w'' calls') :
    Attendance b n audience (news ++ news') w w'' (calls ++ calls') where
  stays := h'.stays
  drive := h'.drive.trans h.drive
  taken := by rw [h'.taken, h.taken, List.append_assoc]
  new call mem := by
    rcases List.mem_append.1 mem with mem | mem
    · exact List.mem_append_left _ (h.new call mem)
    · exact List.mem_append_right _ (h'.new call mem)
  reads call mem := by
    rcases List.mem_append.1 mem with mem | mem
    · exact h.reads call mem
    · rw [h'.reads call mem, h.drive]
  own l mem := by
    have first := h.own l mem
    have last := h'.own l mem
    rw [h.drive] at last
    unfold callsOf at *
    rw [List.filter_append, first, last, List.filter_append, List.map_append]

/-- The calls about one change, of all callbacks that hear it. -/
theorem single (hears : (w.stage.notifiers.get n).Keeps audience) (change : Change)
    (stays : (w'.stage.notifiers.get n).Keeps audience)
    (drive : w'.stage.driveOf b = w.stage.driveOf b)
    (taken : w'.user.calls = w.user.calls ++
      ((w.stage.notifiers.get n).hearing change.name).map (⟨·, change, w.stage.driveOf b⟩)) :
    Attendance b n audience [change] w w'
      (((w.stage.notifiers.get n).hearing change.name).map (⟨·, change, w.stage.driveOf b⟩)) where
  stays := stays
  drive := drive
  taken := taken
  new call mem := by
    obtain ⟨_, _, rfl⟩ := List.mem_map.1 mem
    exact List.mem_singleton_self _
  reads call mem := by
    obtain ⟨_, _, rfl⟩ := List.mem_map.1 mem
    rfl
  own l mem := by
    have own := hears.hearing mem change.name
    unfold callsOf
    rw [List.filter_map]
    show List.map _ (List.filter (fun callback => decide (callback = l.callback)) _) = _
    rw [own]
    cases hears : l.hears change.name <;> simp [hears]

end Attendance

namespace Script

variable {υ : Type} {host : Host (Attended υ)} {b : Ref .behaviour} {n : Ref .notifier}
  {audience : List Listener}
  (looksOn : ∀ callback change, LooksOn b n audience (host.notified callback change))

include looksOn

/-- Each callback is called, with the behaviour as it was when the first one was called. -/
theorem run_forEach_attended (change : Change) (callbacks : List Callback)
    (w : World (Attended υ)) (stays : (w.stage.notifiers.get n).Keeps audience) :
    ∃ w', (forEach (fun callback => (host.attended b).notified callback change) callbacks).run w =
        (.ok (), w') ∧
      (w'.stage.notifiers.get n).Keeps audience ∧ w'.stage.driveOf b = w.stage.driveOf b ∧
      w'.user.calls =
        w.user.calls ++ callbacks.map (⟨·, change, w.stage.driveOf b⟩) := by
  induction callbacks generalizing w with
  | nil => exact ⟨w, rfl, stays, rfl, (List.append_nil _).symm⟩
  | cons callback rest ih =>
      obtain ⟨w₁, called, stays₁, drive₁, calls₁⟩ := looksOn callback change
        { w with user.calls := w.user.calls ++ [⟨callback, change, w.stage.driveOf b⟩] } stays
      have first : ((host.attended b).notified callback change).run w = (.ok (), w₁) := called
      obtain ⟨w₂, others, stays₂, drive₂, calls₂⟩ := ih w₁ stays₁
      have drive : w₁.stage.driveOf b = w.stage.driveOf b := drive₁
      refine ⟨w₂, ?_, stays₂, drive₂.trans drive₁, ?_⟩
      · simp [run_bind_of_ok first, others]
      · rw [calls₂, calls₁, drive, List.map_cons, List.append_assoc]
        rfl

/-- A change is delivered to an audience. -/
theorem attendance_notify (change : Change) (w : World (Attended υ))
    (stays : (w.stage.notifiers.get n).Keeps audience) :
    ∃ w' calls, (notify (host.attended b) n change).run w = (.ok (), w') ∧
      Attendance b n audience [change] w w' calls := by
  obtain ⟨w', run, stays', drive, taken⟩ := run_forEach_attended looksOn change
    ((w.stage.notifiers.get n).hearing change.name)
    { w with stage := w.stage.note (.notified n change) } stays
  exact ⟨w', _, run, .single stays change stays' drive taken⟩

/-- Several changes are delivered to an audience. -/
theorem attendance_forEach_notify (news : List Change) (w : World (Attended υ))
    (stays : (w.stage.notifiers.get n).Keeps audience) :
    ∃ w' calls, (forEach (notify (host.attended b) n) news).run w = (.ok (), w') ∧
      Attendance b n audience news w w' calls := by
  induction news generalizing w with
  | nil => exact ⟨w, [], rfl, .nil stays⟩
  | cons change rest ih =>
      obtain ⟨w₁, calls₁, first, attendance₁⟩ := attendance_notify looksOn change w stays
      obtain ⟨w₂, calls₂, others, attendance₂⟩ := ih w₁ attendance₁.stays
      exact ⟨w₂, calls₁ ++ calls₂, by rw [run_forEach_cons, run_bind_of_ok first, others],
        attendance₁.append attendance₂⟩

/-- What replaces the drive of a behaviour is in place when the news of it is delivered. -/
theorem attendance_publish (drive : Drive) (news : List Change) (w : World (Attended υ))
    (stays : (w.stage.notifiers.get n).Keeps audience) :
    ∃ w' calls, (publish (host.attended b) n (w.stage.setDrive b drive, news)).run w =
        (.ok (), w') ∧
      Attendance b n audience news { w with stage := w.stage.setDrive b drive } w' calls :=
  attendance_forEach_notify looksOn news { w with stage := w.stage.setDrive b drive } stays

end Script

/-- What an audience has been told when old bounds are replaced by new ones. Each listener has
been called once about each change that it hears, in order, and could read nothing but the new
bounds; who hears of everything can get from the old bounds to the new ones; and if nothing is
new nobody has been called. -/
structure Briefed {β : Type} (audience : List Listener) (drive : Drive) (revise : β → Change → β)
    (old new : β) (news : List Change) (calls : List Call) : Prop where
  own : ∀ l ∈ audience, callsOf l.callback calls =
    (news.filter (l.hears ·.name)).map (⟨l.callback, ·, drive⟩)
  reads : ∀ call ∈ calls, call.reads = drive
  revised : ∀ l ∈ audience, l.property = none →
    ((callsOf l.callback calls).map (·.change)).foldl revise old = new
  silent : new = old → calls = []
  heard : ∀ l ∈ audience, l.property = none → (calls = [] ↔ new = old)

theorem Listener.hears_of_property_eq_none {l : Listener} (h : l.property = none)
    (name : String) : l.hears name = true := by
  unfold Listener.hears
  rw [h]

/-- An audience has been told if the news amounts to the difference of the bounds. -/
theorem Attendance.briefed {υ β : Type} {b : Ref .behaviour} {n : Ref .notifier}
    {audience : List Listener} {news : List Change} {w w' : World (Attended υ)}
    {calls : List Call} (h : Attendance b n audience news w w' calls) {revise : β → Change → β}
    {old new : β} (news_eq_nil : news = [] ↔ new = old) (revised : news.foldl revise old = new) :
    Briefed audience (w.stage.driveOf b) revise old new news calls := by
  have all : ∀ l ∈ audience, l.property = none →
      (callsOf l.callback calls).map (·.change) = news := by
    intro l mem any
    rw [h.own l mem, List.map_map]
    simp [Listener.hears_of_property_eq_none any, Function.comp_def]
  have silent : new = old → calls = [] := by
    intro same
    apply List.eq_nil_iff_forall_not_mem.2
    intro call mem
    have news_mem := h.new call mem
    rw [news_eq_nil.2 same] at news_mem
    exact nomatch news_mem
  refine ⟨h.own, h.reads, ?_, silent, ?_⟩
  · intro l mem any
    rw [all l mem any, revised]
  · intro l mem any
    refine ⟨fun none => ?_, silent⟩
    rw [← news_eq_nil, ← all l mem any, none]
    rfl

theorem Stage.driveOf_setDrive (s : Stage) (b : Ref .behaviour) (drive : Drive) :
    (s.setDrive b drive).driveOf b = drive :=
  congrArg Behaviour.drive (Table.get_modify_same ..)

/-- Scales that are not negative are accepted. -/
theorem Corners.toBounds_of_nonneg {corners : Corners Fixed} (xStart : 0 ≤ corners.xStart.toRaw)
    (yStart : 0 ≤ corners.yStart.toRaw) (xEnd : 0 ≤ corners.xEnd.toRaw)
    (yEnd : 0 ≤ corners.yEnd.toRaw) : corners.toBounds = .ok (.ofCorners corners) := by
  simp [Corners.toBounds, Corners.checkAll, checkFixedScale, xStart, yStart, xEnd, yEnd]
  rfl

namespace Script

variable {υ : Type} {host : Host (Attended υ)} {b : Ref .behaviour} {w : World (Attended υ)}
  {audience : List Listener}

/-- Whoever replaces bounds by four scales that are not negative, or opacities by others, has
exactly these in place afterwards, and the audience has been told. -/
theorem audience_briefed_on_bounds
    (looksOn : ∀ callback change,
      LooksOn b (notifierOf b w.stage) audience (host.notified callback change))
    (keeps : (w.stage.notifiers.get (notifierOf b w.stage)).Keeps audience) :
    (∀ old gravity corners, w.stage.driveOf b = .scale old gravity →
      0 ≤ corners.xStart.toRaw → 0 ≤ corners.yStart.toRaw → 0 ≤ corners.xEnd.toRaw →
      0 ≤ corners.yEnd.toRaw →
      ∃ w' calls, (setScaleBounds (host.attended b) b corners).run w = (.ok (), w') ∧
        w'.stage.driveOf b = .scale (.ofCorners corners) gravity ∧
        w'.user.calls = w.user.calls ++ calls ∧
        Briefed audience (.scale (.ofCorners corners) gravity) ScaleBounds.revise old
          (.ofCorners corners) (old.news (.ofCorners corners)) calls) ∧
    (∀ old new, w.stage.driveOf b = .opacity old →
      ∃ w' calls, (setOpacityBounds (host.attended b) b new).run w = (.ok (), w') ∧
        w'.stage.driveOf b = .opacity new ∧ w'.user.calls = w.user.calls ++ calls ∧
        Briefed audience (.opacity new) Range.reviseOpacity old new (old.opacityNews new)
          calls) := by
  constructor
  · intro old gravity corners drive xStart yStart xEnd yEnd
    have bounds := Corners.toBounds_of_nonneg xStart yStart xEnd yEnd
    have commit : Mutation.commitBounds b w.stage (.ofCorners corners) =
        (w.stage.setDrive b (.scale (.ofCorners corners) gravity),
          old.news (.ofCorners corners)) := by
      unfold Stage.driveOf at drive
      rw [Mutation.commitBounds, drive, ← ScaleBounds.pending_changes]
    obtain ⟨w', calls, run, attendance⟩ := attendance_publish looksOn
      (.scale (.ofCorners corners) gravity) (old.news (.ofCorners corners)) w keeps
    have drives := Stage.driveOf_setDrive w.stage b (.scale (.ofCorners corners) gravity)
    refine ⟨w', calls, ?_, attendance.drive.trans drives, attendance.taken, ?_⟩
    · rw [run_setScaleBounds, bounds, ← run, ← commit]
      rfl
    · have briefed := attendance.briefed ScaleBounds.news_eq_nil_iff
        (ScaleBounds.foldl_revise_news old (.ofCorners corners))
      rwa [drives] at briefed
  · intro old new drive
    have commit : Mutation.commitOpacity b w.stage new =
        (w.stage.setDrive b (.opacity new), old.opacityNews new) := by
      unfold Stage.driveOf at drive
      rw [Mutation.commitOpacity, drive, ← Range.pending_opacityChanges]
    obtain ⟨w', calls, run, attendance⟩ := attendance_publish looksOn (.opacity new)
      (old.opacityNews new) w keeps
    have drives := Stage.driveOf_setDrive w.stage b (.opacity new)
    refine ⟨w', calls, ?_, attendance.drive.trans drives, attendance.taken, ?_⟩
    · rw [run_setOpacityBounds, commit, run]
    · have briefed := attendance.briefed Range.opacityNews_eq_nil_iff
        (Range.foldl_reviseOpacity_opacityNews old new)
      rwa [drives] at briefed

/-- A behaviour with a listener to everything and a listener to one scale. -/
def twoListeners : Stage :=
  (((Stage.empty true).addBehaviour (.scale default .center)).1.modifyNotifier ⟨0⟩
    (·.register none 0)).modifyNotifier ⟨0⟩ (·.register (some ScaleProperty.yEnd.name) 1)

/-- Callbacks that count how often they are called. -/
def counting : Host (Attended Nat) :=
  { Host.silent (Attended Nat) with
    notified := fun _ _ => modify fun w => { w with user.own := w.user.own + 1 } }

/-- The two listeners. -/
def listening : List Listener := [⟨0, none, 0⟩, ⟨1, some ScaleProperty.yEnd.name, 1⟩]

/-- The scales of a behaviour that makes actors twice as wide. -/
def widening : Corners Fixed := ⟨.one, .one, .ofRaw 131072, .one⟩

/-- Only the listener to everything is called when a behaviour is made to widen. -/
theorem audience_briefed_on_bounds_widening :
    ∃ w' calls, (setScaleBounds (counting.attended ⟨0⟩) ⟨0⟩ widening).run
        ⟨twoListeners, ⟨0, []⟩⟩ = (.ok (), w') ∧ w'.user.calls = calls ∧
      callsOf 0 calls = [⟨0, ⟨"x-scale-end", .float (Fixed.ofRaw 131072).toDouble⟩,
        .scale (.ofCorners widening) .center⟩] ∧ callsOf 1 calls = [] := by
  have looksOn : ∀ callback change, LooksOn ⟨0⟩ (notifierOf ⟨0⟩ twoListeners) listening
      (counting.notified callback change) :=
    fun _ _ w keeps => ⟨{ w with user.own := w.user.own + 1 }, rfl, keeps, rfl, rfl⟩
  have keeps : (twoListeners.notifiers.get (notifierOf ⟨0⟩ twoListeners)).Keeps listening := by
    unfold Notifier.Keeps
    decide +kernel
  obtain ⟨w', calls, run, -, taken, briefed⟩ :=
    (audience_briefed_on_bounds (w := ⟨twoListeners, ⟨0, []⟩⟩) looksOn keeps).1 default .center
      widening (by decide +kernel) (by decide +kernel) (by decide +kernel) (by decide +kernel)
      (by decide +kernel)
  refine ⟨w', calls, run, taken, ?_, ?_⟩
  · rw [briefed.own ⟨0, none, 0⟩ (by simp [listening])]
    decide +kernel
  · rw [briefed.own ⟨1, some ScaleProperty.yEnd.name, 1⟩ (by simp [listening])]
    decide +kernel

end Script

end Animation
