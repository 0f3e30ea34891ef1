/-
# Observers as mirrors of a behaviour

Listeners to the changes of a behaviour may change it again when they hear of one, and the
news of that is delivered before the delivery of the first change goes on. So each observer
hears of every change once, and of the latest change after it was made. It hears of the
latest change last if it had heard of all the others when that one was made; else the news
of an earlier change may reach it later, as the last case here shows.

A log in the callers' own state records when properties change and who hears of it.
-/

import Animation.Proofs.Observers.Mutation
import Animation.Proofs.Observers.Told

namespace Animation

/-- What is logged: a property of a behaviour has a new value, or a callback hears of one. -/
inductive Event where
  | changed (property : String) (v : Value)
  | heard (callback : Callback) (property : String) (v : Value)
  deriving DecidableEq

/-- The callers' own state, and the log. -/
structure Logged (υ : Type) where
  own : υ
  log : List Event

namespace Script

variable {υ : Type}

/-- Put events on the log. -/
def log (events : List Event) : Script (Logged υ) Unit :=
  modify fun w => { w with user.log := w.user.log ++ events }

end Script

/-- The same callbacks, which log what they hear. -/
def Host.logging {υ : Type} (host : Host (Logged υ)) : Host (Logged υ) :=
  { host with
    notified := fun callback change => do
      Script.log [.heard callback change.name change.value]
      host.notified callback change }

/-- The events that a mutation puts on the log: what it commits, unless it is refused. -/
def Mutation.events (m : Mutation) (b : Ref .behaviour) (s : Stage) : List Event :=
  match m.commit b s with
  | .ok commit => commit.2.map fun change => .changed change.name change.value
  | .error _ => []

/-- Make a change to a behaviour and log it. A refusal is an answer. -/
def Script.call {υ : Type} (host : Host (Logged υ)) (b : Ref .behaviour) (m : Mutation) :
    Script (Logged υ) (Except Violation Unit) := do
  log (m.events b (← stage))
  (mutate host.logging b m).attempt

/-- An observer of a property of a behaviour. -/
structure Watch where
  behaviour : Ref .behaviour
  notifier : Ref .notifier
  observer : Callback
  property : String

namespace Watch

variable (k : Watch) {υ α β : Type}

/-- The observer is registered with the behaviour, once for the property, and nowhere else. -/
structure Stands (s : Stage) : Prop where
  notifier : Script.notifierOf k.behaviour s = k.notifier
  once : ((s.notifiers.get k.notifier).hearing k.property).count k.observer = 1
  nowhere_else : ∀ n ≠ k.notifier, ∀ name, k.observer ∉ (s.notifiers.get n).hearing name

/-- What an event is to the observer. -/
def news? : Event → Option News
  | .changed property v => if property = k.property then some (.changed v) else none
  | .heard callback property v =>
      if callback = k.observer ∧ property = k.property then some (.heard v) else none

/-- What a log is to the observer. -/
def news (log : List Event) : List News := log.filterMap k.news?

/-- The value that the property has. -/
def value (s : Stage) : Option Value := s.valueOf k.behaviour k.property

@[simp]
theorem news_append (l l' : List Event) : k.news (l ++ l') = k.news l ++ k.news l' := by
  simp [news]

/-- From one world to another the observer is told of all that happens, and of what is due,
and the property has the value that it was given last. -/
structure Telling (due : Option Value) (w w' : World (Logged υ)) (l : List Event) : Prop where
  stands : k.Stands w'.stage
  log : w'.user.log = w.user.log ++ l
  told : News.Told due (k.news l)
  value : k.value w'.stage = (News.changes (k.news l)).getLast?.or (k.value w.stage)

/-- A script comes to its end, and the observer is told of all that happens. -/
def Tells (due : Option Value) (x : Script (Logged υ) α) (w : World (Logged υ)) : Prop :=
  k.Stands w.stage → ∃ a w' l, x.run w = (.ok a, w') ∧ k.Telling due w w' l

/-- A script has nothing to do with the observer. -/
def LeavesAlone (x : Script (Logged υ) α) : Prop :=
  ∀ w, k.Stands w.stage → ∃ a w', x.run w = (.ok a, w') ∧ k.Stands w'.stage ∧
    w'.user.log = w.user.log ∧ k.value w'.stage = k.value w.stage

/-- What callbacks may do: they change the behaviour any number of times, call others back,
who may do the same, and otherwise leave the observer alone. -/
inductive Responds (k : Watch) {υ : Type} : {α : Type} → Script (Logged υ) α → Prop
  | call {host : Host (Logged υ)} (m : Mutation)
      (h : ∀ callback change, Responds k (host.notified callback change)) :
      Responds k (Script.call host k.behaviour m)
  | notify {host : Host (Logged υ)} {n : Ref .notifier} (ne : n ≠ k.notifier) (change : Change)
      (h : ∀ callback change, Responds k (host.notified callback change)) :
      Responds k (Script.notify host.logging n change)
  | aside {α : Type} {x : Script (Logged υ) α} (h : k.LeavesAlone x) : Responds k x
  | bind {α β : Type} {x : Script (Logged υ) α} {f : α → Script (Logged υ) β}
      (hx : Responds k x) (hf : ∀ a, Responds k (f a)) : Responds k (x >>= f)

variable {k} {due : Option Value} {w w' w'' : World (Logged υ)} {l l' : List Event}

namespace Telling

theorem append_due (h : k.Telling none w w' l) (h' : k.Telling due w' w'' l') :
    k.Telling due w w'' (l ++ l') where
  stands := h'.stands
  log := by rw [h'.log, h.log, List.append_assoc]
  told := by
    rw [news_append]
    exact h.told.append_due h'.told
  value := by
    rw [h'.value, h.value, news_append, News.changes_append, List.getLast?_append, Option.or_assoc]

theorem due_append (h : k.Telling due w w' l) (h' : k.Telling none w' w'' l') :
    k.Telling due w w'' (l ++ l') where
  stands := h'.stands
  log := by rw [h'.log, h.log, List.append_assoc]
  told := by
    rw [news_append]
    exact h.told.due_append h'.told
  value := by
    rw [h'.value, h.value, news_append, News.changes_append, List.getLast?_append, Option.or_assoc]

/-- What is not news to the observer tells it nothing. -/
theorem silent (stands : k.Stands w'.stage) (log : w'.user.log = w.user.log ++ l)
    (unheard : k.news l = []) (value : k.value w'.stage = k.value w.stage) :
    k.Telling none w w' l where
  stands := stands
  log := log
  told := by
    rw [unheard]
    exact .nil
  value := by
    rw [unheard, value]
    rfl

end Telling

theorem tells_bind_due {x : Script (Logged υ) α} {f : α → Script (Logged υ) β}
    (hx : k.Tells none x w) (hf : ∀ a w', k.Tells due (f a) w') : k.Tells due (x >>= f) w := by
  intro stands
  obtain ⟨a, w', l, run, told⟩ := hx stands
  obtain ⟨b, w'', l', run', told'⟩ := hf a w' told.stands
  exact ⟨b, w'', l ++ l', by rw [Script.run_bind_of_ok run, run'], told.append_due told'⟩

theorem tells_due_bind {x : Script (Logged υ) α} {f : α → Script (Logged υ) β}
    (hx : k.Tells due x w) (hf : ∀ a w', k.Tells none (f a) w') : k.Tells due (x >>= f) w := by
  intro stands
  obtain ⟨a, w', l, run, told⟩ := hx stands
  obtain ⟨b, w'', l', run', told'⟩ := hf a w' told.stands
  exact ⟨b, w'', l ++ l', by rw [Script.run_bind_of_ok run, run'], told.due_append told'⟩

theorem tells_pure (a : α) : k.Tells none (pure a : Script (Logged υ) α) w := by
  intro stands
  exact ⟨a, w, [], rfl, .silent stands (List.append_nil _).symm rfl rfl⟩

theorem LeavesAlone.tells {x : Script (Logged υ) α} (h : k.LeavesAlone x) : k.Tells none x w := by
  intro stands
  obtain ⟨a, w', run, stands', log, value⟩ := h w stands
  exact ⟨a, w', [], run, .silent stands' (by rw [log, List.append_nil]) rfl value⟩

/-! ## Delivery -/

section Delivery

variable {host : Host (Logged υ)} (h : ∀ callback change w,
  k.Tells none (host.notified callback change) w)

include h

/-- A callback tells the observer of a change if it is the observer and the change one of the
property. -/
theorem tells_notified (callback : Callback) (change : Change) (w : World (Logged υ)) :
    k.Tells (if callback = k.observer ∧ change.name = k.property then some change.value else none)
      (host.logging.notified callback change) w := by
  apply tells_due_bind _ fun _ w' => h callback change w'
  intro stands
  let w' : World (Logged υ) :=
    { w with user.log := w.user.log ++ [.heard callback change.name change.value] }
  refine ⟨(), w', [.heard callback change.name change.value], rfl, stands, rfl, ?_, ?_⟩
  · by_cases own : callback = k.observer ∧ change.name = k.property
    · simp only [news, List.filterMap_cons, news?, if_pos own]
      exact .hear change.value
    · simp only [news, List.filterMap_cons, news?, if_neg own]
      exact .nil
  · by_cases own : callback = k.observer ∧ change.name = k.property
    · simp only [news, List.filterMap_cons, news?, if_pos own]
      rfl
    · simp only [news, List.filterMap_cons, news?, if_neg own]
      rfl

/-- Of several callbacks the observer is told of a change by being one of them. -/
theorem tells_forEach_notified (change : Change) (callbacks : List Callback)
    (once : change.name = k.property → callbacks.count k.observer ≤ 1) (w : World (Logged υ)) :
    k.Tells
      (if k.observer ∈ callbacks ∧ change.name = k.property then some change.value else none)
      (Script.forEach (fun callback => host.logging.notified callback change) callbacks) w := by
  induction callbacks generalizing w with
  | nil =>
      simp only [List.not_mem_nil, false_and, if_false]
      exact tells_pure ()
  | cons callback rest ih =>
      have rest_once : change.name = k.property → rest.count k.observer ≤ 1 := by
        intro own
        exact Nat.le_trans (List.count_le_count_cons ..) (once own)
      have first := tells_notified h callback change w
      have others := ih rest_once
      by_cases own : change.name = k.property
      · by_cases is : callback = k.observer
        · have absent : k.observer ∉ rest := by
            have le := once own
            rw [is, List.count_cons_self] at le
            exact List.count_eq_zero.1 (by omega)
          simp only [is, own, absent, false_and, and_self, if_false, if_true,
            List.mem_cons_self] at first others ⊢
          exact tells_due_bind first fun _ w' => others w'
        · simp only [is, own, if_false, and_true, List.mem_cons, Ne.symm is,
            false_or] at first others ⊢
          exact tells_bind_due first fun _ w' => others w'
      · simp only [own, and_false, if_false] at first others ⊢
        exact tells_bind_due first fun _ w' => others w'

/-- To deliver a change of the behaviour tells the observer of it if it is one of the property. -/
theorem tells_notify (change : Change) (w : World (Logged υ)) :
    k.Tells (if change.name = k.property then some change.value else none)
      (Script.notify host.logging k.notifier change) w := by
  intro stands
  have tells := tells_forEach_notified h change
    ((w.stage.notifiers.get k.notifier).hearing change.name)
    (fun own => own ▸ Nat.le_of_eq stands.once)
    { w with stage := w.stage.note (.notified k.notifier change) }
  have mem : change.name = k.property →
      k.observer ∈ (w.stage.notifiers.get k.notifier).hearing change.name := by
    intro own
    rw [own, ← List.count_pos_iff, stands.once]
    exact Nat.one_pos
  simp only [and_iff_right_of_imp mem] at tells
  obtain ⟨a, w', l, run, told⟩ := tells ⟨stands.notifier, stands.once, stands.nowhere_else⟩
  exact ⟨a, w', l, run, told.stands, told.log, told.told, told.value⟩

/-- To deliver a change of something else tells the observer nothing. -/
theorem tells_notify_other {n : Ref .notifier} (ne : n ≠ k.notifier) (change : Change)
    (w : World (Logged υ)) : k.Tells none (Script.notify host.logging n change) w := by
  intro stands
  have absent := stands.nowhere_else n ne change.name
  have tells := tells_forEach_notified h change
    ((w.stage.notifiers.get n).hearing change.name)
    (fun _ => by rw [List.count_eq_zero.2 absent]; exact Nat.zero_le _)
    { w with stage := w.stage.note (.notified n change) }
  simp only [absent, false_and, if_false] at tells
  obtain ⟨a, w', l, run, told⟩ := tells ⟨stands.notifier, stands.once, stands.nowhere_else⟩
  exact ⟨a, w', l, run, told.stands, told.log, told.told, told.value⟩

/-- To deliver changes of several properties tells the observer of its own. -/
theorem tells_forEach_notify (changes : List Change) (nodup : (changes.map (·.name)).Nodup)
    (w : World (Logged υ)) :
    k.Tells (valueIn changes k.property)
      (Script.forEach (Script.notify host.logging k.notifier) changes) w := by
  induction changes generalizing w with
  | nil => exact tells_pure ()
  | cons change rest ih =>
      rw [List.map_cons, List.nodup_cons] at nodup
      have first := tells_notify h change w
      have others := ih nodup.2
      rw [valueIn_cons]
      by_cases own : change.name = k.property
      · have absent : valueIn rest k.property = none := valueIn_eq_none (own ▸ nodup.1)
        rw [if_pos own] at first ⊢
        rw [absent] at others
        exact tells_due_bind first fun _ w' => others w'
      · rw [if_neg own] at first ⊢
        exact tells_bind_due first fun _ w' => others w'

omit h in
/-- What a commit puts on the log is news to the observer if its property is concerned. -/
theorem news_changed (changes : List Change) (nodup : (changes.map (·.name)).Nodup) :
    k.news (changes.map fun change => .changed change.name change.value) =
      (valueIn changes k.property).toList.map .changed := by
  induction changes with
  | nil => rfl
  | cons change rest ih =>
      rw [List.map_cons, List.nodup_cons] at nodup
      have others := ih nodup.2
      rw [news] at others
      rw [valueIn_cons]
      by_cases own : change.name = k.property
      · have absent : valueIn rest k.property = none := valueIn_eq_none (own ▸ nodup.1)
        rw [absent] at others
        simp [news, news?, own, others]
      · simp [news, news?, own, others]

/-- A change to the behaviour comes to its end, and the observer is told of all of it. -/
theorem tells_call (m : Mutation) (w : World (Logged υ)) :
    k.Tells none (Script.call host k.behaviour m) w := by
  intro stands
  cases e : m.commit k.behaviour w.stage with
  | error cause =>
      have events : m.events k.behaviour w.stage = [] := by simp only [Mutation.events, e]
      let w' : World (Logged υ) := { w with user.log := w.user.log ++ [] }
      have refused : (Script.mutate host.logging k.behaviour m).run w' =
          (.error (.violation cause), w') := by
        rw [Script.run_mutate]
        exact Script.run_check_error_bind e _ _
      have run : (Script.call host k.behaviour m).run w =
          ((Script.mutate host.logging k.behaviour m).attempt).run w' := by
        rw [Script.call, Script.run_stage_bind, events]
        rfl
      rw [Script.run_attempt_of_violation refused] at run
      exact ⟨_, w', [], run, .silent stands rfl rfl rfl⟩
  | ok commit =>
      have sound := Mutation.sound_commit e
      have events : m.events k.behaviour w.stage =
          commit.2.map fun change => .changed change.name change.value := by
        simp only [Mutation.events, e]
      let logged : World (Logged υ) :=
        { w with user.log := w.user.log ++ m.events k.behaviour w.stage }
      let committed : World (Logged υ) := { logged with stage := commit.1 }
      have stands' : k.Stands commit.1 := by
        refine ⟨sound.notifier.trans stands.notifier, ?_, ?_⟩
        · rw [sound.notifiers]
          exact stands.once
        · rw [sound.notifiers]
          exact stands.nowhere_else
      obtain ⟨_, w', l, run, told⟩ :=
        tells_forEach_notify h commit.2 sound.nodup committed stands'
      have ends : (Script.mutate host.logging k.behaviour m).run logged = (.ok (), w') := by
        rw [Script.run_mutate, Script.run_check_ok_bind e, stands.notifier]
        exact run
      refine ⟨_, w', m.events k.behaviour w.stage ++ l, Script.run_attempt_of_ok ends, ?_⟩
      have news := news_changed (k := k) commit.2 sound.nodup
      rw [← events] at news
      refine ⟨told.stands, ?_, ?_, ?_⟩
      · rw [told.log, List.append_assoc]
      · rw [news_append, news]
        exact told.told.announce
      · have value := sound.value k.property
        rw [news_append, news, News.changes_append, News.changes_map_changed,
          List.getLast?_append, told.value, Option.or_assoc]
        have last : (valueIn commit.2 k.property).toList.getLast? =
            valueIn commit.2 k.property := by
          cases valueIn commit.2 k.property <;> rfl
        rw [last]
        exact congrArg _ value

end Delivery

/-- Whatever callbacks do, the observer is told of it. -/
theorem Responds.tells {x : Script (Logged υ) α} (h : k.Responds x) (w : World (Logged υ)) :
    k.Tells none x w := by
  induction h generalizing w with
  | call m _ ih => exact tells_call ih m w
  | notify ne change _ ih => exact tells_notify_other ih ne change w
  | aside h => exact h.tells
  | bind _ _ hx hf => exact tells_bind_due (hx w) fun a w' => hf a w'

/-- When a behaviour has been changed, by whoever and however deep inside callbacks, each
observer of a property has heard of each change of it once. The property has the value of the
latest change, and of that the observer has heard before anything else since. After that it
hears only of earlier changes the news of which had not reached it, so if there were none the
last that it hears of is the value that the property has. -/
theorem told_of_all_changes {host : Host (Logged υ)}
    (h : ∀ callback change, k.Responds (host.notified callback change)) (m : Mutation)
    (w : World (Logged υ)) (stands : k.Stands w.stage) :
    ∃ answer w' l, (Script.call host k.behaviour m).run w = (.ok answer, w') ∧
      w'.user.log = w.user.log ++ l ∧ k.Stands w'.stage ∧
      (News.hearings (k.news l)).Perm (News.changes (k.news l)) ∧
      (News.changes (k.news l) = [] → k.value w'.stage = k.value w.stage) ∧
      ∀ before v after, k.news l = before ++ .changed v :: after → News.changes after = [] →
        k.value w'.stage = some v ∧ ∃ late, News.hearings after = v :: late ∧
          (News.hearings before).length + late.length = (News.changes before).length ∧
          (late = [] → (News.hearings (k.news l)).getLast? = k.value w'.stage) := by
  obtain ⟨answer, w', l, run, told⟩ :=
    tells_call (fun callback change w => (h callback change).tells w) m w stands
  refine ⟨answer, w', l, run, told.log, told.stands, by simpa using told.told.perm, ?_, ?_⟩
  · intro unchanged
    rw [told.value, unchanged]
    rfl
  · intro before v after split latest
    have value : k.value w'.stage = some v := by
      rw [told.value, split, News.changes_append, News.changes_cons_changed, latest]
      simp
    obtain ⟨late, heard, count⟩ := told.told.exists_late split latest
    refine ⟨value, late, heard, count, ?_⟩
    intro none
    rw [value, split, News.hearings_append, News.hearings_cons_changed, heard, none]
    simp

/-- A behaviour with two observers of its gravity. -/
def twoObservers : Stage :=
  (((Stage.empty true).addBehaviour (.scale default .center)).1.modifyNotifier ⟨0⟩
    (·.register (some ScaleProperty.gravity.name) 0)).modifyNotifier ⟨0⟩
      (·.register (some ScaleProperty.gravity.name) 1)

/-- The first observer turns the behaviour to the south when it hears of the north. -/
def turningBack : Host (Logged Unit) :=
  { Host.silent (Logged Unit) with
    notified := fun callback change =>
      if callback = 0 ∧ change.value = .gravity .north then do
        let _ ← Script.call (.silent _) ⟨0⟩ (.setGravity .south)
      else pure () }

/-- What is left when the behaviour was turned to the north. -/
def turned : World (Logged Unit) :=
  ((Script.call turningBack ⟨0⟩ (.setGravity .north)).run ⟨twoObservers, ⟨(), []⟩⟩).2

/-- One of the two observers. -/
def ofTwo (observer : Callback) : Watch := ⟨⟨0⟩, ⟨0⟩, observer, ScaleProperty.gravity.name⟩

theorem stands_twoObservers {observer : Callback} (h : observer = 0 ∨ observer = 1) :
    (ofTwo observer).Stands twoObservers where
  notifier := rfl
  once := by
    rcases h with rfl | rfl <;> decide +kernel
  nowhere_else n ne name := by
    have others : twoObservers.notifiers.get n = (Table.empty.push Notifier.empty).get n :=
      (Table.get_modify_of_ne _ _ ne.symm).trans (Table.get_modify_of_ne _ _ ne.symm)
    rw [others, Table.get_push]
    split <;> exact List.not_mem_nil

theorem responds_turningBack (observer : Callback) (callback : Callback) (change : Change) :
    (ofTwo observer).Responds (turningBack.notified callback change) := by
  have idle : (ofTwo observer).Responds (pure () : Script (Logged Unit) Unit) :=
    .aside fun w stands => ⟨(), w, rfl, stands, rfl, rfl⟩
  by_cases turns : callback = 0 ∧ change.value = .gravity .north
  · simp only [turningBack, if_pos turns]
    exact .bind (.call (.setGravity .south) fun _ _ => idle) fun _ => idle
  · simp only [turningBack, if_neg turns]
    exact idle

/-- The first observer has heard of the north when it makes the change to the south, and hears
of that last. -/
theorem told_of_all_changes_turningBack :
    (News.hearings ((ofTwo 0).news turned.user.log)).getLast? = (ofTwo 0).value turned.stage ∧
      (ofTwo 0).value turned.stage = some (.gravity .south) := by
  obtain ⟨answer, w', l, run, log, _, _, _, latest⟩ :=
    told_of_all_changes (responds_turningBack 0) (.setGravity .north)
      ⟨twoObservers, ⟨(), []⟩⟩ (stands_twoObservers (.inl rfl))
  obtain rfl : turned = w' := congrArg Prod.snd run
  obtain rfl : turned.user.log = l := log
  obtain ⟨value, late, heard, _, last⟩ :=
    latest [.changed (.gravity .north), .heard (.gravity .north)] (.gravity .south)
      [.heard (.gravity .south)] (by decide +kernel) rfl
  injection heard with _ heard
  exact ⟨last heard.symm, value⟩

/-- The news of the north is under way to the second observer when the behaviour is turned to
the south. It arrives last, and the observer is left with a value that is not the one that the
behaviour has. -/
theorem last_news_is_stale :
    (ofTwo 1).Stands twoObservers ∧
      (∀ callback change, (ofTwo 1).Responds (turningBack.notified callback change)) ∧
      (News.hearings ((ofTwo 1).news turned.user.log)).getLast? = some (.gravity .north) ∧
      (ofTwo 1).value turned.stage = some (.gravity .south) :=
  ⟨stands_twoObservers (.inr rfl), responds_turningBack 1, by decide +kernel, by decide +kernel⟩

end Watch

end Animation
