/-
# Deliveries within deliveries

Who hears of a change may register others, unregister them, and deliver changes in turn. What is
traced of a delivery is then told by recursion: the callbacks that hear the change when it is
delivered are called one after the other, and inside of each call registries change and further
deliveries are made from the first call to the last, each of them to those who hear it at its own
start.
-/

import Animation.Proofs.Observers.Enrolment
import Animation.Proofs.Script.Trace

namespace Animation

/-- The notifiers of a stage. -/
abbrev Notifiers : Type := Table .notifier Notifier

mutual

/-- What may be traced from some notifiers to what has become of them. -/
inductive Goes : Notifiers → List Mark → Notifiers → Prop
  | rest (t : Notifiers) : Goes t [] t
  | room (t : Notifiers) : Goes t [] (t.push .empty)
  | enter (t : Notifiers) (n : Ref .notifier) (e : Enrolment (Option String × Callback)) :
      Goes t [] (t.modify n (Notifier.registry.enter · e))
  | notify {t t' : Notifiers} {l : List Mark} {ended : Bool} (n : Ref .notifier) (change : Change)
      (h : Delivers change ((t.get n).hearing change.name) t l t' ended) : Goes t l t'
  | invoke {t t' : Notifiers} {l : List Mark} (i : Invocation)
      (other : ∀ callback change, i ≠ .notified callback change) (outcome : Option Returned)
      (h : Goes t l t') : Goes t (.enters i :: (l ++ [.leaves outcome])) t'
  | append {t t' t'' : Notifiers} {l l' : List Mark} (h : Goes t l t') (h' : Goes t' l' t'') :
      Goes t (l ++ l') t''

/-- What is traced of the delivery of a change to some callbacks. The delivery ends with the last of
them, or with one that breaks off. -/
inductive Delivers : Change → List Callback → Notifiers → List Mark → Notifiers → Bool → Prop
  | done (change : Change) (t : Notifiers) : Delivers change [] t [] t true
  | call {change : Change} {callback : Callback} {callbacks : List Callback}
      {t t' t'' : Notifiers} {l l' : List Mark} {ended : Bool} (outcome : Returned)
      (inner : Goes t l t') (rest : Delivers change callbacks t' l' t'' ended) :
      Delivers change (callback :: callbacks) t
        (.enters (.notified callback change) :: (l ++ .leaves (some outcome) :: l')) t'' ended
  | broken {change : Change} {callback : Callback} {callbacks : List Callback} {t t' : Notifiers}
      {l : List Mark} (inner : Goes t l t') :
      Delivers change (callback :: callbacks) t
        (.enters (.notified callback change) :: (l ++ [.leaves none])) t' false

end

mutual

theorem Goes.balanced {t t' : Notifiers} {l : List Mark} (h : Goes t l t') : Balanced l := by
  match h with
  | .rest _ | .room _ | .enter .. => exact .nil
  | .notify _ _ h => exact h.balanced
  | .invoke i _ outcome h => exact .call i h.balanced outcome
  | .append h h' => exact .append h.balanced h'.balanced
termination_by structural h

theorem Delivers.balanced {change : Change} {callbacks : List Callback} {t t' : Notifiers}
    {l : List Mark} {ended : Bool} (h : Delivers change callbacks t l t' ended) : Balanced l := by
  match h with
  | .done .. => exact .nil
  | @Delivers.call _ callback _ _ _ _ _ _ _ outcome inner rest =>
      have first := Balanced.call (.notified callback change) inner.balanced (some outcome)
      simpa using first.append rest.balanced
  | .broken inner => exact .call (.notified _ change) inner.balanced none
termination_by structural h

end

namespace Regime

open Script

variable {υ α : Type}

/-- What happens to notifiers is traced as deliveries within deliveries. -/
def dispatching (υ : Type) : Regime (Traced υ) where
  leads w w' :=
    ∃ l, w'.user.trace = w.user.trace ++ l ∧ Goes w.stage.notifiers l w'.stage.notifiers
  refl w := ⟨[], (List.append_nil _).symm, .rest _⟩
  trans := by
    rintro w w' w'' ⟨l, trace, goes⟩ ⟨l', trace', goes'⟩
    exact ⟨l ++ l', by rw [trace', trace, List.append_assoc], goes.append goes'⟩
  motion {w s} motion := by
    refine ⟨[], (List.append_nil _).symm, ?_⟩
    cases motion with
    | aside aside =>
        show Goes _ [] s.notifiers
        rw [aside.notifiers]
        exact .rest _
    | addNotifier => exact .room _
    | register n property callback => exact .enter _ n (.joins (property, callback))
    | unregister n id => exact .enter _ n (.leaves id)
    | addEmitter | registerHandler | unregisterHandler => exact .rest _

theorem lax_dispatching (m : Ref .emitter) : (dispatching υ).Lax m where
  hold _ _ := ⟨[], (List.append_nil _).symm, .rest _⟩
  mismatched _ _ := ⟨[], (List.append_nil _).symm, .rest _⟩
  unrun _ _ _ := ⟨[], (List.append_nil _).symm, .rest _⟩

theorem written_dispatching {w : World (Traced υ)} {u : Traced υ} (kept : keepsTrace w u) :
    (dispatching υ).leads w { w with user := u } :=
  ⟨[], by rw [List.append_nil]; exact kept, .rest _⟩

/-- What is traced of a call. -/
theorem dispatching_bracket {x : Script (Traced υ) α} (hx : (dispatching υ).Rules x)
    (i : Invocation) (answer : α → Nat) (w : World (Traced υ)) :
    ∃ r w' l, (bracket i answer x).run w = (r, w') ∧
      Goes w.stage.notifiers l w'.stage.notifiers ∧
        w'.user.trace = w.user.trace ++ .enters i ::
          (l ++ [.leaves (r.toOption.map fun a => ⟨answer a, w.stage.newTasks w'.stage⟩)]) := by
  obtain ⟨l, trace, goes⟩ := hx (w.mark (.enters i))
  exact ⟨_, _, l, run_bracket i answer x w, goes, trace_bracket i answer trace⟩

theorem rules_bracket {x : Script (Traced υ) α} (hx : (dispatching υ).Rules x) (i : Invocation)
    (other : ∀ callback change, i ≠ .notified callback change) (answer : α → Nat) :
    (dispatching υ).Rules (bracket i answer x) := by
  intro w
  obtain ⟨r, w', l, run, goes, trace⟩ := dispatching_bracket hx i answer w
  rw [run]
  exact ⟨_, trace, .invoke i other _ goes⟩

/-- A change is delivered to one callback after the other. -/
theorem delivers_forEach {host : Host (Traced υ)} {change : Change}
    (notified : ∀ callback, (dispatching υ).Rules (host.notified callback change))
    (callbacks : List Callback) (w : World (Traced υ)) :
    ∃ r w' l ended,
      (forEach (fun callback => host.traced.notified callback change) callbacks).run w = (r, w') ∧
        w'.user.trace = w.user.trace ++ l ∧
          Delivers change callbacks w.stage.notifiers l w'.stage.notifiers ended ∧
            (r = .ok () ↔ ended = true) := by
  induction callbacks generalizing w with
  | nil => exact ⟨_, w, [], true, rfl, (List.append_nil _).symm, .done .., by simp⟩
  | cons callback rest ih =>
      obtain ⟨r, w', l, run, goes, trace⟩ := dispatching_bracket (notified callback)
        (.notified callback change) (fun _ => 0) w
      have run : (host.traced.notified callback change).run w = (r, w') := run
      rw [run_forEach_cons, run_bind, run]
      cases r with
      | error fault => exact ⟨_, w', _, false, rfl, trace, .broken goes, by simp⟩
      | ok a =>
          obtain ⟨r, w'', l', ended, run, trace', delivers, outcome⟩ := ih w'
          refine ⟨r, w'', _, ended, run, ?_, .call ⟨0, w.stage.newTasks w'.stage⟩ goes delivers,
            outcome⟩
          rw [trace', trace]
          simp [Except.toOption]

theorem governs_dispatching {host : Host (Traced υ)} (h : (dispatching υ).Allows host) :
    (dispatching υ).Governs host.traced where
  notify n change w := by
    obtain ⟨r, w', l, ended, run, trace, delivers, -⟩ := delivers_forEach
      (fun callback => h.notified callback change)
      ((w.stage.notifiers.get n).hearing change.name)
      { w with stage := w.stage.note (.notified n change) }
    rw [run_notify, run]
    exact ⟨l, trace, .notify n change delivers⟩
  emit m := (lax_dispatching m).emit fun callback payload =>
    rules_bracket (h.called callback payload) (.called callback payload) (fun _ _ h => nomatch h) id
  driven callback alpha :=
    rules_bracket (h.driven callback alpha) (.driven callback alpha) (fun _ _ h => nomatch h) _
  ask := rules_ask (fun _ _ _ => ⟨[], (List.append_nil _).symm, .rest _⟩) fun a call =>
    rules_bracket (h.reacts a call) (.reacts a call) (fun _ _ h => nomatch h) _

end Regime

theorem Host.Traceable.dispatching {υ : Type} {host : Host (Traced υ)} (h : host.Traceable) :
    (Regime.dispatching υ).Allows host :=
  h.allowed Regime.governs_dispatching Regime.written_dispatching

/-- The callbacks of those who stand registered after a history and hear the changes of a property,
in the order of their registration. -/
def Notifier.audience (history : List (Enrolment (Option String × Callback))) (name : String) :
    List Callback :=
  (((Enrolment.standing 0 history).map registry.member).filter fun l =>
    decide (l.property = none ∨ l.property = some name)).map (·.callback)

theorem Notifier.hearing_after (history : List (Enrolment (Option String × Callback)))
    (name : String) : (registry.after history).hearing name = audience history name := by
  have hears : (fun l : Listener => l.hears name) =
      fun l => decide (l.property = none ∨ l.property = some name) := by
    funext l
    rcases property : l.property with _ | p <;>
      simp [Listener.hears, property, beq_eq_decide]
  have standing : (registry.after history).listeners = _ := registry.members_after history
  rw [hearing, standing, audience, ← hears]

namespace Stage

open Script

/-- Registrations with a notifier have a history on every stage that can be met, and the notifier
deals with their numbers as it should. To deliver a change is to call those who stand registered at
that time and hear it, one after the other, whatever they do with the library meanwhile; what they
register, unregister and deliver in turn happens inside of their calls. Nothing comes of a delivery
but that all have been called, unless one of them breaks off. -/
theorem Reachable.delivers_reentrantly {s : Stage} (reachable : s.Reachable) (n : Ref .notifier) :
    (∃ history, s.notifiers.get n = Notifier.registry.after history) ∧
    ∀ history, s.notifiers.get n = Notifier.registry.after history →
      Notifier.registry.Disciplined (s.notifiers.get n) history ∧
      ∀ {υ : Type} {host : Host (Traced υ)}, host.Traceable → ∀ change u, ∃ r w' l ended,
        (notify host.traced n change).run ⟨s, u⟩ = (r, w') ∧ w'.user.trace = u.trace ++ l ∧
          Delivers change (Notifier.audience history change.name) s.notifiers l w'.stage.notifiers
            ended ∧ (r = .ok () ↔ ended = true) := by
  refine ⟨reachable.enrolled.notifier n, fun history row => ⟨?_, fun traceable change u => ?_⟩⟩
  · rw [row]
    exact Notifier.registry.disciplined_after history
  · have allows := traceable.dispatching
    rw [run_notify, ← Notifier.hearing_after, ← row]
    exact Regime.delivers_forEach (fun callback => allows.notified callback change) _ _

/-- Four listeners register: to everything, to one property, to another one, and to the first one
again. -/
def enlisting : Script Unit Unit := do
  let _ ← owning [] (produce (·.addNotifier))
  let _ ← owning [] (change (·.modifyNotifier ⟨0⟩ (·.register none 10)))
  let _ ← owning [] (change (·.modifyNotifier ⟨0⟩ (·.register (some "x") 11)))
  let _ ← owning [] (change (·.modifyNotifier ⟨0⟩ (·.register (some "y") 12)))
  let _ ← owning [] (change (·.modifyNotifier ⟨0⟩ (·.register (some "x") 13)))

/-- What is left when all have registered. -/
def enlisted : Stage := (enlisting.run ⟨.empty true, ()⟩).2.stage

theorem reachable_enlisted : enlisted.Reachable := by
  unfold enlisted
  exact Arises.reachable (@Arises.course _ (fun _ => []) _ _ _ (.opening true rfl)
    (.bind (.offered .addNotifier) fun _ =>
      .bind (.offered (.register ⟨0⟩ none 10)) fun _ =>
        .bind (.offered (.register ⟨0⟩ (some "x") 11)) fun _ =>
          .bind (.offered (.register ⟨0⟩ (some "y") 12)) fun _ =>
            .bind (.offered (.register ⟨0⟩ (some "x") 13)) fun _ => .pure ()))

/-- The first listener, when it hears of the one property, registers one more listener to it, has
the last one unregistered, and delivers a change of the other property. -/
def meddling : Host (Traced Unit) :=
  { Host.silent (Traced Unit) with
    notified := fun callback news =>
      if callback = 10 ∧ news.name = "x" then do
        let _ ← owning [] (change (·.modifyNotifier ⟨0⟩ (·.register (some "x") 14)))
        let _ ← owning [] (change (·.modifyNotifier ⟨0⟩ (·.unregister 3)))
        let _ ← owning [] (notify (Host.silent (Traced Unit)).traced ⟨0⟩ ⟨"y", .null⟩)
      else pure () }

theorem traceable_meddling : meddling.Traceable where
  notified callback news := by
    show Practice Host.traced keepsTrace (if callback = 10 ∧ news.name = "x" then _ else _)
    split
    · exact .bind (.offered (.register ⟨0⟩ (some "x") 14)) fun _ =>
        .bind (.offered (.unregister ⟨0⟩ 3)) fun _ =>
          .bind (.offered (.notify ⟨0⟩ ⟨"y", .null⟩)) fun _ => .pure ()
    · exact .pure ()
  called _ _ := .pure 0
  driven _ _ := .pure ()
  reacts _ _ := .pure ()

/-- The listener that was registered meanwhile hears nothing yet, the one that was unregistered
still does, and those to the other property hear of it inside of the first call. -/
theorem delivers_reentrantly_meddling : ∃ w' l,
    (notify meddling.traced ⟨0⟩ ⟨"x", .null⟩).run ⟨enlisted, ⟨(), []⟩⟩ = (.ok (), w') ∧
      Delivers ⟨"x", .null⟩ [10, 11, 13] enlisted.notifiers l w'.stage.notifiers true ∧
      l = [.enters (.notified 10 ⟨"x", .null⟩),
        .enters (.notified 10 ⟨"y", .null⟩), .leaves (some ⟨0, []⟩),
        .enters (.notified 12 ⟨"y", .null⟩), .leaves (some ⟨0, []⟩), .leaves (some ⟨0, []⟩),
        .enters (.notified 11 ⟨"x", .null⟩), .leaves (some ⟨0, []⟩),
        .enters (.notified 13 ⟨"x", .null⟩), .leaves (some ⟨0, []⟩)] ∧
      (w'.stage.notifiers.get ⟨0⟩).listeners =
        [⟨0, none, 10⟩, ⟨1, some "x", 11⟩, ⟨2, some "y", 12⟩, ⟨4, some "x", 14⟩] := by
  obtain ⟨-, follows⟩ := reachable_enlisted.delivers_reentrantly ⟨0⟩
  obtain ⟨-, delivers⟩ := follows [.joins (none, 10), .joins (some "x", 11),
    .joins (some "y", 12), .joins (some "x", 13)] rfl
  obtain ⟨r, w', l, ended, run, trace, delivers, outcome⟩ :=
    delivers traceable_meddling ⟨"x", .null⟩ ⟨(), []⟩
  have finished : ((notify meddling.traced ⟨0⟩ ⟨"x", .null⟩).run ⟨enlisted, ⟨(), []⟩⟩).1 =
      .ok () := by
    decide +kernel
  have traced : l = ((notify meddling.traced ⟨0⟩ ⟨"x", .null⟩).run
      ⟨enlisted, ⟨(), []⟩⟩).2.user.trace := by
    rw [run]
    exact trace.symm
  have left : (((notify meddling.traced ⟨0⟩ ⟨"x", .null⟩).run
      ⟨enlisted, ⟨(), []⟩⟩).2.stage.notifiers.get ⟨0⟩).listeners =
        [⟨0, none, 10⟩, ⟨1, some "x", 11⟩, ⟨2, some "y", 12⟩, ⟨4, some "x", 14⟩] := by
    decide +kernel
  have heard : Notifier.audience [.joins (none, 10), .joins (some "x", 11),
      .joins (some "y", 12), .joins (some "x", 13)] "x" = [10, 11, 13] := by
    decide +kernel
  rw [run] at finished left
  rw [outcome.1 finished, heard] at delivers
  exact ⟨w', l, finished ▸ run, delivers, traced.trans (by decide +kernel), left⟩

end Stage

end Animation
