/-
# Asking actors

A behaviour that is driven asks the same of each of its actors: of those that are there when the
driving begins, in the order in which they were applied. What it asks is made out once, and it does
not matter to it what actors make of the behaviour when they react, or of its actors.

Actors do what they are asked and nothing else, and all that they are asked is traced. So a trace
also tells what has become of each actor, up to the handles on it.
-/

import Animation.Proofs.Behaviours.InRange
import Animation.Proofs.Behaviours.Roster
import Animation.Proofs.Script.Trace

namespace Animation

/-- What a call asks of an actor, if it asks something of it. -/
def Invocation.callOn? (a : Ref .actor) : Invocation → Option ActorCall
  | .reacts x call => if x = a then some call else none
  | .notified .. | .called .. | .driven .. => none

/-- What is asked of an actor at a mark. -/
def Mark.callOn? (a : Ref .actor) : Mark → Option ActorCall
  | .enters i => i.callOn? a
  | .leaves _ => none

/-- All that an actor is asked in a trace, in the order in which it is asked. -/
def callsOn (a : Ref .actor) (l : List Mark) : List ActorCall := l.filterMap (·.callOn? a)

theorem callsOn_append (a : Ref .actor) (l l' : List Mark) :
    callsOn a (l ++ l') = callsOn a l ++ callsOn a l' := List.filterMap_append

theorem callsOn_enters (a : Ref .actor) (i : Invocation) (l : List Mark) :
    callsOn a (.enters i :: l) = (i.callOn? a).toList ++ callsOn a l := by
  cases asked : i.callOn? a <;> simp [callsOn, Mark.callOn?, asked]

theorem callsOn_leaves (a : Ref .actor) (outcome : Option Returned) (l : List Mark) :
    callsOn a (.leaves outcome :: l) = callsOn a l := rfl

/-- All calls of a list, put to each actor of another list. -/
def callsTo (actors : List (Ref .actor)) (calls : List ActorCall) : List Invocation :=
  actors.flatMap fun a => calls.map (.reacts a)

/-- Every actor of the list is asked once what all of them are asked. -/
theorem filterMap_callsTo {actors : List (Ref .actor)} (nodup : actors.Nodup)
    (calls : List ActorCall) (a : Ref .actor) :
    (callsTo actors calls).filterMap (·.callOn? a) = if a ∈ actors then calls else [] := by
  have own : ∀ x, (calls.map (Invocation.reacts x)).filterMap (·.callOn? a) =
      if x = a then calls else [] := by
    intro x
    rw [List.filterMap_map]
    split
    · next same => simp [Invocation.callOn?, same]
    · next ne => simp [Function.comp_def, Invocation.callOn?, ne]
  induction actors with
  | nil => rfl
  | cons x rest ih =>
      obtain ⟨fresh, nodup⟩ := List.nodup_cons.1 nodup
      have all : callsTo (x :: rest) calls = calls.map (.reacts x) ++ callsTo rest calls :=
        List.flatMap_cons
      rw [all, List.filterMap_append, own, ih nodup]
      by_cases same : x = a
      · subst same
        simp [fresh]
      · simp [same, Ne.symm same]

/-- Some calls are made one after the other, and an actor is asked nothing inside of them. -/
def Spared (a : Ref .actor) (is : List Invocation) (l : List Mark) (ended : Bool) : Prop :=
  ∃ outcomes, Carries (fun inner => callsOn a inner = []) is l outcomes ended

/-- An actor that is spared is asked what the calls themselves ask of it, up to the one that breaks
off. -/
theorem Spared.callsOn_eq {a : Ref .actor} {is : List Invocation} {l : List Mark} {ended : Bool}
    (h : Spared a is l ended) :
    ∃ rest, is.filterMap (·.callOn? a) = callsOn a l ++ rest ∧ (ended = true → rest = []) := by
  have first : ∀ (i : Invocation) is, (i :: is).filterMap (·.callOn? a) =
      (i.callOn? a).toList ++ is.filterMap (·.callOn? a) := by
    intro i is
    cases asked : i.callOn? a <;> simp [asked]
  -- What stands inside of the calls counts for nothing, so that each call counts for itself.
  obtain ⟨outcomes, carries⟩ := h
  induction carries with
  | done => exact ⟨[], rfl, fun _ => rfl⟩
  | next quiet _ ih =>
      obtain ⟨rest, asked, all⟩ := ih
      refine ⟨rest, ?_, all⟩
      rw [first, asked, callsOn_enters, callsOn_append, quiet, callsOn_leaves, List.nil_append,
        List.append_assoc]
  | @broken i is l quiet =>
      refine ⟨is.filterMap (·.callOn? a), ?_, nofun⟩
      rw [first, callsOn_enters, callsOn_append, quiet, callsOn_leaves]
      exact congrArg (· ++ _) (List.append_nil _).symm

/-- What a behaviour that scales asks of an actor: to be scaled, and right before to be anchored by
its gravity, if it has one. -/
def Gravity.scaling (gravity : Gravity) (x y : Double) : List ActorCall :=
  if gravity = .none then [.setScale x y] else [.anchorBy gravity, .setScale x y]

namespace Actor

variable {row row' row'' : Actor}

/-- An actor has done what it was asked, and nothing else has become of it but that there are more
or fewer handles on it. -/
def Does (calls : List ActorCall) (row row' : Actor) : Prop :=
  ∃ n, row' = { calls.foldl receive row with holders := n }

theorem receive_holders (row : Actor) (n : Nat) (call : ActorCall) :
    ({ row with holders := n } : Actor).receive call =
      { row.receive call with holders := n } := by
  cases call with
  | setAnchor x y => by_cases h : row.isRecording <;> simp [receive, setAnchor, record, h]
  | anchorBy gravity =>
      rcases point : gravity.anchorPoint row.size.1 row.size.2 with _ | ⟨x, y⟩
      · simp [receive, point]
      · by_cases h : row.isRecording <;> simp [receive, point, setAnchor, record, h]
  | setScale x y => by_cases h : row.isRecording <;> simp [receive, setScale, record, h]
  | setOpacity value => by_cases h : row.isRecording <;> simp [receive, setOpacity, record, h]

theorem foldl_receive_holders (calls : List ActorCall) (row : Actor) (n : Nat) :
    calls.foldl receive { row with holders := n } =
      { calls.foldl receive row with holders := n } := by
  induction calls generalizing row with
  | nil => rfl
  | cons call rest ih => rw [List.foldl_cons, receive_holders, ih, List.foldl_cons]

theorem Does.trans {calls calls' : List ActorCall} (h : Does calls row row')
    (h' : Does calls' row' row'') : Does (calls ++ calls') row row'' := by
  obtain ⟨n, rfl⟩ := h
  obtain ⟨n', rfl⟩ := h'
  exact ⟨n', by rw [List.foldl_append, foldl_receive_holders]⟩

/-- What becomes of a recording actor that is anchored by a gravity, if there is one, and scaled. -/
def scaled (row : Actor) (gravity : Gravity) (x y : Double) : Actor :=
  { row with
    anchor := (gravity.anchorPoint row.size.1 row.size.2).getD row.anchor
    scale := (x, y)
    anchorCalls := row.anchorCalls + if gravity = .none then 0 else 1
    scaleCalls := row.scaleCalls + 1
    history := row.history ++ if gravity = .none then ["scale"] else ["anchor", "scale"] }

theorem foldl_receive_scaling (recording : row.isRecording = true) (gravity : Gravity)
    (x y : Double) : (gravity.scaling x y).foldl receive row = row.scaled gravity x y := by
  cases gravity <;>
    simp [Gravity.scaling, receive, setAnchor, setScale, record, scaled, recording,
      Gravity.anchorPoint]

theorem Does.scaled {gravity : Gravity} {x y : Double}
    (h : Does (gravity.scaling x y) row row') (recording : row.isRecording = true) :
    ∃ n, row' = { row.scaled gravity x y with holders := n } := by
  obtain ⟨n, rfl⟩ := h
  exact ⟨n, by rw [foldl_receive_scaling recording]⟩

/-- A recording actor takes an opacity. -/
theorem Does.faded {value : UInt8} (h : Does [.setOpacity value] row row')
    (recording : row.isRecording = true) :
    ∃ n, row' = { row with
      opacity := value, history := row.history ++ ["opacity"], holders := n } := by
  obtain ⟨n, rfl⟩ := h
  exact ⟨n, by simp [receive, setOpacity, record, recording]⟩

end Actor

namespace Stage

variable {s s' s'' : Stage} {l l' : List Mark}

/-- From one stage to a later one actors may come, and each of those that are there has done what
it was asked in a trace. -/
structure Complies (l : List Mark) (s s' : Stage) : Prop where
  size : s.actors.size ≤ s'.actors.size
  actor : ∀ a, a.index < s.actors.size →
    Actor.Does (callsOn a l) (s.actors.get a) (s'.actors.get a)

namespace Complies

/-- Nobody is asked anything. -/
theorem of_unasked (h : s.Unasked s') (none : ∀ a, callsOn a l = []) : s.Complies l s' where
  size := h.size
  actor a made := by
    obtain ⟨n, row⟩ := h.actor a made
    exact ⟨n, by rw [none, row]; rfl⟩

theorem trans (h : s.Complies l s') (h' : s'.Complies l' s'') : s.Complies (l ++ l') s'' where
  size := Nat.le_trans h.size h'.size
  actor a made := by
    rw [callsOn_append]
    exact (h.actor a made).trans (h'.actor a (Nat.lt_of_lt_of_le made h.size))

/-- One actor does what it is asked. -/
theorem ask (s : Stage) (a : Ref .actor) (call : ActorCall) :
    s.Complies [.enters (.reacts a call)] (s.modifyActor a (·.receive call)) where
  size := Table.size_le_size_modify ..
  actor x _ := by
    show Actor.Does _ _ ((s.actors.modify a _).get x)
    rw [Table.get_modify, callsOn_enters]
    by_cases same : a = x
    · subst same
      rw [if_pos rfl, Invocation.callOn?, if_pos rfl]
      exact ⟨_, rfl⟩
    · rw [if_neg same, Invocation.callOn?, if_neg same]
      exact ⟨_, rfl⟩

/-- What happens inside of a call comes after what its beginning stands for. -/
theorem within {i : Invocation} (first : s.Complies [.enters i] s') (h : s'.Complies l s'')
    (outcome : Option Returned) : s.Complies (.enters i :: (l ++ [.leaves outcome])) s'' :=
  first.trans (h.trans (.of_unasked (.refl _) fun _ => rfl))

end Complies

end Stage

namespace Regime

open Script

variable {υ α : Type}

/-- What becomes of actors is traced. -/
def complying (υ : Type) : Regime (Traced υ) where
  leads w w' := ∃ l, w'.user.trace = w.user.trace ++ l ∧ Balanced l ∧ w.stage.Complies l w'.stage
  refl w := ⟨[], (List.append_nil _).symm, .nil, .of_unasked (.refl _) fun _ => rfl⟩
  trans := by
    rintro w w' w'' ⟨l, trace, balanced, complies⟩ ⟨l', trace', balanced', complies'⟩
    exact ⟨l ++ l', by rw [trace', trace, List.append_assoc], balanced.append balanced',
      complies.trans complies'⟩
  motion motion := by
    refine ⟨[], (List.append_nil _).symm, .nil, .of_unasked ?_ fun _ => rfl⟩
    cases motion with
    | aside aside => exact aside.toUnasked
    | addNotifier | register | unregister | addEmitter | registerHandler | unregisterHandler =>
        exact .of_eq rfl

/-- Changes that leave actors alone, and the trace. -/
theorem complying_of_unasked {w : World (Traced υ)} {s : Stage} (h : w.stage.Unasked s) :
    (complying υ).leads w { w with stage := s } :=
  ⟨[], (List.append_nil _).symm, .nil, .of_unasked h fun _ => rfl⟩

theorem lax_complying (m : Ref .emitter) : (complying υ).Lax m where
  hold _ _ := complying_of_unasked (.of_eq rfl)
  mismatched _ _ := complying_of_unasked (.of_eq rfl)
  unrun _ _ _ := complying_of_unasked (.of_eq rfl)

/-- A call of somebody who is no actor. -/
theorem rules_bracket_complying {x : Script (Traced υ) α} (hx : (complying υ).Rules x)
    {i : Invocation} (other : ∀ a, i.callOn? a = none) (answer : α → Nat) :
    (complying υ).Rules (bracket i answer x) := by
  intro w
  obtain ⟨l, trace, balanced, complies⟩ := hx (w.mark (.enters i))
  have begins : w.stage.Complies [.enters i] w.stage :=
    .of_unasked (.refl _) fun a => by rw [callsOn_enters, other]; rfl
  exact ⟨_, trace_bracket i answer trace, .call i balanced _, begins.within complies _⟩

theorem governs_complying {host : Host (Traced υ)} (h : (complying υ).Allows host) :
    (complying υ).Governs host.traced where
  notify := rules_notify fun callback change =>
    rules_bracket_complying (h.notified callback change) (fun _ => rfl) _
  emit m := (lax_complying m).emit fun callback payload =>
    rules_bracket_complying (h.called callback payload) (fun _ => rfl) id
  driven callback alpha := rules_bracket_complying (h.driven callback alpha) (fun _ => rfl) _
  ask a call w := by
    obtain ⟨l, trace, balanced, complies⟩ := h.reacts a call
      (World.mark { w with stage := w.stage.modifyActor a (·.receive call) }
        (.enters (.reacts a call)))
    exact ⟨_, trace_bracket (.reacts a call) (fun _ => 0) trace, .call _ balanced _,
      .within (.ask w.stage a call) complies _⟩

end Regime

theorem Host.Traceable.complying {υ : Type} {host : Host (Traced υ)} (h : host.Traceable) :
    (Regime.complying υ).Allows host :=
  h.allowed Regime.governs_complying fun kept =>
    ⟨[], by rw [List.append_nil]; exact kept, .nil, .of_unasked (.refl _) fun _ => rfl⟩

namespace Script

variable {υ : Type} {is js : List Invocation} {x y : Script (Traced υ) Unit}
  {w : World (Traced υ)}

/-- Some calls are made one after the other. Nothing comes of it but that all have been made, unless
one of them breaks off. -/
def MakesCalls (is : List Invocation) (x : Script (Traced υ) Unit) (w : World (Traced υ)) : Prop :=
  ∃ r w' l outcomes ended, x.run w = (r, w') ∧ w'.user.trace = w.user.trace ++ l ∧
    Carries Balanced is l outcomes ended ∧ (r = .ok () ↔ ended = true)

theorem makesCalls_pure (w : World (Traced υ)) : MakesCalls [] (pure ()) w :=
  ⟨_, w, [], [], true, rfl, (List.append_nil _).symm, .done, by simp⟩

theorem makesCalls_bind (hx : MakesCalls is x w) (hy : ∀ w', MakesCalls js y w') :
    MakesCalls (is ++ js) (x >>= fun _ => y) w := by
  obtain ⟨r, w', l, outcomes, ended, run, trace, carries, outcome⟩ := hx
  cases r with
  | error fault =>
      have broken : ended = false := by simpa using outcome
      refine ⟨.error fault, w', l, outcomes, ended, ?_, trace, carries.stop broken, outcome⟩
      rw [run_bind, run]
  | ok a =>
      obtain ⟨r, w'', l', outcomes', ended', run', trace', carries', outcome'⟩ := hy w'
      refine ⟨r, w'', l ++ l', outcomes ++ outcomes', ended', ?_, ?_,
        carries.append (outcome.1 rfl) carries', outcome'⟩
      · rw [run_bind_of_ok run, run']
      · rw [trace', trace, List.append_assoc]

theorem makesCalls_forEach {β : Type} {visit : β → Script (Traced υ) Unit} {f : β → Invocation}
    (h : ∀ b w, MakesCalls [f b] (visit b) w) (list : List β) (w : World (Traced υ)) :
    MakesCalls (list.map f) (forEach visit list) w := by
  induction list generalizing w with
  | nil => exact makesCalls_pure w
  | cons b rest ih => exact makesCalls_bind (h b w) ih

theorem run_escort_of_ok {visit : Ref .actor → Script (Traced υ) Unit} {a : Ref .actor}
    {w' : World (Traced υ)} (run : (visit a).run w = (.ok (), w')) (rest : List (Ref .actor)) :
    (escort visit (a :: rest)).run w =
      (escort visit rest).run { w' with stage := w'.stage.release (.actor a) } := by
  have tidied : ((visit a).thenTidy (·.release (.actor a))).run w =
      (.ok (), { w' with stage := w'.stage.release (.actor a) }) := by
    simp [run]
  exact run_bind_of_ok (run_attempt_of_ok tidied) _

/-- After a visit that breaks off there are no more visits, but the handles are given up. -/
theorem run_escort_of_error {visit : Ref .actor → Script (Traced υ) Unit} {a : Ref .actor}
    {w' : World (Traced υ)} {fault : Fault} (run : (visit a).run w = (.error fault, w'))
    (rest : List (Ref .actor)) :
    ∃ s, (escort visit (a :: rest)).run w = (.error fault, { w' with stage := s }) := by
  have tidied : ((visit a).thenTidy (·.release (.actor a))).run w =
      (.error fault, { w' with stage := w'.stage.release (.actor a) }) := by
    simp [run]
  cases fault with
  | violation cause => exact ⟨_, run_bind_of_ok (run_attempt_of_violation tidied) _⟩
  | stuck =>
      refine ⟨w'.stage.release (.actor a), ?_⟩
      unfold escort
      rw [run_bind, attempt, ExceptT.run_mk, tidied]

/-- Whatever is asked of the actors that are visited, the visits come one after the other. -/
theorem makesCalls_escort {visit : Ref .actor → Script (Traced υ) Unit}
    {f : Ref .actor → List Invocation} (h : ∀ a w, MakesCalls (f a) (visit a) w)
    (actors : List (Ref .actor)) (w : World (Traced υ)) :
    MakesCalls (actors.flatMap f) (escort visit actors) w := by
  induction actors generalizing w with
  | nil => exact makesCalls_pure w
  | cons a rest ih =>
      obtain ⟨r, w', l, outcomes, ended, run, trace, carries, outcome⟩ := h a w
      cases r with
      | error fault =>
          have broken : ended = false := by simpa using outcome
          obtain ⟨s, run⟩ := run_escort_of_error run rest
          exact ⟨.error fault, _, l, outcomes, ended, run, trace, carries.stop broken, outcome⟩
      | ok _ =>
          obtain ⟨r, w'', l', outcomes', ended', run', trace', carries', outcome'⟩ :=
            ih { w' with stage := w'.stage.release (.actor a) }
          refine ⟨r, w'', l ++ l', outcomes ++ outcomes', ended',
            (run_escort_of_ok run rest).trans run', ?_, carries.append (outcome.1 rfl) carries',
            outcome'⟩
          rw [trace', trace, List.append_assoc]

theorem makesCalls_forEachActor {visit : Ref .actor → Script (Traced υ) Unit}
    {f : Ref .actor → List Invocation} (h : ∀ a w, MakesCalls (f a) (visit a) w) (c : Ref .core)
    (w : World (Traced υ)) :
    MakesCalls ((w.stage.actorsOf c).flatMap f) (forEachActor c visit) w :=
  makesCalls_escort h _ { w with stage := _ }

/-- A reaction is called, and whatever it does happens inside of the call. -/
theorem makesCalls_ask {host : Host (Traced υ)} (traceable : host.Traceable) (a : Ref .actor)
    (call : ActorCall) (w : World (Traced υ)) :
    MakesCalls [.reacts a call] (ask host.traced a call) w := by
  obtain ⟨l, inner, balanced, -⟩ := traceable.complying.reacts a call
    (World.mark { w with stage := w.stage.modifyActor a (·.receive call) }
      (.enters (.reacts a call)))
  have trace := trace_bracket (.reacts a call) (fun _ => 0) inner
  rcases run : (bracket (.reacts a call) (fun _ => 0) (host.reacts a call)).run
    { w with stage := w.stage.modifyActor a (·.receive call) } with ⟨r, w'⟩
  rw [run] at trace
  cases r with
  | error fault => exact ⟨_, w', _, [], false, run, trace, .broken balanced, by simp⟩
  | ok _ => exact ⟨_, w', _, _, true, run, trace, .next balanced .done, by simp⟩

/-! ## What a behaviour asks -/

/-- Each of some actors is asked the same, from one world to a later one, and does it. -/
structure AsksAll (actors : List (Ref .actor)) (calls : List ActorCall) (w w' : World (Traced υ))
    (l : List Mark) (ended : Bool) : Prop where
  trace : w'.user.trace = w.user.trace ++ l
  carries : ∃ outcomes, Carries Balanced (callsTo actors calls) l outcomes ended
  /-- Whoever was there has done all that was asked of it, by whomever, and nothing else. -/
  complies : w.stage.Complies l w'.stage
  /-- Those who are spared otherwise have done what all are asked, once all have been. -/
  once : ∀ a ∈ actors, Spared a (callsTo actors calls) l ended → ended = true →
    Actor.Does calls (w.stage.actors.get a) (w'.stage.actors.get a)
  /-- Others who are spared are as they were. -/
  others : ∀ a ∉ actors, a.index < w.stage.actors.size →
    Spared a (callsTo actors calls) l ended →
      Actor.Does [] (w.stage.actors.get a) (w'.stage.actors.get a)

/-- The actors of a core are asked the same, one after the other. -/
theorem asksAll_forEachActor {host : Host (Traced υ)} (traceable : host.Traceable) (c : Ref .core)
    (calls : List ActorCall) (w : World (Traced υ)) (nodup : (w.stage.actorsOf c).Nodup) :
    ∃ r w' l ended,
      (forEachActor c fun a => forEach (ask host.traced a) calls).run w = (r, w') ∧
        (r = .ok () ↔ ended = true) ∧
          AsksAll (w.stage.actorsOf c) calls w w' l ended := by
  obtain ⟨r, w', l, outcomes, ended, run, trace, carries, outcome⟩ := makesCalls_forEachActor
    (fun a => makesCalls_forEach (makesCalls_ask traceable a) calls) c w
  obtain ⟨l', trace', -, complies⟩ := Regime.rules_forEachActor (fun a => Regime.rules_forEach
    (fun call => (Regime.governs_complying traceable.complying).ask a call) calls) c w
  rw [run] at trace' complies
  -- Both tell what the trace has grown by, so they speak of the same marks.
  obtain rfl := List.append_cancel_left (trace.symm.trans trace')
  refine ⟨r, w', l, ended, run, outcome, trace, ⟨outcomes, carries⟩, complies, ?_, ?_⟩
  · intro a mem quiet all
    obtain ⟨rest, asked, none⟩ := quiet.callsOn_eq
    rw [none all, List.append_nil, filterMap_callsTo nodup, if_pos mem] at asked
    rw [asked]
    exact complies.actor a (Stage.actor_made (List.mem_filter.1 mem).2)
  · intro a absent made quiet
    obtain ⟨rest, asked, -⟩ := quiet.callsOn_eq
    rw [filterMap_callsTo nodup, if_neg absent] at asked
    have none := (List.append_eq_nil_iff.1 asked.symm).1
    exact none ▸ complies.actor a made

theorem askScale_eq (host : Host υ) (a : Ref .actor) (gravity : Gravity) (x y : Double) :
    askScale host a gravity x y = forEach (ask host a) (gravity.scaling x y) := by
  unfold askScale Gravity.scaling
  by_cases none : gravity = .none
  · simp [none, forEach]
  · simp [none, forEach]

theorem ask_eq (host : Host υ) (a : Ref .actor) (call : ActorCall) :
    ask host a call = forEach (ask host a) [call] := by
  simp [forEach]

/-- Beyond the last alpha nothing can be made out. -/
theorem run_drive_of_beyond (host : Host υ) {b : Ref .behaviour} {alpha : Nat}
    (gt : alphaMax < alpha) {w : World υ}
    (samples : ∀ callback, (w.stage.behaviours.get b).drive ≠ .custom callback) :
    (drive host b alpha).run w = (.error (.violation (.alphaOutOfRange alpha)), w) := by
  have refused : checkAlpha alpha = .error (.alphaOutOfRange alpha) := if_neg (Nat.not_le.2 gt)
  unfold drive
  rw [run_stage_bind]
  dsimp only
  cases drives : (w.stage.behaviours.get b).drive with
  | scale bounds gravity =>
      have none : bounds.sample alpha = .error (.alphaOutOfRange alpha) := by
        unfold ScaleBounds.sample
        rw [refused]
        rfl
      exact run_check_error_bind none _ w
  | opacity bounds =>
      have none : bounds.sampleOpacity alpha = .error (.alphaOutOfRange alpha) := by
        unfold Range.sampleOpacity
        rw [refused]
        rfl
      exact run_check_error_bind none _ w
  | custom callback => exact absurd drives (samples callback)

end Script

namespace Stage

open Script

variable {υ : Type}

/-- Driven to an alpha, a behaviour puts the same calls to each of the actors that it has at that
time. Nothing comes of it but that all have been asked, unless a reaction breaks off. It is told
what becomes of recording actors that are spared otherwise. -/
def FansOut (s : Stage) (b : Ref .behaviour) (host : Host (Traced υ)) (alpha : Nat) (u : Traced υ)
    (calls : List ActorCall) (becomes : Actor → Actor) : Prop :=
  ∃ r w' l ended, (drive host.traced b alpha).run ⟨s, u⟩ = (r, w') ∧
    (r = .ok () ↔ ended = true) ∧
      AsksAll (s.actorsOf (s.coreOf b)) calls ⟨s, u⟩ w' l ended ∧
        ∀ a ∈ s.actorsOf (s.coreOf b), (s.actors.get a).isRecording = true →
          Spared a (callsTo (s.actorsOf (s.coreOf b)) calls) l ended → ended = true →
            ∃ n, w'.stage.actors.get a = { becomes (s.actors.get a) with holders := n }

/-- Driving is asking the actors of the core. -/
theorem fansOut {s : Stage} {b : Ref .behaviour} {host : Host (Traced υ)}
    (traceable : host.Traceable) {alpha : Nat} {u : Traced υ} {calls : List ActorCall}
    {becomes : Actor → Actor} (nodup : (s.actorsOf (s.coreOf b)).Nodup)
    (drives : (drive host.traced b alpha).run ⟨s, u⟩ =
      (forEachActor (s.coreOf b) fun a => forEach (ask host.traced a) calls).run ⟨s, u⟩)
    (recorded : ∀ {row row' : Actor}, Actor.Does calls row row' → row.isRecording = true →
      ∃ n, row' = { becomes row with holders := n }) :
    s.FansOut b host alpha u calls becomes := by
  obtain ⟨r, w', l, ended, run, outcome, asks⟩ :=
    asksAll_forEachActor traceable (s.coreOf b) calls ⟨s, u⟩ nodup
  exact ⟨r, w', l, ended, drives.trans run, outcome, asks,
    fun a mem recording spared all => recorded (asks.once a mem spared all) recording⟩

/-- A behaviour that scales or fades its actors can be driven to every alpha up to the last one, and
beyond it nothing is touched. It has different actors. What it asks of them is made out from what it
is when the driving begins, whatever reactions make of it: each of them is anchored by its gravity,
if it has one, and right after that scaled, or given an opacity. Nobody else is asked anything, but
by those who react. -/
theorem Reachable.asks_actors {s : Stage} (reachable : s.Reachable) (b : Ref .behaviour)
    {host : Host (Traced υ)} (traceable : host.Traceable) (alpha : Nat) (u : Traced υ) :
    (s.actorsOf (s.coreOf b)).Nodup ∧
    (∀ bounds gravity, (s.behaviours.get b).drive = .scale bounds gravity →
      (alphaMax < alpha → (drive host.traced b alpha).run ⟨s, u⟩ =
        (.error (.violation (.alphaOutOfRange alpha)), ⟨s, u⟩)) ∧
      (alpha ≤ alphaMax → ∃ x y, bounds.sample alpha = .ok (x, y) ∧
        s.FansOut b host alpha u (gravity.scaling x.toDouble y.toDouble) fun row =>
          row.scaled gravity x.toDouble y.toDouble)) ∧
    (∀ bounds, (s.behaviours.get b).drive = .opacity bounds →
      (alphaMax < alpha → (drive host.traced b alpha).run ⟨s, u⟩ =
        (.error (.violation (.alphaOutOfRange alpha)), ⟨s, u⟩)) ∧
      (alpha ≤ alphaMax → ∃ value, bounds.sampleOpacity alpha = .ok value ∧
        s.FansOut b host alpha u [.setOpacity value] fun row =>
          { row with opacity := value, history := row.history ++ ["opacity"] })) := by
  have nodup := reachable.nodup_actorsOf (s.coreOf b)
  refine ⟨nodup, fun bounds gravity drives => ⟨fun gt => ?_, fun le => ?_⟩,
    fun bounds drives => ⟨fun gt => ?_, fun le => ?_⟩⟩
  · exact run_drive_of_beyond _ gt fun callback same => nomatch drives.symm.trans same
  · have accepted := ScaleBounds.accepted_of_toBounds (reachable.checked b bounds gravity drives)
    have sample := accepted.sample_eq le
    have drives := run_drive_of_scale host.traced (w := ⟨s, u⟩) drives sample
    simp only [askScale_eq] at drives
    exact ⟨_, _, sample, fansOut traceable nodup drives Actor.Does.scaled⟩
  · exact run_drive_of_beyond _ gt fun callback same => nomatch drives.symm.trans same
  · obtain ⟨value, sample⟩ := bounds.exists_sampleOpacity le
    have drives := run_drive_of_opacity host.traced (w := ⟨s, u⟩) drives sample
    simp only [ask_eq] at drives
    exact ⟨value, sample, fansOut traceable nodup drives Actor.Does.faded⟩

/-- A behaviour scales its actors up to twice their size, around their south east. It is given the
second one of three actors, and then the first one. -/
def staffing : Script Unit Unit := do
  let _ ← owning [] (makeScale (.silent Unit) ⟨.one, .one, .ofRaw 131072, .ofRaw 131072⟩
    .southEast none)
  let _ ← owning [] (produce (·.addActor (.ofSize true (200, 100))))
  let _ ← owning [] (produce (·.addActor (.ofSize true (30, 40))))
  let _ ← owning [] (produce (·.addActor (.ofSize true (1, 1))))
  let _ ← owning [.core ⟨0⟩, .actor ⟨1⟩] (change (·.applyActor ⟨0⟩ ⟨1⟩))
  let _ ← owning [.core ⟨0⟩, .actor ⟨0⟩] (change (·.applyActor ⟨0⟩ ⟨0⟩))

/-- What is left when both are in place. -/
def staffed : Stage := (staffing.run ⟨.empty true, ()⟩).2.stage

theorem reachable_staffed : staffed.Reachable := by
  unfold staffed
  exact Arises.reachable (@Arises.course _ (fun _ => []) _ _ _ (.opening true rfl)
    (.bind (.offered (.makeScale _ _ none)) fun _ =>
      .bind (.offered (.addActor _)) fun _ =>
        .bind (.offered (.addActor _)) fun _ =>
          .bind (.offered (.addActor _)) fun _ =>
            .bind (.offered (.applyActor ⟨0⟩ ⟨1⟩)) fun _ =>
              .bind (.offered (.applyActor ⟨0⟩ ⟨0⟩)) fun _ => .pure ()))

/-- An actor that is anchored takes the gravity from the behaviour, gives it other bounds, and has
the third actor take the place of the first one. -/
def usurping : Host (Traced Unit) :=
  { Host.silent (Traced Unit) with
    reacts := fun a call =>
      if a = ⟨1⟩ ∧ call = .anchorBy .southEast then do
        let silent := (Host.silent (Traced Unit)).traced
        let _ ← owning [.behaviour ⟨0⟩] (setGravity silent ⟨0⟩ .none)
        let _ ← owning [.behaviour ⟨0⟩] (setScaleBounds silent ⟨0⟩ ⟨.one, .one, .one, .one⟩)
        let _ ← owning [.core ⟨0⟩, .actor ⟨0⟩] (change (·.removeActor ⟨0⟩ ⟨0⟩))
        let _ ← owning [.core ⟨0⟩, .actor ⟨2⟩] (change (·.applyActor ⟨0⟩ ⟨2⟩))
      else pure () }

theorem traceable_usurping : usurping.Traceable where
  notified _ _ := .pure ()
  called _ _ := .pure 0
  driven _ _ := .pure ()
  reacts a call := by
    show Practice Host.traced keepsTrace (if a = ⟨1⟩ ∧ call = .anchorBy .southEast then _ else _)
    split
    · exact .bind (.offered (.setGravity ⟨0⟩ .none)) fun _ =>
        .bind (.offered (.setScaleBounds ⟨0⟩ _)) fun _ =>
          .bind (.offered (.removeActor ⟨0⟩ ⟨0⟩)) fun _ =>
            .bind (.offered (.applyActor ⟨0⟩ ⟨2⟩)) fun _ => .pure ()
    · exact .pure ()

/-- The behaviour is driven to the last alpha. -/
def usurped : Except Fault Unit × World (Traced Unit) :=
  (drive usurping.traced ⟨0⟩ 65535).run ⟨staffed, ⟨(), []⟩⟩

/-- What is traced of it. -/
def usurpedTrace : List Mark :=
  [.enters (.reacts ⟨1⟩ (.anchorBy .southEast)), .leaves (some ⟨0, []⟩),
    .enters (.reacts ⟨1⟩ (.setScale 2 2)), .leaves (some ⟨0, []⟩),
    .enters (.reacts ⟨0⟩ (.anchorBy .southEast)), .leaves (some ⟨0, []⟩),
    .enters (.reacts ⟨0⟩ (.setScale 2 2)), .leaves (some ⟨0, []⟩)]

/-- Both actors are asked what the behaviour would have asked without their meddling, and the third
one is asked nothing, though the behaviour has it in the end. Beyond the last alpha nothing
happens. -/
theorem asks_actors_usurping :
    usurped.1 = .ok () ∧
    AsksAll [⟨1⟩, ⟨0⟩] [.anchorBy .southEast, .setScale 2 2] ⟨staffed, ⟨(), []⟩⟩ usurped.2
      usurpedTrace true ∧
    (∃ n, usurped.2.stage.actors.get ⟨0⟩ =
      { (staffed.actors.get ⟨0⟩).scaled .southEast 2 2 with holders := n }) ∧
    usurped.2.stage.actorsOf ⟨0⟩ = [⟨1⟩, ⟨2⟩] ∧
    (usurped.2.stage.behaviours.get ⟨0⟩).drive =
      .scale ⟨⟨.one, .one⟩, ⟨.one, .one⟩⟩ .none ∧
    (drive usurping.traced ⟨0⟩ 65536).run ⟨staffed, ⟨(), []⟩⟩ =
      (.error (.violation (.alphaOutOfRange 65536)), ⟨staffed, ⟨(), []⟩⟩) := by
  have drives : (staffed.behaviours.get ⟨0⟩).drive =
      .scale ⟨⟨.one, .ofRaw 131072⟩, ⟨.one, .ofRaw 131072⟩⟩ .southEast := by
    decide +kernel
  have actors : staffed.actorsOf (staffed.coreOf ⟨0⟩) = [⟨1⟩, ⟨0⟩] := by decide +kernel
  have sampled : ScaleBounds.sample ⟨⟨.one, .ofRaw 131072⟩, ⟨.one, .ofRaw 131072⟩⟩ 65535 =
      .ok (.ofRaw 131072, .ofRaw 131072) := by
    decide +kernel
  have two : (Fixed.ofRaw 131072).toDouble = 2 := by decide +kernel
  obtain ⟨-, scales, -⟩ :=
    reachable_staffed.asks_actors ⟨0⟩ traceable_usurping 65535 ⟨(), []⟩
  obtain ⟨x, y, sample, r, w', l, ended, run, outcome, asks, becomes⟩ :=
    (scales _ _ drives).2 (by decide)
  obtain ⟨-, beyond, -⟩ :=
    reachable_staffed.asks_actors ⟨0⟩ traceable_usurping 65536 ⟨(), []⟩
  have run : usurped = (r, w') := run
  have finished : usurped.1 = .ok () := by decide +kernel
  have whole : ended = true := outcome.1 (by rw [← finished, run])
  have trace : l = usurpedTrace := by
    have left : usurped.2.user.trace = usurpedTrace := by decide +kernel
    rw [run] at left
    exact asks.trace.symm.trans left
  cases sampled.symm.trans sample
  rw [actors, two, whole, trace] at asks becomes
  have spared : Spared ⟨0⟩ (callsTo [⟨1⟩, ⟨0⟩] [.anchorBy .southEast, .setScale 2 2]) usurpedTrace
      true :=
    ⟨_, .next (l := []) rfl (.next (l := []) rfl (.next (l := []) rfl
      (.next (l := []) rfl .done)))⟩
  have scaled := becomes ⟨0⟩ (by decide) (by decide +kernel) spared rfl
  rw [show w' = usurped.2 by rw [run]] at asks scaled
  exact ⟨finished, asks, scaled, by decide +kernel, by decide +kernel,
    (beyond _ _ drives).1 (by decide)⟩

end Stage

end Animation
