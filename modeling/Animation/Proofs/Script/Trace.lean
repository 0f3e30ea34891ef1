/-
# Traces of calls

While the library is at work it calls back, and whoever is called may use the library again. A trace
marks when a call begins and when it is over, with what came of it. All that happens inside a call
stands between its two marks, so that a trace is balanced, and the calls that a piece of work makes
itself can be told from those that are made inside of them.

The trace is put down by the brackets around the callbacks of a host. Those who are called are free
to do whatever the library offers, and to have others called in brackets, but do not tamper with the
trace.
-/

import Animation.Proofs.Script.Regime

namespace Animation

/-- A call of one of the callbacks of a host. -/
inductive Invocation where
  | notified (callback : Callback) (change : Change)
  | called (callback : Callback) (payload : Payload)
  | driven (callback : Callback) (alpha : Nat)
  | reacts (a : Ref .actor) (call : ActorCall)
  deriving DecidableEq

/-- What comes of a call that comes to its end: an answer, which is zero if none is asked for, and
the tasks that were spawned meanwhile. -/
structure Returned where
  answer : Nat
  spawned : List (Ref .task)
  deriving DecidableEq

/-- A mark of a call that begins, or of one that is over. One that was broken off has no outcome. -/
inductive Mark where
  | enters (i : Invocation)
  | leaves (outcome : Option Returned)
  deriving DecidableEq

/-- The callers' own state, and the trace. -/
structure Traced (υ : Type) where
  own : υ
  trace : List Mark

variable {υ α β : Type}

/-- A world with one more mark on its trace. -/
def World.mark (w : World (Traced υ)) (m : Mark) : World (Traced υ) :=
  { w with user.trace := w.user.trace ++ [m] }

/-- The tasks that there are on a stage and were not on an earlier one. -/
def Stage.newTasks (s s' : Stage) : List (Ref .task) := s'.tasks.refs.drop s.tasks.size

namespace Script

/-- Run a script between the two marks of a call. -/
def bracket (i : Invocation) (answer : α → Nat) (x : Script (Traced υ) α) :
    Script (Traced υ) α :=
  ExceptT.mk fun w =>
    let (r, w') := x.run (w.mark (.enters i))
    (r, w'.mark (.leaves (r.toOption.map fun a => ⟨answer a, w.stage.newTasks w'.stage⟩)))

theorem run_bracket (i : Invocation) (answer : α → Nat) (x : Script (Traced υ) α)
    (w : World (Traced υ)) :
    (bracket i answer x).run w =
      ((x.run (w.mark (.enters i))).1, (x.run (w.mark (.enters i))).2.mark
        (.leaves ((x.run (w.mark (.enters i))).1.toOption.map fun a =>
          ⟨answer a, w.stage.newTasks (x.run (w.mark (.enters i))).2.stage⟩))) := rfl

/-- What is traced inside of a call stands between its marks. -/
theorem trace_bracket (i : Invocation) (answer : α → Nat) {x : Script (Traced υ) α}
    {w : World (Traced υ)} {l : List Mark}
    (inner : (x.run (w.mark (.enters i))).2.user.trace = (w.mark (.enters i)).user.trace ++ l) :
    ((bracket i answer x).run w).2.user.trace = w.user.trace ++ .enters i ::
      (l ++ [.leaves (((bracket i answer x).run w).1.toOption.map fun a =>
        ⟨answer a, w.stage.newTasks ((bracket i answer x).run w).2.stage⟩)]) := by
  rw [run_bracket]
  show (x.run (w.mark (.enters i))).2.user.trace ++ _ = _
  rw [inner]
  simp [World.mark]

/-- To trace is all that is not allowed. -/
def keepsTrace (w : World (Traced υ)) (u : Traced υ) : Prop := u.trace = w.user.trace

end Script

/-- The same callbacks in brackets. -/
def Host.traced (host : Host (Traced υ)) : Host (Traced υ) where
  curves := host.curves
  notified callback change :=
    Script.bracket (.notified callback change) (fun _ => 0) (host.notified callback change)
  called callback payload :=
    Script.bracket (.called callback payload) id (host.called callback payload)
  driven callback alpha :=
    Script.bracket (.driven callback alpha) (fun _ => 0) (host.driven callback alpha)
  reacts a call := Script.bracket (.reacts a call) (fun _ => 0) (host.reacts a call)
  resume := host.resume

/-- Callbacks that do whatever the library offers, and have all others called in brackets. -/
abbrev Host.Traceable (host : Host (Traced υ)) : Prop :=
  Script.Practices Host.traced Script.keepsTrace host

namespace Script

theorem traceable_silent (υ : Type) : (Host.silent (Traced υ)).Traceable :=
  ⟨fun _ _ => .pure (), fun _ _ => .pure 0, fun _ _ => .pure (), fun _ _ => .pure ()⟩

/-- What the library offers to those who do not want to be called. -/
theorem Practice.offered {handles : List Handle} {x : Script (Traced υ) α}
    (h : Offered (Host.silent (Traced υ)).traced handles x) :
    Practice Host.traced keepsTrace (owning handles x) :=
  have silent := traceable_silent υ
  .call h silent.notified silent.called silent.driven silent.reacts

end Script

/-- All calls that begin are over at the end, and in the right order. -/
inductive Balanced : List Mark → Prop
  | nil : Balanced []
  | call (i : Invocation) {l : List Mark} (inner : Balanced l) (outcome : Option Returned) :
      Balanced (.enters i :: (l ++ [.leaves outcome]))
  | append {l l' : List Mark} (h : Balanced l) (h' : Balanced l') : Balanced (l ++ l')

/-- The given calls are made one after the other, with something of a certain kind inside of each.
It goes on until all have been made, or one is broken off. -/
inductive Carries (within : List Mark → Prop) :
    List Invocation → List Mark → List Returned → Bool → Prop
  | done : Carries within [] [] [] true
  | next {i : Invocation} {is : List Invocation} {l l' : List Mark} {outcome : Returned}
      {outcomes : List Returned} {ended : Bool} (inner : within l)
      (rest : Carries within is l' outcomes ended) :
      Carries within (i :: is) (.enters i :: (l ++ .leaves (some outcome) :: l'))
        (outcome :: outcomes) ended
  | broken {i : Invocation} {is : List Invocation} {l : List Mark} (inner : within l) :
      Carries within (i :: is) (.enters i :: (l ++ [.leaves none])) [] false

namespace Carries

variable {within : List Mark → Prop} {is js : List Invocation} {l l' : List Mark}
  {outcomes outcomes' : List Returned} {ended : Bool}

/-- Whatever else was to be done is not done any more. -/
theorem stop (h : Carries within is l outcomes ended) (broken : ended = false) :
    Carries within (is ++ js) l outcomes ended := by
  induction h with
  | done => exact nomatch broken
  | next inner _ ih => exact .next inner (ih broken)
  | broken inner => exact .broken inner

theorem append (h : Carries within is l outcomes ended) (all : ended = true) {ended' : Bool}
    (h' : Carries within js l' outcomes' ended') :
    Carries within (is ++ js) (l ++ l') (outcomes ++ outcomes') ended' := by
  induction h with
  | done => exact h'
  | @next i is l k outcome outcomes ended inner _ ih =>
      have whole : Carries within (i :: (is ++ js))
          (.enters i :: (l ++ .leaves (some outcome) :: (k ++ l')))
          (outcome :: (outcomes ++ outcomes')) ended' := .next inner (ih all)
      simpa using whole
  | broken _ => exact nomatch all

end Carries

/-- In a regime to which traces do not matter callbacks may be put in brackets. -/
theorem Regime.Allows.traced {R : Regime (Traced υ)} {host : Host (Traced υ)} (h : R.Allows host)
    (marked : ∀ w m, R.leads w (w.mark m)) : R.Allows host.traced :=
  have bracketed : ∀ {α : Type} {x : Script (Traced υ) α} i (answer : α → Nat), R.Rules x →
      R.Rules (Script.bracket i answer x) := fun i _ hx w =>
    R.trans (R.trans (marked w (.enters i)) (hx _)) (marked _ _)
  ⟨fun callback change => bracketed _ _ (h.notified callback change),
    fun callback payload => bracketed _ _ (h.called callback payload),
    fun callback alpha => bracketed _ _ (h.driven callback alpha),
    fun a call => bracketed _ _ (h.reacts a call)⟩

end Animation
