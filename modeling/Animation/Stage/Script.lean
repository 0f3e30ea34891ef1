/-
# Scripts

What is done on a stage may call back whoever set the stage up: the listeners and
handlers that were registered, behaviours of their own making, actors that react, and
the routines of tasks. A script is a course of action that changes the stage, and the
caller's own state beside it, and either comes to its end or breaks off. What it has
changed until then stays changed.

The callbacks are given by a `Host`: each is itself a script, and may do anything that
can be done on the stage. The curves of its easings are given with them, as they are nobody's
on the stage.
-/

import Animation.Stage.Cast

namespace Animation

/-- Why a script breaks off: a precondition does not hold, or something is waited for that
will not be given free. -/
inductive Fault where
  | violation (cause : Violation)
  | stuck
  deriving DecidableEq

/-- A stage and the caller's own state. -/
structure World (υ : Type) where
  stage : Stage
  user : υ

/-- A course of action. -/
abbrev Script (υ : Type) : Type → Type := ExceptT Fault (StateM (World υ))

/-- How a routine goes on after its turn: it sleeps for some milliseconds, or it is done. -/
inductive Progress where
  | sleeps (duration : Nat)
  | ends (failure : Option Error)
  deriving DecidableEq

/-- The callbacks of whoever set the stage up, and the curves that its easings are drawn with. -/
structure Host (υ : Type) where
  curves : Curves
  /-- A listener hears a change. -/
  notified : Callback → Change → Script υ Unit
  /-- A handler takes a payload, and names the routine that is to handle it. -/
  called : Callback → Payload → Script υ Nat
  /-- A custom behaviour is driven to an alpha. -/
  driven : Callback → Nat → Script υ Unit
  /-- An actor has done what it was asked. -/
  reacts : Ref .actor → ActorCall → Script υ Unit
  /-- A routine has its turn. -/
  resume : Nat → Script υ Progress

namespace Script

variable {υ α : Type}

/-- The stage as it is. -/
def stage : Script υ Stage := return (← get).stage

/-- Change the stage. -/
def change (f : Stage → Stage) : Script υ Unit :=
  modify fun w => { w with stage := f w.stage }

/-- Change the stage and keep a result of the change. -/
def produce (f : Stage → Stage × α) : Script υ α :=
  modifyGet fun w =>
    let (stage, a) := f w.stage
    (a, { w with stage })

/-- Note an occurrence in the journal. -/
def note (what : Occurrence) : Script υ Unit := change (·.note what)

/-- Break off because of a broken precondition. -/
def check {α : Type} : Except Violation α → Script υ α
  | .ok a => pure a
  | .error cause => throw (.violation cause)

/-- Change the stage after a script, also if the script breaks off. -/
def thenTidy (x : Script υ α) (tidy : Stage → Stage) : Script υ α :=
  ExceptT.mk fun w =>
    let (result, w) := x.run w
    (result, { w with stage := tidy w.stage })

/-- Have handles on some things while a script runs. -/
def holding (handles : List Handle) (x : Script υ α) : Script υ α := do
  change (·.retainAll handles)
  x.thenTidy (·.releaseAll handles)

/-- Run a script for every member of a list, in order. -/
def forEach {β : Type} (visit : β → Script υ Unit) : List β → Script υ Unit
  | [] => pure ()
  | b :: rest => do
      visit b
      forEach visit rest

/-- Run a script to its end or to the violation that breaks it off. -/
def attempt (x : Script υ α) : Script υ (Except Violation α) :=
  ExceptT.mk fun w =>
    match x.run w with
    | (.ok a, w) => (.ok (.ok a), w)
    | (.error (.violation cause), w) => (.ok (.error cause), w)
    | (.error .stuck, w) => (.error .stuck, w)

end Script

end Animation
