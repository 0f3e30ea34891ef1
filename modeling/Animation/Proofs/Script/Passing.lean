/-
# What scripts do is made of moves

Whatever runs on a stage, a script or the callbacks that it calls, the stage only ever
makes moves, and the callers only ever change their own state. `Passes` says so of a script
that begins in a given world. It is carried from the parts of a script to the whole, and
from the callbacks of a host to everything that the library does with that host.

The callers' own state may have pages, on which they put down stages as they see them. In
this way what holds of everything on the pages holds whenever a callback runs, and not only
at the end of a script.
-/

import Animation.Proofs.Script.Running
import Animation.Proofs.Stage.Ties

namespace Animation

variable {υ : Type} (pages : υ → List Stage)

/-- One step in what happens to a world: a move of its stage, or a change to the callers' own
state, whose pages can show what they showed before and the stage as it is. -/
inductive World.Passage : World υ → World υ → Prop
  | move {w : World υ} {s : Stage} (h : w.stage.Move s) : Passage w { w with stage := s }
  | write {w : World υ} {u : υ} (h : ∀ s ∈ pages u, s = w.stage ∨ s ∈ pages w.user) :
      Passage w { w with user := u }

/-- Any number of steps. -/
abbrev World.Passages : World υ → World υ → Prop := Relation.ReflTransGen (World.Passage pages)

namespace World.Passages

variable {pages} {w w' : World υ}

theorem of_moves {s : Stage} (h : w.stage.Moves s) : w.Passages pages { w with stage := s } := by
  induction h with
  | refl => exact .refl
  | tail _ last ih => exact ih.tail (.move last)

/-- What every move keeps stays. -/
theorem keeps (h : w.Passages pages w') {P : Stage → Prop}
    (keep : ∀ {s s' : Stage}, s.Move s' → P s → P s') (hw : P w.stage) : P w'.stage := by
  induction h with
  | refl => exact hw
  | tail _ last ih =>
      cases last with
      | move move => exact keep move ih
      | write _ => exact ih

/-- What every move keeps also holds of everything that is put down on the pages. -/
theorem keeps_pages (h : w.Passages pages w') {P : Stage → Prop}
    (keep : ∀ {s s' : Stage}, s.Move s' → P s → P s') (hw : P w.stage)
    (hpages : ∀ s ∈ pages w.user, P s) : ∀ s ∈ pages w'.user, P s := by
  induction h with
  | refl => exact hpages
  | tail before last ih =>
      cases last with
      | move _ => exact ih
      | write new =>
          intro s hs
          rcases new s hs with rfl | old
          · exact keeps before keep hw
          · exact ih s old

end World.Passages

/-- What a script does, starting from a world whose ties are in order, is made of single
steps. -/
def Script.Passes {α : Type} (x : Script υ α) (w : World υ) : Prop :=
  w.stage.Tied → w.Passages pages (x.run w).2

/-- The callbacks of a host are made of single steps. -/
structure Host.Passing (host : Host υ) : Prop where
  notified : ∀ callback change w, (host.notified callback change).Passes pages w
  called : ∀ callback payload w, (host.called callback payload).Passes pages w
  driven : ∀ callback alpha w, (host.driven callback alpha).Passes pages w
  reacts : ∀ a call w, (host.reacts a call).Passes pages w

namespace Script

variable {pages} {α β : Type} {w : World υ}

theorem passes_pure (a : α) : (pure a : Script υ α).Passes pages w := fun _ => .refl

theorem passes_throw (fault : Fault) : (throw fault : Script υ α).Passes pages w :=
  fun _ => .refl

theorem passes_bind {x : Script υ α} {f : α → Script υ β} (hx : x.Passes pages w)
    (hf : ∀ a w', x.run w = (.ok a, w') → w.Passages pages w' → (f a).Passes pages w') :
    (x >>= f).Passes pages w := by
  intro tied
  have first := hx tied
  rw [run_bind]
  cases r : (x.run w).1 with
  | error fault => exact first
  | ok a =>
      have tied' := first.keeps Stage.Move.tied tied
      exact first.trans (hf a _ (Prod.ext r rfl) first tied')

theorem passes_stage_bind {f : Stage → Script υ β} (hf : (f w.stage).Passes pages w) :
    (stage >>= f).Passes pages w := hf

theorem passes_change {f : Stage → Stage} (h : w.stage.Moves (f w.stage)) :
    (change f : Script υ Unit).Passes pages w := fun _ => .of_moves h

theorem passes_change_bind {f : Stage → Stage} {g : Unit → Script υ β}
    (h : w.stage.Moves (f w.stage))
    (hg : (g ()).Passes pages { w with stage := f w.stage }) :
    (change f >>= g).Passes pages w :=
  passes_bind (passes_change h) fun _ _ run _ => by cases run; exact hg

theorem passes_produce {f : Stage → Stage × α} (h : w.stage.Moves (f w.stage).1) :
    (produce f : Script υ α).Passes pages w := fun _ => .of_moves h

theorem passes_note (what : Occurrence) : (note what : Script υ Unit).Passes pages w :=
  passes_change (.single (.note what))

theorem passes_note_bind {what : Occurrence} {g : Unit → Script υ β}
    (hg : (g ()).Passes pages { w with stage := w.stage.note what }) :
    (note what >>= g).Passes pages w :=
  passes_change_bind (.single (.note what)) hg

theorem passes_check (r : Except Violation α) : (check r : Script υ α).Passes pages w := by
  cases r <;> exact fun _ => .refl

theorem passes_thenTidy {x : Script υ α} {tidy : Stage → Stage} (hx : x.Passes pages w)
    (h : ∀ s : Stage, s.Moves (tidy s)) : (x.thenTidy tidy).Passes pages w :=
  fun tied => (hx tied).trans (World.Passages.of_moves (h _))

theorem passes_attempt {x : Script υ α} (hx : x.Passes pages w) :
    x.attempt.Passes pages w := by
  intro tied
  rw [run_attempt_snd]
  exact hx tied

theorem passes_holding {handles : List Handle} {x : Script υ α}
    (h : ∀ b, .behaviour b ∈ handles → w.stage.isAlive (.behaviour b))
    (hx : x.Passes pages { w with stage := w.stage.retainAll handles }) :
    (holding handles x).Passes pages w :=
  passes_change_bind (Stage.moves_retainAll h)
    (passes_thenTidy hx fun s => s.moves_releaseAll handles)

theorem passes_forEach {visit : β → Script υ Unit} (h : ∀ b w, (visit b).Passes pages w)
    (list : List β) (w : World υ) : (forEach visit list).Passes pages w := by
  induction list generalizing w with
  | nil => exact passes_pure ()
  | cons b rest ih => exact passes_bind (h b w) fun _ w' _ _ => ih w'

end Script

end Animation
