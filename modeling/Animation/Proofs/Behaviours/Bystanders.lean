/-
# Actors that stand by

A behaviour asks only the actors that it has been given. An actor that none of some behaviours
has stands by while these are driven, and while events are emitted: unless a callback asks it to
do something, it is left as it is up to the handles on it. For the callbacks this is a rule of
conduct: they do not touch the actor, and do not give it to one of the behaviours.
-/

import Animation.Proofs.Script.Conduct

namespace Animation

namespace Stage

/-- The actors that a behaviour has been given, whether they are still there or not. -/
def castOf (s : Stage) (b : Ref .behaviour) : List (Ref .actor) := (s.cores.get (s.coreOf b)).actors

/-- None of some behaviours has a given actor. -/
def Absent (x : Ref .actor) (members : List (Ref .behaviour)) (s : Stage) : Prop :=
  ∀ b ∈ members, x ∉ s.castOf b

/-- An actor is left as it is, up to the handles on it, and not given to some behaviours. -/
structure Spares (x : Ref .actor) (members : List (Ref .behaviour)) (s s' : Stage) : Prop where
  actor : ∃ n, s'.actors.get x = { s.actors.get x with holders := n }
  cast : ∀ b ∈ members, x ∈ s'.castOf b → x ∈ s.castOf b

theorem castOf_congr {s s' : Stage} (behaviours : s'.behaviours = s.behaviours)
    (cores : s'.cores = s.cores) (b : Ref .behaviour) : s'.castOf b = s.castOf b := by
  rw [castOf, coreOf, behaviours, cores, castOf, coreOf]

theorem Rehandled.castOf {s s' : Stage} (h : s.Rehandled s') (b : Ref .behaviour) :
    s'.castOf b = s.castOf b := by
  rw [Stage.castOf, h.coreOf, h.actors, Stage.castOf]

namespace Spares

variable {x : Ref .actor} {members : List (Ref .behaviour)} {s s' s'' : Stage}

theorem refl (s : Stage) : s.Spares x members s := ⟨⟨_, rfl⟩, fun _ _ => id⟩

theorem trans (h : s.Spares x members s') (h' : s'.Spares x members s'') :
    s.Spares x members s'' := by
  obtain ⟨n, row⟩ := h.actor
  obtain ⟨n', row'⟩ := h'.actor
  exact ⟨⟨n', by rw [row', row]⟩, fun b mem given => h.cast b mem (h'.cast b mem given)⟩

theorem absent (h : s.Spares x members s') (absent : s.Absent x members) :
    s'.Absent x members :=
  fun b mem given => absent b mem (h.cast b mem given)

/-- Changes that touch neither actors nor behaviours. -/
theorem of_eq (actors : s'.actors = s.actors) (behaviours : s'.behaviours = s.behaviours)
    (cores : s'.cores = s.cores) : s.Spares x members s' :=
  ⟨⟨_, by rw [actors]⟩, fun b _ given => castOf_congr behaviours cores b ▸ given⟩

theorem of_rehandled (h : s.Rehandled s') : s.Spares x members s' :=
  ⟨h.actor x, fun b _ given => h.castOf b ▸ given⟩

theorem housekeeping (h : s.Housekeeping s') : s.Spares x members s' := by
  refine ⟨h.actor x, fun b _ given => h.cast _ ?_⟩
  rw [castOf, coreOf, h.behaviours] at given
  exact given

/-- Another actor does what it is asked. -/
theorem modifyActor (s : Stage) {a : Ref .actor} (ne : a ≠ x) (f : Actor → Actor) :
    s.Spares x members (s.modifyActor a f) :=
  ⟨⟨_, Table.get_modify_of_ne _ _ ne⟩, fun _ _ => id⟩

end Spares

end Stage

namespace Conduct

open Script

variable {υ α : Type} {origin : Stage} {x : Ref .actor} {members : List (Ref .behaviour)}
  {w : World υ}

/-- The rule to leave an actor alone that none of some behaviours has, on all stages that moves
lead to from a given one. -/
def sparing (υ : Type) (origin : Stage) (x : Ref .actor) (members : List (Ref .behaviour)) :
    Conduct υ where
  keeps w := origin.Moves w.stage ∧ w.stage.Absent x members
  leaves := Stage.Spares x members
  refl := .refl
  trans := .trans
  housekeeping keeps h :=
    have spares : Stage.Spares x members _ _ := .housekeeping h
    ⟨⟨keeps.1.trans h.moves, spares.absent keeps.2⟩, spares⟩
  hold _ m keeps := ⟨keeps.1.tail (.modifyEmitter m _), keeps.2⟩
  held _ h := ⟨h.actor, h.cast⟩

/-- Moves that spare the actor are allowed. -/
theorem follows_sparing {s : Stage} (keeps : (sparing υ origin x members).keeps w)
    (moves : w.stage.Moves s) (spares : w.stage.Spares x members s) :
    (sparing υ origin x members).Follows w { w with stage := s } :=
  ⟨⟨keeps.1.trans moves, spares.absent keeps.2⟩, spares⟩

theorem mayAsk_sparing {a : Ref .actor} (ne : a ≠ x) : (sparing υ origin x members).MayAsk a :=
  fun _ call keeps => follows_sparing keeps (.single (.ask a call)) (.modifyActor _ ne _)

theorem sparing_change_bind {g : Stage → Stage} {f : Unit → Script υ α}
    (moves : w.stage.Moves (g w.stage)) (spares : w.stage.Spares x members (g w.stage))
    (hf : (sparing υ origin x members).Observes (f ()) { w with stage := g w.stage }) :
    (sparing υ origin x members).Observes (change g >>= f) w :=
  fun keeps => (follows_sparing keeps moves spares).observes hf

theorem sparing_note_bind {what : Occurrence} {f : Unit → Script υ α}
    (hf : (sparing υ origin x members).Observes (f ()) { w with stage := w.stage.note what }) :
    (sparing υ origin x members).Observes (note what >>= f) w :=
  sparing_change_bind (.single (.note what)) (.of_eq rfl rfl rfl) hf

/-- Handles on things that are there are held while a script runs. -/
theorem sparing_holding {handles : List Handle} {y : Script υ Unit}
    (alive : ∀ b, .behaviour b ∈ handles → w.stage.isAlive (.behaviour b))
    (hy : (sparing υ origin x members).Observes y
      { w with stage := w.stage.retainAll handles }) :
    (sparing υ origin x members).Observes (holding handles y) w := by
  refine sparing_change_bind (Stage.moves_retainAll alive)
    (.of_rehandled (w.stage.rehandled_retainAll handles)) fun keeps => ?_
  have first := hy keeps
  exact first.trans (follows_sparing first.keeps (Stage.moves_releaseAll _ handles)
    (.of_rehandled (Stage.rehandled_releaseAll _ handles)))

namespace Binds

variable {host : Host υ} (hh : (sparing υ origin x members).Binds host)

include hh

/-- One of the behaviours is driven, which does not have the actor. -/
theorem drive_member {b : Ref .behaviour} (member : b ∈ members) (alpha : Nat) (w : World υ) :
    (sparing υ origin x members).Observes (Script.drive host b alpha) w := by
  refine hh.drive alpha fun keeps a given => mayAsk_sparing ?_
  rintro rfl
  exact keeps.2 b member (List.mem_filter.1 given).1

theorem announce_sparing (t : Ref .timeline) (event : TimelineEvent) (payload : Payload)
    (w : World υ) :
    (sparing υ origin x members).Observes (Script.announce host t event payload) w :=
  hh.announce fun keeps => follows_sparing keeps (.single (.note _)) (.of_eq rfl rfl rfl)

theorem concludeFrame_sparing (t : Ref .timeline) (played : Clock) (w : World υ) :
    (sparing υ origin x members).Observes (Script.concludeFrame host t played) w := by
  refine observes_bind (hh.announce_sparing t .newFrame _ w) fun _ w₁ _ => ?_
  split
  · refine observes_bind (hh.announce_sparing t .completed _ w₁) fun _ w₂ _ => ?_
    split
    · exact sparing_change_bind (.single (.turn .rewind)) (.of_eq rfl rfl rfl) (observes_pure _)
    · exact observes_pure _
  · exact observes_pure _

end Binds

end Conduct

end Animation
