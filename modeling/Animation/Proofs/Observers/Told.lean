/-
# What an observer of a property is told

From the point of view of one observer of one property, all that happens is that the
property changes and that the observer hears of it. An observer that has been told of
everything has heard of each change once, and after the latest change was made it has
heard of that one first. That may not be the last that it hears: news of earlier changes can
be under way when the latest one is made.
-/

import Animation.Value
import Mathlib.Data.List.Perm.Basic

namespace Animation

/-- What happens to one property and one observer of it. -/
inductive News where
  | changed (v : Value)
  | heard (v : Value)
  deriving DecidableEq

namespace News

def changed? : News → Option Value
  | changed v => some v
  | heard _ => none

def heard? : News → Option Value
  | changed _ => none
  | heard v => some v

/-- The values that the property was given, in order. -/
def changes (l : List News) : List Value := l.filterMap changed?

/-- The values that the observer heard of, in order. -/
def hearings (l : List News) : List Value := l.filterMap heard?

@[simp]
theorem changes_nil : changes [] = [] := rfl

@[simp]
theorem changes_cons_changed (v : Value) (l : List News) :
    changes (changed v :: l) = v :: changes l := rfl

@[simp]
theorem changes_cons_heard (v : Value) (l : List News) :
    changes (heard v :: l) = changes l := rfl

@[simp]
theorem changes_append (l l' : List News) : changes (l ++ l') = changes l ++ changes l' := by
  simp [changes]

@[simp]
theorem hearings_nil : hearings [] = [] := rfl

@[simp]
theorem hearings_cons_changed (v : Value) (l : List News) :
    hearings (changed v :: l) = hearings l := rfl

@[simp]
theorem hearings_cons_heard (v : Value) (l : List News) :
    hearings (heard v :: l) = v :: hearings l := rfl

@[simp]
theorem hearings_append (l l' : List News) :
    hearings (l ++ l') = hearings l ++ hearings l' := by
  simp [hearings]

@[simp]
theorem changes_map_changed (l : List Value) : changes (l.map changed) = l := by
  simp [changes, List.filterMap_map, Function.comp_def, changed?]

/-- Once the latest change was made, the observer has heard of it before anything else. -/
def HeardLatest (l : List News) : Prop :=
  ∀ before v after, l = before ++ changed v :: after → changes after = [] →
    (hearings after).head? = some v

/-- The observer has heard of every change once, and besides of a change made before if one
is due, and of the latest change before anything else since. -/
structure Told (due : Option Value) (l : List News) : Prop where
  perm : (hearings l).Perm (changes l ++ due.toList)
  latest : HeardLatest l

namespace Told

variable {due : Option Value} {l l' : List News} {v : Value}

theorem nil : Told none [] where
  perm := .refl _
  latest before v after split := by
    apply absurd split
    simp

/-- An observer that hears of a change has been told of it. -/
theorem hear (v : Value) : Told (some v) [heard v] where
  perm := .refl _
  latest before w after split := by
    cases before with
    | nil => exact nomatch split
    | cons first rest => cases rest <;> simp at split

/-- Where a list that is put together has a change, one of its parts has it. -/
theorem split_append {before after : List News} (h : l ++ l' = before ++ changed v :: after) :
    (∃ rest, l = before ++ changed v :: rest ∧ after = rest ++ l') ∨
      ∃ rest, before = l ++ rest ∧ l' = rest ++ changed v :: after := by
  rw [List.append_eq_append_iff] at h
  rcases h with ⟨rest, hbefore, hl'⟩ | ⟨rest, hl, hafter⟩
  · exact .inr ⟨rest, hbefore, hl'⟩
  · cases rest with
    | nil => exact .inr ⟨[], by simp [hl], by simp [hafter]⟩
    | cons first rest =>
        injection hafter with same hafter
        subst same
        exact .inl ⟨rest, hl, hafter⟩

theorem latest_append (h : HeardLatest l) (h' : HeardLatest l') : HeardLatest (l ++ l') := by
  intro before v after split none
  rcases split_append split with ⟨rest, hl, rfl⟩ | ⟨rest, _, hl'⟩
  · rw [changes_append, List.append_eq_nil_iff] at none
    rw [hearings_append, List.head?_append, h before v rest hl none.1]
    rfl
  · exact h' rest v after hl' none

theorem append_due (h : Told none l) (h' : Told due l') : Told due (l ++ l') where
  perm := by
    have first : (hearings l).Perm (changes l) := by simpa using h.perm
    rw [hearings_append, changes_append, List.append_assoc]
    exact first.append h'.perm
  latest := latest_append h.latest h'.latest

theorem due_append (h : Told due l) (h' : Told none l') : Told due (l ++ l') where
  perm := by
    have last : (hearings l').Perm (changes l') := by simpa using h'.perm
    rw [hearings_append, changes_append]
    apply (h.perm.append last).trans
    simp only [List.append_assoc]
    exact List.perm_append_comm.append_left (changes l)
  latest := latest_append h.latest h'.latest

/-- A change that is told of later on is one that the observer has been told of. -/
theorem change (h : Told (some v) l) : Told none (changed v :: l) where
  perm := by
    have all : (hearings l).Perm (changes l ++ [v]) := h.perm
    simp only [hearings_cons_changed, changes_cons_changed, Option.toList_none, List.append_nil]
    exact all.trans (List.perm_append_singleton v _)
  latest before w after split none := by
    cases before with
    | nil =>
        obtain ⟨rfl, rfl⟩ : v = w ∧ l = after := by simpa using split
        -- Nothing has changed since, so what the observer hears is the change that was due.
        have all : (hearings l).Perm [v] := by simpa [none] using h.perm
        rw [List.perm_singleton.1 all]
        rfl
    | cons first before =>
        injection split with _ rest
        exact h.latest before w after rest none

/-- What has changed before, and is due, the observer has been told of. -/
theorem announce (h : Told due l) : Told none (due.toList.map changed ++ l) := by
  cases due with
  | none => exact h
  | some v => exact h.change

/-- After it has heard of the latest change, the observer only hears of those earlier changes
of which it had not heard yet. -/
theorem exists_late (h : Told none l) {before after : List News}
    (split : l = before ++ changed v :: after) (none : changes after = []) :
    ∃ late, hearings after = v :: late ∧
      (hearings before).length + late.length = (changes before).length := by
  obtain ⟨late, first⟩ := List.head?_eq_some_iff.1 (h.latest before v after split none)
  have all := h.perm.length_eq
  subst split
  simp [none, first] at all
  exact ⟨late, first, by omega⟩

end Told

end News

end Animation
