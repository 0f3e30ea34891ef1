/-
# Names

A session calls things by names. The names of one kind are kept in alphabetical order,
and each names one thing; a thing may have several names.
-/

namespace Animation

/-- The things that some names stand for, in the alphabetical order of the names. -/
structure Names (α : Type) where
  entries : List (String × α)
  deriving Inhabited

namespace Names

variable {α : Type}

def empty : Names α := ⟨[]⟩

/-- What a name stands for. -/
def find? (names : Names α) (name : String) : Option α := names.entries.lookup name

private def place (name : String) (a : α) : List (String × α) → List (String × α)
  | [] => [(name, a)]
  | (other, b) :: rest =>
      if name = other then (name, a) :: rest
      else if name < other then (name, a) :: (other, b) :: rest
      else (other, b) :: place name a rest

private theorem lookup_pair (other name : String) (a : α) (rest : List (String × α)) :
    ((name, a) :: rest).lookup other = if other = name then some a else rest.lookup other := by
  by_cases h : other = name
  · simp [h]
  · simp [List.lookup_cons, h, beq_false_of_ne h]

private theorem lookup_place (name other : String) (a : α) (entries : List (String × α)) :
    (place name a entries).lookup other =
      if other = name then some a else entries.lookup other := by
  fun_induction place name a entries <;> grind [lookup_pair]

/-- Let a name stand for something, and no longer for anything else. -/
def insert (names : Names α) (name : String) (a : α) : Names α := ⟨place name a names.entries⟩

theorem find?_insert (names : Names α) (name other : String) (a : α) :
    (names.insert name a).find? other = if other = name then some a else names.find? other :=
  lookup_place name other a names.entries

/-- Let a name stand for nothing. -/
def erase (names : Names α) (name : String) : Names α :=
  ⟨names.entries.filter fun entry => entry.1 != name⟩

theorem find?_erase (names : Names α) (name other : String) :
    (names.erase name).find? other = if other = name then none else names.find? other := by
  obtain ⟨entries⟩ := names
  simp only [erase, find?]
  induction entries with
  | nil => simp
  | cons entry rest ih => by_cases h : entry.1 = name <;> grind [lookup_pair]

/-- The first name of a thing with the given property. -/
def nameOf? (names : Names α) (p : α → Bool) : Option String :=
  (names.entries.find? fun entry => p entry.2).map Prod.fst

end Names

end Animation
