/-
# Tables of numbered things

The things on a stage refer to one another by number, and a table holds the things of
one kind. A table has a row for every number: one that was never written is the default
row, so that reading after writing needs no side condition.
-/

namespace Animation

/-- The kinds of things on a stage. -/
inductive Kind where
  | timeline
  | alpha
  | core
  | behaviour
  | actor
  | notifier
  | emitter
  | task
  deriving DecidableEq, Repr

/-- The number of a thing among those of its kind. -/
structure Ref (k : Kind) where
  index : Nat
  deriving DecidableEq, Repr, Inhabited

/-- The rows of the things of one kind, by number. -/
structure Table (k : Kind) (α : Type) where
  rows : List α
  deriving Inhabited

namespace Table

variable {k : Kind} {α : Type}

def empty : Table k α := ⟨[]⟩

/-- How many rows have been added. -/
def size (t : Table k α) : Nat := t.rows.length

/-- All things that have been added, first added first. -/
def refs (t : Table k α) : List (Ref k) := (List.range t.size).map Ref.mk

variable [Inhabited α]

private def readRow : List α → Nat → α
  | [], _ => default
  | a :: _, 0 => a
  | _ :: rest, i + 1 => readRow rest i

private def writeRow (a : α) : List α → Nat → List α
  | [], 0 => [a]
  | [], i + 1 => default :: writeRow a [] i
  | _ :: rest, 0 => a :: rest
  | b :: rest, i + 1 => b :: writeRow a rest i

private theorem readRow_writeRow (a : α) (rows : List α) (i j : Nat) :
    readRow (writeRow a rows i) j = if i = j then a else readRow rows j := by
  induction rows generalizing i j with
  | nil =>
      induction i generalizing j with
      | zero => cases j <;> simp [writeRow, readRow]
      | succ i ih => cases j <;> simp [writeRow, readRow, ih]
  | cons b rest ih => cases i <;> cases j <;> simp [writeRow, readRow, ih]

private theorem readRow_append (a : α) (rows : List α) (j : Nat) :
    readRow (rows ++ [a]) j = if j = rows.length then a else readRow rows j := by
  induction rows generalizing j with
  | nil => cases j <;> simp [readRow]
  | cons b rest ih => cases j <;> simp [readRow, ih]

private theorem readRow_of_length_le {rows : List α} {i : Nat} (h : rows.length ≤ i) :
    readRow rows i = default := by
  induction rows generalizing i with
  | nil => rfl
  | cons b rest ih =>
      cases i with
      | zero => simp at h
      | succ i => exact ih (Nat.le_of_succ_le_succ h)

private theorem length_writeRow (a : α) {rows : List α} {i : Nat} (h : i < rows.length) :
    (writeRow a rows i).length = rows.length := by
  induction rows generalizing i with
  | nil => exact absurd h (Nat.not_lt_zero i)
  | cons b rest ih =>
      cases i with
      | zero => rfl
      | succ i => exact congrArg (· + 1) (ih (Nat.lt_of_succ_lt_succ h))

private theorem length_le_length_writeRow (a : α) (rows : List α) (i : Nat) :
    rows.length ≤ (writeRow a rows i).length := by
  induction rows generalizing i with
  | nil => exact Nat.zero_le _
  | cons b rest ih => cases i <;> simp [writeRow, ih]

private theorem writeRow_readRow {rows : List α} {i : Nat} (h : i < rows.length) :
    writeRow (readRow rows i) rows i = rows := by
  induction rows generalizing i with
  | nil => exact absurd h (Nat.not_lt_zero i)
  | cons b rest ih =>
      cases i with
      | zero => rfl
      | succ i => exact congrArg (b :: ·) (ih (Nat.lt_of_succ_lt_succ h))

private theorem writeRow_writeRow (a b : α) (rows : List α) (i : Nat) :
    writeRow b (writeRow a rows i) i = writeRow b rows i := by
  induction rows generalizing i with
  | nil =>
      induction i with
      | zero => rfl
      | succ i ih => exact congrArg (default :: ·) ih
  | cons c rest ih =>
      cases i with
      | zero => rfl
      | succ i => exact congrArg (c :: ·) (ih i)

/-- The row of a thing. -/
def get (t : Table k α) (r : Ref k) : α := readRow t.rows r.index

/-- Replace the row of a thing. -/
def set (t : Table k α) (r : Ref k) (a : α) : Table k α := ⟨writeRow a t.rows r.index⟩

/-- Change the row of a thing. -/
def modify (t : Table k α) (r : Ref k) (f : α → α) : Table k α := t.set r (f (t.get r))

/-- The number of the next thing. -/
def next (t : Table k α) : Ref k := ⟨t.size⟩

/-- Add a row for the next thing. -/
def push (t : Table k α) (a : α) : Table k α := ⟨t.rows ++ [a]⟩

theorem get_set (t : Table k α) (r s : Ref k) (a : α) :
    (t.set r a).get s = if r = s then a else t.get s := by
  cases r; cases s; simp [get, set, readRow_writeRow]

@[simp]
theorem get_set_same (t : Table k α) (r : Ref k) (a : α) : (t.set r a).get r = a := by
  simp [get_set]

theorem get_set_of_ne (t : Table k α) {r s : Ref k} (a : α) (h : r ≠ s) :
    (t.set r a).get s = t.get s := by
  simp [get_set, h]

theorem get_modify (t : Table k α) (r s : Ref k) (f : α → α) :
    (t.modify r f).get s = if r = s then f (t.get r) else t.get s :=
  get_set t r s _

@[simp]
theorem get_modify_same (t : Table k α) (r : Ref k) (f : α → α) :
    (t.modify r f).get r = f (t.get r) := by
  simp [modify]

theorem get_modify_of_ne (t : Table k α) {r s : Ref k} (f : α → α) (h : r ≠ s) :
    (t.modify r f).get s = t.get s :=
  get_set_of_ne t _ h

theorem get_push (t : Table k α) (a : α) (r : Ref k) :
    (t.push a).get r = if r = t.next then a else t.get r := by
  cases r; simp [get, push, next, size, readRow_append]

@[simp]
theorem get_push_next (t : Table k α) (a : α) : (t.push a).get t.next = a := by
  simp [get_push]

/-- What a change leaves as it is in every row, it leaves as it is in all of them. -/
theorem proj_get_modify {β : Type} (t : Table k α) (r s : Ref k) {f : α → α} {g : α → β}
    (h : ∀ a, g (f a) = g a) : g ((t.modify r f).get s) = g (t.get s) := by
  rw [modify, get_set]
  split
  · next e => rw [h, e]
  · rfl

theorem get_of_size_le (t : Table k α) {r : Ref k} (h : t.size ≤ r.index) :
    t.get r = default :=
  readRow_of_length_le h

@[simp]
theorem get_next (t : Table k α) : t.get t.next = default :=
  t.get_of_size_le (Nat.le_refl _)

theorem size_le_size_set (t : Table k α) (r : Ref k) (a : α) : t.size ≤ (t.set r a).size :=
  length_le_length_writeRow a t.rows r.index

theorem size_le_size_modify (t : Table k α) (r : Ref k) (f : α → α) :
    t.size ≤ (t.modify r f).size :=
  t.size_le_size_set r _

/-- To change a row that has been added adds none. -/
theorem size_modify (t : Table k α) {r : Ref k} (f : α → α) (h : r.index < t.size) :
    (t.modify r f).size = t.size :=
  length_writeRow _ h

/-- A change that leaves a row that has been added as it is changes nothing. -/
theorem modify_eq_self (t : Table k α) {r : Ref k} {f : α → α} (h : r.index < t.size)
    (same : f (t.get r) = t.get r) : t.modify r f = t := by
  rw [modify, same]
  exact congrArg Table.mk (writeRow_readRow h)

/-- Of two changes of a row the second one builds on the first. -/
theorem modify_modify (t : Table k α) (r : Ref k) (f g : α → α) :
    (t.modify r f).modify r g = t.modify r fun a => g (f a) := by
  rw [modify, get_modify_same]
  exact congrArg Table.mk (writeRow_writeRow _ _ t.rows r.index)

omit [Inhabited α] in
theorem mem_refs {t : Table k α} {r : Ref k} : r ∈ t.refs ↔ r.index < t.size := by
  cases r
  simp [refs]

omit [Inhabited α] in
theorem nodup_refs (t : Table k α) : t.refs.Nodup :=
  List.Pairwise.map _ (fun _ _ ne same => ne (congrArg Ref.index same)) List.nodup_range

omit [Inhabited α] in
theorem refs_push (t : Table k α) (a : α) : (t.push a).refs = t.refs ++ [t.next] := by
  simp [refs, push, size, next, List.range_succ]

omit [Inhabited α] in
@[simp]
theorem size_push (t : Table k α) (a : α) : (t.push a).size = t.size + 1 := by
  simp [push, size]

end Table

end Animation
