/-
# Counts in machine words

Frames and rates are counts that have to fit a machine word. A sum or a difference
that leaves its word is a violation; narrowing keeps the low digits.
-/

import Animation.Failure

namespace Animation.Word

/-- The largest count of 32 binary digits. -/
def max32 : Nat := 4294967295

/-- The largest count of 64 binary digits. -/
def max64 : Nat := 18446744073709551615

/-- A sum within 32 digits. -/
def add32 (a b : Nat) : Except Violation Nat :=
  if a + b ≤ max32 then .ok (a + b) else .error .addOverflow

/-- A sum within 64 digits. -/
def add64 (a b : Nat) : Except Violation Nat :=
  if a + b ≤ max64 then .ok (a + b) else .error .addOverflow

/-- A difference that is not negative. -/
def sub (a b : Nat) : Except Violation Nat :=
  if b ≤ a then .ok (a - b) else .error .subOverflow

/-- The largest product of 64 digits stands for all larger ones. -/
def mulSaturating64 (a b : Nat) : Nat := min (a * b) max64

/-- The low 32 digits. -/
def narrow32 (a : Nat) : Nat := a % (max32 + 1)

/-- A computation that comes to its end does so part by part. -/
theorem exists_of_bind_eq_ok {ε α β : Type} {x : Except ε α} {f : α → Except ε β} {b : β}
    (h : x >>= f = .ok b) : ∃ a, x = .ok a ∧ f a = .ok b := by
  cases x with
  | error e => exact nomatch h
  | ok a => exact ⟨a, rfl, h⟩

theorem add64_eq_ok {a b c : Nat} (h : add64 a b = .ok c) : c = a + b := by
  unfold add64 at h
  split at h
  · cases h; rfl
  · exact nomatch h

theorem narrow32_of_le {a : Nat} (h : a ≤ max32) : narrow32 a = a :=
  Nat.mod_eq_of_lt (Nat.lt_succ_of_le h)

end Animation.Word
