/-
# What a text carries

The JSON value of a number, a name or the like has no parts. A text format carries such a value
if reading gives back what was written. Nothing is asked of a number that is not finite but that it
becomes null, and of the other numbers a format may carry some and round the rest.

The texts of this library carry null, the truth values, all whole numbers of 64 binary digits and
all strings, whatever characters are in them. They have null for what is not finite. A finite
number is written by its shortest decimal, but the reader rounds more than once on the way back, so
that only those are taken to be carried of which the text is seen to give them back.
-/

import Animation.Json.Codec
import Mathlib.Data.List.TakeWhile
import Mathlib.Tactic.IntervalCases

namespace Animation.Json

/-- A text format, which takes a value without parts and gives what is read of its text, carries
null, truth values, whole numbers and strings, and those of the finite numbers that are among
`numbers`. What is not finite becomes null. -/
structure Carries (carry : Json → Except DecodeError Json) (numbers : Double → Prop) : Prop where
  null : carry .null = .ok .null
  bool (b : Bool) : carry (.bool b) = .ok (.bool b)
  natural (n : UInt64) : carry (.natural n) = .ok (.natural n)
  text (s : String) : carry (.text s) = .ok (.text s)
  float {x : Double} (finite : x.isFinite = true) (h : numbers x) :
    carry (.float x) = .ok (.float x)
  beyond {x : Double} (h : x.isFinite = false) : carry (.float x) = .ok .null

/-- Write a value and read the text. -/
def reread (j : Json) : Except DecodeError Json := decode .ok j.write

variable {α : Type} {c : Char} {cs rest : List Char} {calls n : Nat}

/-- Who has a value of the text can have it from what is reread. -/
theorem decode_of_reread {j k : Json} (h : reread j = .ok k) (read : Json → Except DecodeError α) :
    decode read j.write = read k := by
  unfold reread decode at h
  unfold decode
  dsimp only at h ⊢
  cases closed : (Document.ofText j.write).isClosed with
  | false =>
      rw [closed] at h
      exact nomatch h
  | true =>
      rw [closed] at h
      cases h
      cases read (Document.ofText j.write).root <;> rfl

/-- A text that is one value up to its end is read as this value. -/
theorem reread_of_readValue {j k : Json} (cs : List Char) (written : j.write.toList = cs)
    (h : ∀ calls, readValue (calls + 1) cs = (k, some [])) : reread j = .ok k := by
  have document : Document.ofText j.write = ⟨k, true⟩ := by
    unfold Document.ofText
    rw [written]
    dsimp only
    rw [h]
    rfl
  unfold reread decode
  rw [document]
  rfl

/-- Digits are gathered as long as their number fits a word, and it only grows. -/
theorem gather_eq (fits : Nat.ofDigitChars 10 cs n ≤ Word.max64) :
    gather n cs = (Nat.ofDigitChars 10 cs n, 0) := by
  induction cs generalizing n with
  | nil => rfl
  | cons c rest ih =>
      have next : n * 10 + digitValue c = 10 * n + (c.toNat - '0'.toNat) := by
        rw [Nat.mul_comm]
        rfl
      have least : n * 10 + digitValue c ≤ Nat.ofDigitChars 10 (c :: rest) n := by
        rw [Nat.ofDigitChars_cons, Nat.ofDigitChars_eq_ofDigitChars_zero, next]
        exact Nat.le_add_right_of_le (Nat.le_mul_of_pos_left _ (Nat.pow_pos (by decide)))
      rw [gather, if_pos (Nat.le_trans least fits)]
      rw [Nat.ofDigitChars_cons] at fits ⊢
      rw [next, ih fits]

/-- A number of more than one digit does not begin with a zero. -/
theorem head?_toDigits_ne_zero (h : n ≠ 0) : (Nat.toDigits 10 n).head? ≠ some '0' := by
  induction n using Nat.strongRecOn with
  | ind n ih =>
      by_cases small : n < 10
      · rw [Nat.toDigits_of_lt_base small]
        interval_cases n <;> first | exact absurd rfl h | decide
      · have large : 10 ≤ n := Nat.le_of_not_lt small
        have front : (Nat.toDigits 10 n).head? = (Nat.toDigits 10 (n / 10)).head? := by
          rw [Nat.toDigits_of_base_le (by decide) large, List.head?_append,
            Option.or_of_isSome (List.isSome_head?.2 Nat.toDigits_ne_nil)]
        rw [front]
        exact ih (n / 10) (by omega) (by omega)

theorem not_leading_zero (n : Nat) :
    ¬ ((Nat.toDigits 10 n).head? = some '0' ∧ 1 < (Nat.toDigits 10 n).length) := by
  rintro ⟨zero, long⟩
  by_cases h : n = 0
  · subst h
    exact absurd long (by decide)
  · exact head?_toDigits_ne_zero h zero

theorem splitDigits_of_forall_isDigit (h : ∀ c ∈ cs, c.isDigit = true) :
    splitDigits cs = (cs, []) := by
  unfold splitDigits
  rw [List.takeWhile_eq_self_iff.2 h, List.dropWhile_eq_nil_iff.2 h]

theorem readUnsigned_toDigits (fits : n ≤ Word.max64) :
    readUnsigned false (Nat.toDigits 10 n) = some (natural (UInt64.ofNat n), []) := by
  have value : Nat.ofDigitChars 10 (Nat.toDigits 10 n) 0 = n := Nat.ofDigitChars_ten_toDigits
  have digits : splitDigits (Nat.toDigits 10 n) = (Nat.toDigits 10 n, []) :=
    splitDigits_of_forall_isDigit fun _ => Nat.isDigit_of_mem_toDigits (by decide) (by decide)
  have some_digit : (Nat.toDigits 10 n).isEmpty = false :=
    List.isEmpty_eq_false_iff.2 Nat.toDigits_ne_nil
  unfold readUnsigned
  simp only [digits, some_digit, Bool.false_eq_true, false_or, if_neg (not_leading_zero n),
    gather_eq (value.symm ▸ fits), value]
  rfl

/-- A digit is nothing else that can begin a value. -/
theorem readValue_digit {j : Json} (digit : c.isDigit = true)
    (number : readUnsigned false (c :: rest) = some (j, [])) :
    readValue (calls + 1) (c :: rest) = (j, some []) := by
  have ne : ∀ d : Char, d.isDigit = false → c ≠ d := by
    rintro d other rfl
    rw [digit] at other
    contradiction
  have front : skipBlank (c :: rest) = c :: rest := by simp [skipBlank, ne]
  have unsigned : readNumber (c :: rest) = readUnsigned false (c :: rest) := by
    unfold readNumber
    split
    · next h => exact absurd (List.cons.inj h).1 (ne '-' rfl)
    · rfl
  rw [readValue, front]
  split
  case h_7 => simp only [unsigned, number]
  all_goals next h => exact absurd (List.cons.inj h).1 (ne _ rfl)

theorem reread_natural (n : UInt64) : reread (natural n) = .ok (natural n) := by
  refine reread_of_readValue (Nat.toDigits 10 n.toNat) Nat.toList_repr fun calls => ?_
  have fits : n.toNat ≤ Word.max64 := Nat.le_of_lt_succ n.toNat_lt
  have number := readUnsigned_toDigits fits
  rw [UInt64.ofNat_toNat] at number
  cases h : Nat.toDigits 10 n.toNat with
  | nil => exact absurd h Nat.toDigits_ne_nil
  | cons c rest =>
      have first : c ∈ Nat.toDigits 10 n.toNat := h ▸ List.mem_cons_self ..
      rw [h] at number
      exact readValue_digit (Nat.isDigit_of_mem_toDigits (by decide) (by decide) first) number

/-- A character that needs no escape stands for itself. -/
theorem readCodes_cons (quote : c ≠ '"') (slash : c ≠ '\\') (printed : ¬ c.toNat < 32)
    (cs : List Char) :
    readCodes (c :: cs) = (readCodes cs).map fun (codes, rest) => (c.toNat :: codes, rest) := by
  have plain : ¬ (c.toNat < 32 ∨ c = '\\') := not_or.2 ⟨printed, slash⟩
  rw [readCodes]
  · rw [if_neg plain]
    cases readCodes cs <;> rfl
  all_goals
    intros
    simp_all

/-- What is read of an escape of one letter. -/
theorem readCodes_short {e : Char} {code : Nat} (letter : e ≠ 'u') (h : shortEscape? e = some code)
    (cs : List Char) :
    readCodes ('\\' :: e :: cs) = (readCodes cs).map fun (codes, rest) =>
      (code :: codes, rest) := by
  rw [readCodes]
  · rw [h]
    cases readCodes cs <;> rfl
  · intro _ _ _ _ _ first
    exact absurd first letter

/-- What is read of an escape of four digits. -/
theorem readCodes_digits {a b c d : Char} {code : Nat} (h : hexCode? a b c d = some code)
    (cs : List Char) :
    readCodes ('\\' :: 'u' :: a :: b :: c :: d :: cs) =
      (readCodes cs).map fun (codes, rest) => (code :: codes, rest) := by
  rw [readCodes, h]
  cases readCodes cs <;> rfl

/-- A character is read as its code, escaped or not. -/
theorem readCodes_escape (c : Char) (cs : List Char) :
    readCodes (escape c ++ cs) =
      (readCodes cs).map fun (codes, rest) => (c.toNat :: codes, rest) := by
  by_cases control : c.toNat < 32
  · -- one of the few characters that are never written as they are
    have same : c = Char.ofNat c.toNat := (Char.ofNat_toNat c).symm
    generalize c.toNat = code at same control
    subst same
    interval_cases code <;>
      first | exact readCodes_short (by decide) rfl cs | exact readCodes_digits rfl cs
  by_cases quote : c = '"'
  · subst quote
    exact readCodes_short (by decide) rfl cs
  by_cases slash : c = '\\'
  · subst slash
    exact readCodes_short (by decide) rfl cs
  have plain : escape c = [c] := by
    have ne : ∀ code < 32, c ≠ Char.ofNat code := by
      rintro code small rfl
      interval_cases code <;> exact control (by decide)
    unfold escape
    rw [if_neg quote, if_neg slash, if_neg (ne 10 (by decide)), if_neg (ne 13 (by decide)),
      if_neg (ne 9 (by decide)), if_neg (ne 8 (by decide)), if_neg (ne 12 (by decide)),
      if_neg control]
  rw [plain]
  exact readCodes_cons quote slash control cs

theorem readCodes_flatMap_escape (cs rest : List Char) :
    readCodes (cs.flatMap escape ++ '"' :: rest) = some (cs.map Char.toNat, rest) := by
  induction cs with
  | nil => rfl
  | cons c cs ih =>
      rw [List.flatMap_cons, List.append_assoc, readCodes_escape, ih]
      rfl

/-- The codes of characters have no halves of pairs among them. -/
theorem assemble_map_toNat (cs : List Char) : assemble (cs.map Char.toNat) = some cs := by
  induction cs with
  | nil => rfl
  | cons c cs ih =>
      have valid : c.toNat < 0xD800 ∨ 0xDFFF < c.toNat ∧ c.toNat < 0x110000 := c.valid
      rw [List.map_cons, assemble.eq_def]
      dsimp only
      rw [if_neg (by omega), if_neg (by omega), ih, Char.ofNat_toNat]
      rfl

theorem reread_text (s : String) : reread (text s) = .ok (text s) := by
  refine reread_of_readValue ('"' :: (s.toList.flatMap escape ++ ['"'])) String.toList_ofList
    fun calls => ?_
  have string : readString (s.toList.flatMap escape ++ ['"']) = some (some s, []) := by
    unfold readString
    rw [readCodes_flatMap_escape]
    simp [assemble_map_toNat]
  have front (cs : List Char) : skipBlank ('"' :: cs) = '"' :: cs := rfl
  simp only [readValue, front, string]

/-- Nothing has to be assumed of the texts of this library but that they give back the finite
number at hand. -/
theorem carries_reread : Carries reread fun x => reread (.float x) = .ok (.float x) where
  null := rfl
  bool b := by cases b <;> rfl
  natural := reread_natural
  text := reread_text
  float _ h := h
  beyond h := by
    have written : ∀ x : Double, x.isFinite = false → write (.float x) = "null" := fun x h =>
      if_neg (ne_true_of_eq_false h)
    unfold reread
    rw [written _ h]
    rfl

end Animation.Json
