/-
# Numbers of either sign

A finite number has a value, which may be negative. Rounding treats the sign apart from the
magnitude, and a magnitude with few enough digits is not rounded at all. So to multiply or divide
by a power of two is exact, unless the result is too large or lacks the digits.
-/

import Animation.Proofs.Binary.Rounding

namespace Animation

/-- The whole number that is left of a value when its fraction is dropped. -/
def towardZero (v : ℚ) : Int := if 0 ≤ v then ⌊v⌋ else ⌈v⌉

theorem towardZero_of_nonneg {v : ℚ} (h : 0 ≤ v) : towardZero v = ⌊v⌋ := if_pos h

theorem towardZero_neg {v : ℚ} (h : 0 ≤ v) : towardZero (-v) = -⌊v⌋ := by
  unfold towardZero
  split
  · next nonneg =>
      have zero : v = 0 := by linarith
      rw [zero]
      rfl
  · exact Int.ceil_neg

theorem towardZero_intCast (z : Int) : towardZero z = z := by
  unfold towardZero
  rw [Int.floor_intCast, Int.ceil_intCast, ite_self]

/-- Dropping the fraction takes away less than one. -/
theorem abs_towardZero_sub_lt (v : ℚ) : |(towardZero v : ℚ) - v| < 1 := by
  have floor := Int.floor_le v
  have floor' := Int.lt_floor_add_one v
  have ceil := Int.le_ceil v
  have ceil' := Int.ceil_lt_add_one v
  unfold towardZero
  rw [abs_lt]
  split <;> constructor <;> linarith

theorem IsNearest.unique {x : ℚ} {m n : Nat} (hm : IsNearest x m) (hn : IsNearest x n) : m = n :=
  Nat.le_antisymm (hm.mono hn le_rfl) (hn.mono hm le_rfl)

namespace Format

variable {f : Format}

/-- A larger value has no smaller unit. -/
theorem UnitFor.le_of_le {x y : ℚ} {d e : Int} (hx : f.UnitFor x d) (hy : f.UnitFor y e)
    (h : x ≤ y) : d ≤ e := by
  by_contra gt
  have low := hx.le_of_ne (by have := hy.least_le; omega)
  have between : (2 : ℚ) ^ (d + f.precision - 1) < 2 ^ (e + f.precision) :=
    lt_of_le_of_lt (low.trans h) hy.lt
  have := two_zpow_lt_iff.1 between
  omega

theorem UnitFor.unique {x : ℚ} {d e : Int} (hd : f.UnitFor x d) (he : f.UnitFor x e) : d = e :=
  Int.le_antisymm (hd.le_of_le he le_rfl) (he.le_of_le hd le_rfl)

/-- A magnitude with no more digits than the precision, none of them below the least unit. -/
def Holds (f : Format) (x : ℚ) : Prop :=
  ∃ (n : Nat) (e : Int), n < 2 ^ f.precision ∧ f.least ≤ e ∧ x = n * 2 ^ e

theorem holds_natCast {n : Nat} (hn : n < 2 ^ f.precision) (least : f.least ≤ 0) : f.Holds n :=
  ⟨n, 0, hn, least, by rw [zpow_zero, mul_one]⟩

theorem Holds.rounds {x : ℚ} (h : f.Holds x) : f.Rounds x x := by
  obtain ⟨n, e, hn, he, rfl⟩ := h
  exact .of_scaled hn he

end Format

namespace Binary

variable {f : Format}

/-- However a value is given, it is rounded to the same number. -/
theorem round_congr (negative : Bool) {num num' den den' : Nat} {shift shift' : Int}
    (h : 0 < den) (h' : 0 < den')
    (same : (num : ℚ) / den * 2 ^ shift = num' / den' * 2 ^ shift') :
    (round negative num den shift : Binary f) = round negative num' den' shift' := by
  obtain ⟨e, m, unit, nearest, eq⟩ := exists_round_eq (f := f) negative num h shift
  obtain ⟨e', m', unit', nearest', eq'⟩ := exists_round_eq (f := f) negative num' h' shift'
  rw [same] at unit nearest
  cases unit.unique unit'
  cases nearest.unique nearest'
  rw [eq, eq']

/-- A finite number, and its value. -/
def IsNumber (x : Binary f) (v : ℚ) : Prop :=
  ∃ negative m e h, x = finite negative m e h ∧ v = signed negative m * 2 ^ e

theorem signed_cast (negative : Bool) (m : Nat) :
    (signed negative m : ℚ) = signed negative 1 * m := by
  cases negative <;> simp [signed]

theorem abs_signed_one (negative : Bool) : |(signed negative 1 : ℚ)| = 1 := by
  cases negative <;> simp [signed]

theorem isNumber_of_isFinite {x : Binary f} (h : x.isFinite = true) : ∃ v, x.IsNumber v := by
  cases x with
  | finite negative m e canonical => exact ⟨_, negative, m, e, canonical, rfl, rfl⟩
  | nan => exact nomatch h
  | infinite negative => exact nomatch h

namespace IsNumber

variable {x y : Binary f} {v u : ℚ}

theorem isFinite (hx : x.IsNumber v) : x.isFinite = true := by
  obtain ⟨_, _, _, _, rfl, -⟩ := hx
  rfl

/-- A number has one value. -/
theorem unique (hx : x.IsNumber v) (hx' : x.IsNumber u) : v = u := by
  obtain ⟨_, _, _, _, rfl, rfl⟩ := hx
  obtain ⟨_, _, _, _, eq, rfl⟩ := hx'
  cases eq
  rfl

/-- Numbers of either sign are in the order of their values. -/
theorem compare?_eq (hx : x.IsNumber v) (hy : y.IsNumber u) :
    x.compare? y = some (compare v u) := by
  obtain ⟨_, _, _, _, rfl, rfl⟩ := hx
  obtain ⟨_, _, _, _, rfl, rfl⟩ := hy
  exact congrArg some (compareScaled_eq ..)

theorem lt_iff (hx : x.IsNumber v) (hy : y.IsNumber u) : x.lt y = true ↔ v < u :=
  lt_iff_of_compare? (hx.compare?_eq hy)

theorem le_iff (hx : x.IsNumber v) (hy : y.IsNumber u) : x.le y = true ↔ v ≤ u :=
  le_iff_of_compare? (hx.compare?_eq hy)

/-- Without its sign a number is a magnitude. -/
theorem isMagnitude_abs (hx : x.IsNumber v) : x.abs.IsMagnitude |v| := by
  obtain ⟨negative, m, e, h, rfl, rfl⟩ := hx
  refine ⟨m, e, h, rfl, ?_⟩
  rw [signed_cast, mul_assoc, abs_mul, abs_signed_one, one_mul,
    abs_of_nonneg (mul_nonneg (Nat.cast_nonneg m) (two_zpow_pos e).le)]

/-- The whole part of a number is found toward zero. -/
theorem truncate?_eq (hx : x.IsNumber v) : x.truncate? = some (towardZero v) := by
  obtain ⟨negative, m, e, h, rfl, rfl⟩ := hx
  have magnitude : (finite false m e h).IsMagnitude (m * 2 ^ e : ℚ) := ⟨m, e, h, rfl, rfl⟩
  have whole : ((m * 2 ^ e.toNat / 2 ^ (-e).toNat : Nat) : Int) = ⌊(m * 2 ^ e : ℚ)⌋ :=
    Option.some_inj.1 magnitude.truncate?_eq
  have nonneg := magnitude.nonneg
  unfold truncate?
  rw [signed_cast]
  cases negative with
  | false =>
      rw [show (signed false 1 : ℚ) = 1 by simp [signed], one_mul, towardZero_of_nonneg nonneg]
      exact congrArg some whole
  | true =>
      rw [show (signed true 1 : ℚ) = -1 by simp [signed], neg_one_mul, neg_mul,
        towardZero_neg nonneg, ← whole]
      rfl

end IsNumber

/-- A magnitude with few enough digits is not rounded, but it may be too large. -/
theorem isNumber_round_or (negative : Bool) {num den : Nat} {shift : Int} (h : 0 < den)
    (holds : f.Holds (num / den * 2 ^ shift)) :
    (round negative num den shift : Binary f).IsNumber
        (signed negative 1 * (num / den * 2 ^ shift)) ∨
      (round negative num den shift : Binary f) = infinite negative ∧
        limit f ≤ num / den * 2 ^ shift := by
  obtain ⟨e, m, unit, nearest, eq⟩ := exists_round_eq (f := f) negative num h shift
  generalize (num : ℚ) / den * 2 ^ shift = x at *
  have exact : x = m * 2 ^ e := holds.rounds.unique ⟨e, m, unit, nearest, rfl⟩
  have room : m < 2 ^ f.precision := by
    have lt := unit.lt
    rw [exact, add_comm, two_zpow_add, zpow_natCast, mul_lt_mul_iff_left₀ (two_zpow_pos e)] at lt
    exact_mod_cast lt
  rw [eq, if_neg (Nat.ne_of_lt room)]
  by_cases canonical : f.Canonical m e
  · left
    refine ⟨negative, m, e, canonical, ofParts_of_canonical _ _, ?_⟩
    rw [exact, signed_cast negative m, mul_assoc]
  · right
    refine ⟨dif_neg canonical, ?_⟩
    have greatest := f.least_le_greatest
    have fills : e ≠ f.least → 2 ^ (f.precision - 1) ≤ m := unit.le_nearest nearest
    have large : f.greatest < e := by
      by_contra le
      refine canonical ⟨room, unit.least_le, Int.not_lt.1 le, ?_⟩
      by_cases least : e = f.least
      · exact .inl least
      · exact .inr (fills least)
    calc limit f ≤ 2 ^ (e + f.precision - 1) := two_zpow_le_iff.2 (by omega)
      _ ≤ x := unit.le_of_ne (by omega)

/-- A whole number with few enough digits is a number. -/
theorem isNumber_ofInt {z : Int} (hz : z.natAbs < 2 ^ f.precision) (least : f.least ≤ 0)
    (greatest : 1 ≤ f.greatest) : (ofInt z : Binary f).IsNumber z := by
  have value : (z.natAbs : ℚ) / (1 : Nat) * 2 ^ (0 : Int) = z.natAbs := by
    rw [Nat.cast_one, div_one, zpow_zero, mul_one]
  have sign : (signed (decide (z < 0)) 1 : ℚ) * z.natAbs = z := by
    rw [← signed_cast]
    congr 1
    unfold signed
    simp only [decide_eq_true_eq]
    split <;> omega
  have small : (z.natAbs : ℚ) < limit f :=
    lt_limit f.precision (by exact_mod_cast hz) (by omega)
  rcases isNumber_round_or (f := f) (decide (z < 0)) Nat.one_pos
    (value ▸ Format.holds_natCast hz least) with number | ⟨_, large⟩
  · rw [value, sign] at number
    exact number
  · rw [value] at large
    exact absurd small (not_lt.2 large)

/-- A change of the exponent is exact if the digits are few enough, and the result is not too
large. -/
theorem IsNumber.scale_or {x : Binary f} {v : ℚ} (hx : x.IsNumber v) {k : Int}
    (holds : f.Holds |v * 2 ^ k|) :
    (x.scale k).IsNumber (v * 2 ^ k) ∨
      (∃ negative, x.scale k = infinite negative) ∧ limit f ≤ |v * 2 ^ k| := by
  obtain ⟨negative, m, e, h, rfl, rfl⟩ := hx
  have shifted : (signed negative m : ℚ) * 2 ^ e * 2 ^ k =
      signed negative 1 * (m / (1 : Nat) * 2 ^ (e + k)) := by
    rw [signed_cast, two_zpow_add, Nat.cast_one, div_one]
    ring
  have magnitude : |(signed negative m : ℚ) * 2 ^ e * 2 ^ k| = m / (1 : Nat) * 2 ^ (e + k) := by
    rw [shifted, abs_mul, abs_signed_one, one_mul, abs_of_nonneg]
    have := two_zpow_pos (e + k)
    positivity
  rw [magnitude] at holds ⊢
  rw [shifted]
  exact (isNumber_round_or negative Nat.one_pos holds).imp_right fun large =>
    ⟨⟨negative, large.1⟩, large.2⟩

/-- A larger exponent asks for no more digits. -/
theorem IsNumber.holds_scale {x : Binary f} {v : ℚ} (hx : x.IsNumber v) {k : Int} (hk : 0 ≤ k) :
    f.Holds |v * 2 ^ k| := by
  obtain ⟨negative, m, e, h, rfl, rfl⟩ := hx
  refine ⟨m, e + k, h.1, by have := h.2.1; omega, ?_⟩
  have := two_zpow_pos (e + k)
  rw [signed_cast, mul_assoc, mul_assoc, abs_mul, abs_signed_one, one_mul, ← two_zpow_add,
    abs_of_nonneg (by positivity)]

end Binary

end Animation
