/-
# Rounding keeps the order

To round a value to a format is to choose the unit that goes with it and to take the
nearest whole number of units. As a relation between rational numbers this does not depend
on how the value is given, it keeps the order, and it leaves alone what the format can
hold. The executable rounding is in this relation.
-/

import Animation.Binary.Arithmetic
import Mathlib.Algebra.Order.Field.Power
import Mathlib.Data.Rat.Floor
import Mathlib.Tactic.FieldSimp
import Mathlib.Tactic.Linarith
import Mathlib.Tactic.NormNum
import Mathlib.Tactic.Positivity
import Mathlib.Tactic.Ring

namespace Animation

/-- A whole number that is nearest to a value, and is even if another one is as near. -/
structure IsNearest (x : ℚ) (n : Nat) : Prop where
  le_above : 2 * x ≤ 2 * n + 1
  below_le : 2 * n ≤ 2 * x + 1
  even_of_above : 2 * x = 2 * n + 1 → n % 2 = 0
  even_of_below : 2 * n = 2 * x + 1 → n % 2 = 0

namespace IsNearest

variable {x y : ℚ} {m n : Nat}

theorem natCast (n : Nat) : IsNearest n n where
  le_above := by linarith
  below_le := by linarith
  even_of_above h := by linarith
  even_of_below h := by linarith

theorem mono (hx : IsNearest x m) (hy : IsNearest y n) (h : x ≤ y) : m ≤ n := by
  by_contra gt
  have step : (n : ℚ) + 1 ≤ m := by exact_mod_cast Nat.lt_of_not_le gt
  have above := hy.le_above
  have below := hx.below_le
  -- Both values lie halfway between the two whole numbers, of which only one is even.
  have odd : m = n + 1 := by
    have eq : (m : ℚ) = n + 1 := by linarith
    exact_mod_cast eq
  have even_m := hx.even_of_below (by linarith)
  have even_n := hy.even_of_above (by linarith)
  omega

theorem le_of_le (hx : IsNearest x m) (h : x ≤ n) : m ≤ n := hx.mono (.natCast n) h

theorem le_of_ge (hx : IsNearest x m) (h : n ≤ x) : n ≤ m := (natCast n).mono hx h

end IsNearest

theorem isNearest_nearestEven (num : Nat) {den : Nat} (h : 0 < den) :
    IsNearest (num / den) (nearestEven num den) := by
  have hden : (0 : ℚ) < den := by exact_mod_cast h
  have parts : (num : ℚ) / den = (num / den : Nat) + (num % den : Nat) / den := by
    rw [add_div' _ _ _ hden.ne', div_left_inj' hden.ne']
    exact_mod_cast (Nat.div_add_mod' num den).symm
  have rest_lt : ((num % den : Nat) : ℚ) / den < 1 := by
    rw [div_lt_one hden]
    exact_mod_cast Nat.mod_lt num h
  have rest_nonneg : (0 : ℚ) ≤ (num % den : Nat) / den := by positivity
  have half : 2 * (num % den) < den ↔ 2 * (((num % den : Nat) : ℚ) / den) < 1 := by
    rw [← mul_div_assoc, div_lt_one hden]
    exact_mod_cast Iff.rfl
  have tie : 2 * (num % den) = den ↔ 2 * (((num % den : Nat) : ℚ) / den) = 1 := by
    rw [← mul_div_assoc, div_eq_one_iff_eq hden.ne']
    exact_mod_cast Iff.rfl
  rw [parts]
  unfold nearestEven
  simp only [half, tie]
  generalize ((num % den : Nat) : ℚ) / den = rest at *
  generalize num / den = below at *
  split
  · next low =>
      refine ⟨?_, by linarith, fun eq => ?_, fun eq => by linarith⟩
      · rcases low with low | ⟨low, _⟩ <;> linarith
      · rcases low with low | ⟨_, even⟩
        · linarith
        · exact even
  · next high =>
      rw [not_or, not_lt, not_and] at high
      have above : ((below + 1 : Nat) : ℚ) = below + 1 := Nat.cast_succ below
      refine ⟨by linarith, by linarith [high.1], fun eq => by linarith, fun eq => ?_⟩
      have odd := high.2 (by linarith)
      omega

theorem two_zpow_eq (e : Int) : (2 : ℚ) ^ e = 2 ^ e.toNat / 2 ^ (-e).toNat := by
  rcases Int.le_total 0 e with h | h
  · rw [Int.toNat_of_nonpos (Int.neg_nonpos_of_nonneg h), pow_zero, div_one, ← zpow_natCast,
      Int.toNat_of_nonneg h]
  · rw [Int.toNat_of_nonpos h, pow_zero, one_div, ← zpow_natCast,
      Int.toNat_of_nonneg (Int.neg_nonneg_of_nonpos h), zpow_neg, inv_inv]

theorem two_zpow_pos (e : Int) : (0 : ℚ) < 2 ^ e := zpow_pos (by norm_num) e

theorem two_zpow_le_iff {d e : Int} : (2 : ℚ) ^ d ≤ 2 ^ e ↔ d ≤ e :=
  zpow_le_zpow_iff_right₀ (by norm_num)

theorem two_zpow_lt_iff {d e : Int} : (2 : ℚ) ^ d < 2 ^ e ↔ d < e :=
  zpow_lt_zpow_iff_right₀ (by norm_num)

theorem two_zpow_add (d e : Int) : (2 : ℚ) ^ (d + e) = 2 ^ d * 2 ^ e :=
  zpow_add₀ (by norm_num) d e

/-- A quotient of whole numbers that are scaled so as to stay whole. -/
theorem scaled_div_scaled (num den : Nat) (e : Int) :
    ((num * 2 ^ e.toNat : Nat) : ℚ) / (den * 2 ^ (-e).toNat : Nat) = num / den * 2 ^ e := by
  rw [two_zpow_eq]
  push_cast
  exact mul_div_mul_comm _ _ _ _

theorem binaryLog_spec {num den : Nat} (hn : 0 < num) (hd : 0 < den) :
    (2 : ℚ) ^ binaryLog num den ≤ num / den ∧ (num : ℚ) / den < 2 ^ (binaryLog num den + 1) := by
  have hden : (0 : ℚ) < den := by exact_mod_cast hd
  have num_low : (2 : ℚ) ^ (num.log2 : Int) ≤ num := by
    exact_mod_cast Nat.log2_self_le hn.ne'
  have num_high : (num : ℚ) < 2 ^ (num.log2 + 1 : Int) := by
    exact_mod_cast Nat.lt_log2_self (n := num)
  have den_low : (2 : ℚ) ^ (den.log2 : Int) ≤ den := by
    exact_mod_cast Nat.log2_self_le hd.ne'
  have den_high : (den : ℚ) < 2 ^ (den.log2 + 1 : Int) := by
    exact_mod_cast Nat.lt_log2_self (n := den)
  have low : (2 : ℚ) ^ ((num.log2 : Int) - den.log2 - 1) ≤ num / den := by
    rw [le_div_iff₀ hden]
    calc (2 : ℚ) ^ ((num.log2 : Int) - den.log2 - 1) * den
        ≤ 2 ^ ((num.log2 : Int) - den.log2 - 1) * 2 ^ (den.log2 + 1 : Int) :=
          mul_le_mul_of_nonneg_left den_high.le (two_zpow_pos _).le
      _ = 2 ^ (num.log2 : Int) := by rw [← two_zpow_add]; congr 1; omega
      _ ≤ num := num_low
  have high : (num : ℚ) / den < 2 ^ ((num.log2 : Int) - den.log2 + 1) := by
    rw [div_lt_iff₀ hden]
    calc (num : ℚ) < 2 ^ (num.log2 + 1 : Int) := num_high
      _ = 2 ^ ((num.log2 : Int) - den.log2 + 1) * 2 ^ (den.log2 : Int) := by
          rw [← two_zpow_add]; congr 1; omega
      _ ≤ 2 ^ ((num.log2 : Int) - den.log2 + 1) * den :=
          mul_le_mul_of_nonneg_left den_low (two_zpow_pos _).le
  have guess : num * 2 ^ (-((num.log2 : Int) - den.log2)).toNat <
      den * 2 ^ ((num.log2 : Int) - den.log2).toNat ↔
      (num : ℚ) / den < 2 ^ ((num.log2 : Int) - den.log2) := by
    rw [two_zpow_eq, div_lt_div_iff₀ hden (by positivity), mul_comm (2 ^ _ : ℚ) den]
    exact_mod_cast Iff.rfl
  unfold binaryLog
  simp only [guess]
  split
  · next less =>
      rw [Int.sub_add_cancel]
      exact ⟨low, less⟩
  · next more => exact ⟨le_of_not_gt more, high⟩

/-- The exponent of the unit to which a format rounds a value. -/
structure Format.UnitFor (f : Format) (x : ℚ) (e : Int) : Prop where
  least_le : f.least ≤ e
  lt : x < 2 ^ (e + f.precision)
  le_of_ne : e ≠ f.least → 2 ^ (e + f.precision - 1) ≤ x

namespace Format.UnitFor

variable {f : Format} {x : ℚ} {e : Int} {n : Nat}

/-- Rounded to its unit, a value has no more digits than the precision, or just one more. -/
theorem nearest_le (unit : f.UnitFor x e) (nearest : IsNearest (x / 2 ^ e) n) :
    n ≤ 2 ^ f.precision := by
  apply nearest.le_of_le
  rw [div_le_iff₀ (two_zpow_pos e)]
  push_cast
  rw [← zpow_natCast, ← two_zpow_add, add_comm]
  exact unit.lt.le

/-- Above the least unit, a value rounded to its unit fills the precision. -/
theorem le_nearest (unit : f.UnitFor x e) (nearest : IsNearest (x / 2 ^ e) n)
    (ne : e ≠ f.least) : 2 ^ (f.precision - 1) ≤ n := by
  have positive := f.precision_pos
  apply nearest.le_of_ge
  rw [le_div_iff₀ (two_zpow_pos e)]
  push_cast
  rw [← zpow_natCast, ← two_zpow_add]
  have ge := unit.le_of_ne ne
  rwa [show ((f.precision - 1 : Nat) : Int) + e = e + f.precision - 1 by omega]

end Format.UnitFor

theorem Format.unitFor_unitExponent (f : Format) (num : Nat) {den : Nat} (h : 0 < den)
    (shift : Int) : f.UnitFor (num / den * 2 ^ shift) (f.unitExponent num den shift) := by
  have positive := f.precision_pos
  unfold unitExponent
  split
  · next none =>
      refine ⟨Int.le_refl _, ?_, fun ne => absurd rfl ne⟩
      rw [none, Nat.cast_zero, zero_div, zero_mul]
      exact two_zpow_pos _
  · next some =>
      obtain ⟨low, high⟩ := binaryLog_spec (Nat.pos_of_ne_zero some) h
      refine ⟨Int.le_max_left _ _, ?_, fun ne => ?_⟩
      · calc (num : ℚ) / den * 2 ^ shift
            < 2 ^ (binaryLog num den + 1) * 2 ^ shift :=
              mul_lt_mul_of_pos_right high (two_zpow_pos _)
          _ = 2 ^ (binaryLog num den + 1 + shift) := (two_zpow_add _ _).symm
          _ ≤ _ := two_zpow_le_iff.2 (by omega)
      · calc (2 : ℚ) ^ (max f.least (binaryLog num den + shift - (f.precision - 1 : Nat)) +
              f.precision - 1)
            = 2 ^ (binaryLog num den + shift) := by congr 1; omega
          _ = 2 ^ binaryLog num den * 2 ^ shift := two_zpow_add _ _
          _ ≤ _ := mul_le_mul_of_nonneg_right low (two_zpow_pos _).le

/-! ## Rounding -/

/-- The format rounds a value to another one. -/
def Format.Rounds (f : Format) (x v : ℚ) : Prop :=
  ∃ (e : Int) (n : Nat), f.UnitFor x e ∧ IsNearest (x / 2 ^ e) n ∧ v = n * 2 ^ e

namespace Format.Rounds

variable {f : Format} {x y v v' : ℚ}

/-- Rounding keeps the order. Between two values with different units lies a power of two,
which both formats of value hold. -/
theorem mono (hx : f.Rounds x v) (hy : f.Rounds y v') (h : x ≤ y) : v ≤ v' := by
  obtain ⟨d, m, unit, nearest, rfl⟩ := hx
  obtain ⟨e, n, unit', nearest', rfl⟩ := hy
  rcases Int.lt_trichotomy d e with less | rfl | more
  · have top := unit.nearest_le nearest
    have bottom := unit'.le_nearest nearest' (by have := unit.least_le; omega)
    calc (m : ℚ) * 2 ^ d ≤ (2 ^ f.precision : Nat) * 2 ^ d :=
          mul_le_mul_of_nonneg_right (by exact_mod_cast top) (two_zpow_pos d).le
      _ = 2 ^ (f.precision + d) := by push_cast; rw [two_zpow_add, zpow_natCast]
      _ ≤ 2 ^ ((f.precision - 1 : Nat) + e) := two_zpow_le_iff.2 (by have := f.precision_pos; omega)
      _ = (2 ^ (f.precision - 1) : Nat) * 2 ^ e := by push_cast; rw [two_zpow_add, zpow_natCast]
      _ ≤ n * 2 ^ e := mul_le_mul_of_nonneg_right (by exact_mod_cast bottom) (two_zpow_pos e).le
  · refine mul_le_mul_of_nonneg_right ?_ (two_zpow_pos d).le
    exact_mod_cast nearest.mono nearest' (div_le_div_of_nonneg_right h (two_zpow_pos d).le)
  · -- The larger value would have the smaller unit.
    have low := unit.le_of_ne (by have := unit'.least_le; omega)
    have high := unit'.lt
    have between : (2 : ℚ) ^ (d + f.precision - 1) < 2 ^ (e + f.precision) := by linarith
    have := two_zpow_lt_iff.1 between
    omega

theorem unique (hx : f.Rounds x v) (hx' : f.Rounds x v') : v = v' :=
  le_antisymm (hx.mono hx' le_rfl) (hx'.mono hx le_rfl)

/-- What the format can hold is rounded to itself. -/
theorem of_scaled {n : Nat} {e : Int} (hn : n < 2 ^ f.precision) (he : f.least ≤ e) :
    f.Rounds (n * 2 ^ e) (n * 2 ^ e) := by
  have unit := f.unitFor_unitExponent n Nat.one_pos e
  rw [Nat.cast_one, div_one] at unit
  generalize f.unitExponent n 1 e = u at unit
  have le : u ≤ e := by
    by_cases least : u = f.least
    · omega
    · have low := unit.le_of_ne least
      have high : (n : ℚ) * 2 ^ e < 2 ^ (f.precision + e) := by
        rw [two_zpow_add, zpow_natCast]
        exact mul_lt_mul_of_pos_right (by exact_mod_cast hn) (two_zpow_pos e)
      have := two_zpow_lt_iff.1 (lt_of_le_of_lt low high)
      omega
  have split : (n : ℚ) * 2 ^ e = (n * 2 ^ (e - u).toNat : Nat) * 2 ^ u := by
    push_cast
    rw [mul_assoc, ← zpow_natCast, ← two_zpow_add, Int.toNat_of_nonneg (by omega)]
    congr 2
    omega
  refine ⟨u, n * 2 ^ (e - u).toNat, unit, ?_, split⟩
  rw [split, mul_div_cancel_right₀ _ (two_zpow_pos u).ne']
  exact .natCast _

theorem natCast {n : Nat} (hn : n < 2 ^ f.precision) (h : f.least ≤ 0) : f.Rounds n n := by
  have exact := of_scaled hn h
  rwa [zpow_zero, mul_one] at exact

end Format.Rounds

namespace Binary

variable {f : Format}

/-- A finite number that is not negative, and its value. -/
def IsMagnitude (x : Binary f) (v : ℚ) : Prop :=
  ∃ m e h, x = finite false m e h ∧ v = m * 2 ^ e

/-- Values below this are not too large for the format. -/
def limit (f : Format) : ℚ := 2 ^ (f.greatest + f.precision - 1)

theorem lt_limit {x : ℚ} (k : Nat) (h : x < 2 ^ k) (hk : k ≤ f.greatest + f.precision - 1) :
    x < limit f := by
  rw [← zpow_natCast] at h
  exact lt_of_lt_of_le h (two_zpow_le_iff.2 hk)

/-- A value is rounded to the nearest whole number of its unit. If that needs one digit too many,
the unit doubles. -/
theorem exists_round_eq (negative : Bool) (num : Nat) {den : Nat} (h : 0 < den) (shift : Int) :
    ∃ e m, f.UnitFor (num / den * 2 ^ shift) e ∧
      IsNearest (num / den * 2 ^ shift / 2 ^ e) m ∧
      (round negative num den shift : Binary f) =
        if m = 2 ^ f.precision then ofParts negative (2 ^ (f.precision - 1)) (e + 1)
        else ofParts negative m e := by
  have scaled := scaled_div_scaled num den (shift - f.unitExponent num den shift)
  rw [Int.neg_sub, zpow_sub₀ (by norm_num : (2 : ℚ) ≠ 0), ← mul_div_assoc] at scaled
  have nearest := isNearest_nearestEven (num * 2 ^ (shift - f.unitExponent num den shift).toNat)
    (Nat.mul_pos h (Nat.pow_pos (by decide)) :
      0 < den * 2 ^ (f.unitExponent num den shift - shift).toNat)
  rw [scaled] at nearest
  exact ⟨_, _, f.unitFor_unitExponent num h shift, nearest, rfl⟩

/-- A value that is not too large is rounded to a number. -/
theorem exists_isMagnitude_round {num den : Nat} {shift : Int} (h : 0 < den)
    (bound : (num : ℚ) / den * 2 ^ shift < limit f) :
    ∃ v, (round false num den shift : Binary f).IsMagnitude v ∧
      f.Rounds (num / den * 2 ^ shift) v := by
  obtain ⟨e, m, unit, nearest, eq⟩ := exists_round_eq (f := f) false num h shift
  rw [eq]
  generalize (num : ℚ) / den * 2 ^ shift = x at *
  have positive := f.precision_pos
  have top := unit.nearest_le nearest
  have rounds : f.Rounds x (m * 2 ^ e) := ⟨e, m, unit, nearest, rfl⟩
  split
  · next full =>
      -- The significand has no room for one more digit, and the unit doubles.
      have half : (2 : ℚ) ^ (f.precision - 1) ≤ x / 2 ^ e := by
        have below := nearest.below_le
        have one_le : (1 : ℚ) ≤ 2 ^ (f.precision - 1) := one_le_pow₀ (by norm_num)
        rw [full, ← Nat.sub_add_cancel positive, pow_succ] at below
        push_cast at below
        linarith
      have small : e < f.greatest := by
        rw [le_div_iff₀ (two_zpow_pos e), ← zpow_natCast, ← two_zpow_add] at half
        have := two_zpow_lt_iff.1 (lt_of_le_of_lt half bound)
        omega
      have canonical : f.Canonical (2 ^ (f.precision - 1)) (e + 1) :=
        ⟨Nat.pow_lt_pow_right (by decide) (by omega), by have := unit.least_le; omega, by omega,
          .inr (Nat.le_refl _)⟩
      refine ⟨m * 2 ^ e, ⟨_, _, canonical, ofParts_of_canonical _ _, ?_⟩, rounds⟩
      rw [full]
      push_cast
      rw [← zpow_natCast, ← zpow_natCast, ← two_zpow_add, ← two_zpow_add]
      congr 1
      omega
  · next room =>
      have small : e ≤ f.greatest := by
        by_cases least : e = f.least
        · rw [least]
          exact f.least_le_greatest
        · have := two_zpow_lt_iff.1 (lt_of_le_of_lt (unit.le_of_ne least) bound)
          omega
      have canonical : f.Canonical m e :=
        ⟨by omega, unit.least_le, small, by
          by_cases least : e = f.least
          · exact .inl least
          · exact .inr (unit.le_nearest nearest least)⟩
      exact ⟨m * 2 ^ e, ⟨m, e, canonical, ofParts_of_canonical _ _, rfl⟩, rounds⟩

/-- On a common grid, the whole numbers of two values are in the order of the values. -/
theorem scaled_grid {z e grid : Int} (h : grid ≤ e) :
    ((z * 2 ^ (e - grid).toNat : Int) : ℚ) * 2 ^ grid = z * 2 ^ e := by
  push_cast
  rw [mul_assoc, ← zpow_natCast, ← two_zpow_add, Int.toNat_of_nonneg (by omega)]
  congr 2
  omega

theorem compareScaled_eq (a b d e : Int) :
    compareScaled a d b e = compare ((a : ℚ) * 2 ^ d) (b * 2 ^ e) := by
  unfold compareScaled
  dsimp only
  rw [← scaled_grid (z := a) (Int.min_le_left d e), ← scaled_grid (z := b) (Int.min_le_right d e)]
  have positive := two_zpow_pos (min d e)
  generalize a * 2 ^ _ = i
  generalize b * 2 ^ _ = j
  rcases Int.lt_trichotomy i j with less | rfl | more
  · rw [compare_lt_iff_lt.2 less, compare_lt_iff_lt.2
      (mul_lt_mul_of_pos_right (by exact_mod_cast less) positive)]
  · rw [compare_eq_iff_eq.2 rfl, compare_eq_iff_eq.2 rfl]
  · rw [compare_gt_iff_gt.2 more, compare_gt_iff_gt.2
      (mul_lt_mul_of_pos_right (by exact_mod_cast more) positive)]

theorem lt_iff_of_compare? {x y : Binary f} {a b : ℚ} (h : x.compare? y = some (compare a b)) :
    x.lt y = true ↔ a < b := by
  rw [lt, h, beq_iff_eq, Option.some_inj, compare_lt_iff_lt]

theorem le_iff_of_compare? {x y : Binary f} {a b : ℚ} (h : x.compare? y = some (compare a b)) :
    x.le y = true ↔ a ≤ b := by
  rw [le, h, Option.any_some, Ordering.isLE_iff_ne_gt, ← compare_le_iff_le]

theorem exists_isMagnitude_ofNat {n : Nat} (h : (n : ℚ) < limit f) :
    ∃ v, (ofNat n : Binary f).IsMagnitude v ∧ f.Rounds n v := by
  have whole : (n : ℚ) = n / (1 : Nat) * 2 ^ (0 : Int) := by
    rw [Nat.cast_one, div_one, zpow_zero, mul_one]
  rw [whole] at h ⊢
  exact exists_isMagnitude_round Nat.one_pos h

namespace IsMagnitude

variable {x y : Binary f} {a b : ℚ}

theorem nonneg (hx : x.IsMagnitude a) : 0 ≤ a := by
  obtain ⟨m, e, _, _, rfl⟩ := hx
  exact mul_nonneg (Nat.cast_nonneg m) (two_zpow_pos e).le

theorem compare?_eq (hx : x.IsMagnitude a) (hy : y.IsMagnitude b) :
    x.compare? y = some (compare a b) := by
  obtain ⟨m, d, _, rfl, rfl⟩ := hx
  obtain ⟨n, e, _, rfl, rfl⟩ := hy
  have order := compareScaled_eq m n d e
  rw [Int.cast_natCast, Int.cast_natCast] at order
  exact congrArg some order

theorem lt_iff (hx : x.IsMagnitude a) (hy : y.IsMagnitude b) : x.lt y = true ↔ a < b :=
  lt_iff_of_compare? (hx.compare?_eq hy)

theorem le_iff (hx : x.IsMagnitude a) (hy : y.IsMagnitude b) : x.le y = true ↔ a ≤ b :=
  le_iff_of_compare? (hx.compare?_eq hy)

/-- Between the limits nothing changes. -/
theorem clamp_eq {low high : Binary f} {l h : ℚ} (hx : x.IsMagnitude a)
    (hlow : low.IsMagnitude l) (hhigh : high.IsMagnitude h) (le : l ≤ a) (ge : a ≤ h) :
    x.clamp low high = x := by
  rw [clamp, if_neg (by rw [hx.lt_iff hlow]; exact not_lt.2 le),
    if_neg (by rw [hhigh.lt_iff hx]; exact not_lt.2 ge)]

theorem exists_div (hx : x.IsMagnitude a) (hy : y.IsMagnitude b) (hb : 0 < b)
    (h : a / b < limit f) : ∃ v, (x / y).IsMagnitude v ∧ f.Rounds (a / b) v := by
  obtain ⟨m, d, _, rfl, rfl⟩ := hx
  obtain ⟨n, e, _, rfl, rfl⟩ := hy
  have some : n ≠ 0 := by
    rintro rfl
    rw [Nat.cast_zero, zero_mul] at hb
    exact lt_irrefl 0 hb
  have quotient : (m : ℚ) * 2 ^ d / (n * 2 ^ e) = m / n * 2 ^ (d - e) := by
    rw [zpow_sub₀ (by norm_num), mul_div_mul_comm]
  rw [quotient] at h ⊢
  show ∃ v, IsMagnitude (if n = 0 then _ else round false m n (d - e)) v ∧ _
  rw [if_neg some]
  exact exists_isMagnitude_round (Nat.pos_of_ne_zero some) h

theorem exists_mul (hx : x.IsMagnitude a) (hy : y.IsMagnitude b) (h : a * b < limit f) :
    ∃ v, (x * y).IsMagnitude v ∧ f.Rounds (a * b) v := by
  obtain ⟨m, d, _, rfl, rfl⟩ := hx
  obtain ⟨n, e, _, rfl, rfl⟩ := hy
  have product : (m : ℚ) * 2 ^ d * (n * 2 ^ e) = (m * n : Nat) / (1 : Nat) * 2 ^ (d + e) := by
    rw [two_zpow_add]
    push_cast
    ring
  rw [product] at h ⊢
  exact exists_isMagnitude_round Nat.one_pos h

theorem exists_convert {g : Format} (hx : x.IsMagnitude a) (h : a < limit g) :
    ∃ v, (x.convert g).IsMagnitude v ∧ g.Rounds a v := by
  obtain ⟨m, e, _, rfl, rfl⟩ := hx
  have same : (m : ℚ) * 2 ^ e = m / (1 : Nat) * 2 ^ e := by rw [Nat.cast_one, div_one]
  rw [same] at h ⊢
  exact exists_isMagnitude_round Nat.one_pos h

theorem exists_scale {k : Int} (hx : x.IsMagnitude a) (h : a * 2 ^ k < limit f) :
    ∃ v, (x.scale k).IsMagnitude v ∧ f.Rounds (a * 2 ^ k) v := by
  obtain ⟨m, e, _, rfl, rfl⟩ := hx
  have shifted : (m : ℚ) * 2 ^ e * 2 ^ k = m / (1 : Nat) * 2 ^ (e + k) := by
    rw [two_zpow_add, Nat.cast_one, div_one, mul_assoc]
  rw [shifted] at h ⊢
  exact exists_isMagnitude_round Nat.one_pos h

/-- The whole part of a magnitude is found below it. -/
theorem truncate?_eq (hx : x.IsMagnitude a) : x.truncate? = some ⌊a⌋ := by
  obtain ⟨m, e, _, rfl, rfl⟩ := hx
  have quotient : (m : ℚ) * 2 ^ e = (m * 2 ^ e.toNat : Nat) / (2 ^ (-e).toNat : Nat) := by
    rw [two_zpow_eq]
    push_cast
    exact (mul_div_assoc _ _ _).symm
  rw [quotient, Rat.floor_natCast_div_natCast]
  rfl

/-- The nearest whole number is found below the value plus one half. -/
theorem roundAway?_eq (hx : x.IsMagnitude a) : x.roundAway? = some ⌊a + 1 / 2⌋ := by
  obtain ⟨m, e, _, rfl, rfl⟩ := hx
  have halves : (m : ℚ) * 2 ^ e + 1 / 2 =
      (2 * m * 2 ^ e.toNat + 2 ^ (-e).toNat : Nat) / (2 * 2 ^ (-e).toNat : Nat) := by
    rw [two_zpow_eq]
    push_cast
    field_simp
  rw [halves, Rat.floor_natCast_div_natCast]
  rfl

end IsMagnitude

end Binary

end Animation
