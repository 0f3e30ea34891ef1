/-
# Fixed point numbers and floating-point numbers

A fixed point number is a floating-point number too, exactly: its count of 65536ths has few
enough digits, and to divide by 65536 only moves the exponent. The other way a floating-point
number loses what lies behind the last digit, toward zero, and whether the rest fits is decided
on its value.
-/

import Animation.Proofs.Binary.Scaling
import Animation.Fixed

namespace Animation

namespace Binary

theorem ofNat_unit :
    (65536 : Double) = finite false (2 ^ 52) (-36) (by decide) := by
  decide +kernel

/-- Multiplied by 65536, a number changes its exponent. -/
theorem mul_unit (x : Double) : x * 65536 = x.scale 16 := by
  rw [ofNat_unit]
  cases x with
  | nan => rfl
  | infinite negative => cases negative <;> rfl
  | finite negative m e h =>
      show round (negative != false) (m * 2 ^ 52) 1 (e + -36) = round negative m 1 (e + 16)
      rw [Bool.bne_false]
      refine round_congr negative Nat.one_pos Nat.one_pos ?_
      rw [show e + 16 = 52 + (e + -36) by omega, two_zpow_add 52]
      push_cast
      norm_num
      ring

/-- Divided by 65536, a number changes its exponent. -/
theorem div_unit (x : Double) : x / 65536 = x.scale (-16) := by
  rw [ofNat_unit]
  cases x with
  | nan => rfl
  | infinite negative => cases negative <;> rfl
  | finite negative m e h =>
      show (if (2 : Nat) ^ 52 = 0 then if m = 0 then nan else infinite (negative != false)
        else round (negative != false) m (2 ^ 52) (e - -36)) = round negative m 1 (e + -16)
      rw [if_neg (by decide), Bool.bne_false]
      refine round_congr negative (by decide) Nat.one_pos ?_
      rw [show e - -36 = 52 + (e + -16) by omega, two_zpow_add 52]
      push_cast
      norm_num
      ring

end Binary

namespace Fixed

variable {x : Fixed} {z : Int}

/-- The number that is meant. -/
def value (x : Fixed) : ℚ := x.toRaw / 65536

theorem value_mul_unit (x : Fixed) : x.value * 65536 = x.toRaw := by
  unfold value
  field_simp

theorem natAbs_toRaw_le (x : Fixed) : x.toRaw.natAbs ≤ 2 ^ 31 := by
  have fits := x.fits_toRaw
  unfold Fits at fits
  omega

theorem abs_toRaw_le (x : Fixed) : |(x.toRaw : ℚ)| ≤ 2 ^ 31 := by
  rw [← Int.cast_abs, ← Nat.cast_natAbs]
  exact_mod_cast x.natAbs_toRaw_le

theorem holds_toRaw (x : Fixed) {k : Int} (h : -1074 ≤ k) :
    Format.binary64.Holds |(x.toRaw : ℚ) * 2 ^ k| := by
  have small := x.natAbs_toRaw_le
  have power := two_zpow_pos k
  refine ⟨x.toRaw.natAbs, k, lt_of_le_of_lt small (by decide), h, ?_⟩
  rw [abs_mul, abs_of_pos power, Nat.cast_natAbs, Int.cast_abs]

theorem isNumber_ofInt_toRaw (x : Fixed) : (Binary.ofInt x.toRaw : Double).IsNumber x.toRaw :=
  Binary.isNumber_ofInt (lt_of_le_of_lt x.natAbs_toRaw_le (by decide)) (by decide) (by decide)

/-- Every fixed point number is a number in double precision. -/
theorem isNumber_toDouble (x : Fixed) : x.toDouble.IsNumber x.value := by
  have small : |(x.toRaw : ℚ) * 2 ^ (-16 : Int)| < Binary.limit .binary64 := by
    refine Binary.lt_limit 32 ?_ (by decide)
    have raw := x.abs_toRaw_le
    rw [abs_mul, abs_of_pos (two_zpow_pos _)]
    norm_num
    linarith
  rcases x.isNumber_ofInt_toRaw.scale_or (x.holds_toRaw (k := -16) (by decide)) with number | large
  · have eq : (x.toRaw : ℚ) * 2 ^ (-16 : Int) = x.value := by
      unfold value
      norm_num
      ring
    rw [← eq]
    exact number
  · exact absurd small (not_lt.2 large.2)

/-- Multiplied by the unit again, it is the count that it came from. -/
theorem isNumber_scale_toDouble (x : Fixed) : (x.toDouble.scale 16).IsNumber x.toRaw := by
  have whole : x.value * 2 ^ (16 : Int) = x.toRaw := by
    rw [← value_mul_unit]
    norm_num
  have small : |(x.toRaw : ℚ)| < Binary.limit .binary64 := Binary.lt_limit 32
    (lt_of_le_of_lt x.abs_toRaw_le (by norm_num)) (by decide)
  rcases x.isNumber_toDouble.scale_or (k := 16)
    (x.isNumber_toDouble.holds_scale (by decide)) with number | large
  · rwa [whole] at number
  · rw [whole] at large
    exact absurd small (not_lt.2 large.2)

/-- A finite number is converted by its value: the fraction of a 65536th is dropped, and what is
left must fit. -/
theorem ofDouble_eq {d : Double} {v : ℚ} (hd : d.IsNumber v) :
    ofDouble d = checked (.valueTooLarge d) (towardZero (v * 65536)) := by
  have shifted : v * 2 ^ (16 : Int) = v * 65536 := by norm_num
  unfold ofDouble
  rw [if_pos hd.isFinite]
  rcases hd.scale_or (hd.holds_scale (k := 16) (by decide)) with number | ⟨⟨negative, eq⟩, large⟩
  · rw [shifted] at number
    rw [show (fractionDigits : Int) = 16 from rfl, number.truncate?_eq]
  · -- The product is beyond all numbers of double precision.
    rw [shifted] at large
    have beyond : ¬ Fits (towardZero (v * 65536)) := by
      intro fits
      have most : ((2 : ℚ) ^ 32) < Binary.limit .binary64 :=
        Binary.lt_limit 33 (by norm_num) (by decide)
      have near := abs_lt.1 (abs_towardZero_sub_lt (v * 65536))
      have low : (-2147483648 : ℚ) ≤ towardZero (v * 65536) := by exact_mod_cast fits.1
      have high : (towardZero (v * 65536) : ℚ) ≤ 2147483647 := by exact_mod_cast fits.2
      have size : |v * 65536| ≤ 2 ^ 32 := abs_le.2 ⟨by linarith, by linarith⟩
      linarith
    rw [show (fractionDigits : Int) = 16 from rfl, eq, checked, if_neg beyond]
    rfl

/-- What is not finite is not converted. -/
theorem ofDouble_of_not_isFinite {d : Double} (h : d.isFinite = false) :
    ofDouble d = .error (.notFinite d) := by
  unfold ofDouble
  rw [h]
  exact if_neg Bool.false_ne_true

/-- What actors and listeners receive tells which number it is. -/
theorem ofDouble_toDouble (x : Fixed) : ofDouble x.toDouble = .ok x := by
  rw [ofDouble_eq x.isNumber_toDouble, value_mul_unit, towardZero_intCast, checked,
    if_pos x.fits_toRaw, ofRaw_toRaw]

end Fixed

end Animation
