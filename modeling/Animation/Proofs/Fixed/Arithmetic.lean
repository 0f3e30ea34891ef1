/-
# What fixed point operations give

An operation on fixed point numbers has an exact result, which is rounded to a count of 65536ths.
An operation gives its result if the number with this count is what it returns, when there is one,
and if it breaks off when there is none. Conversions, sums, differences and negations give their
results. A product does not, since it never breaks off: of a count that does not fit it keeps the
low 32 bits. Interpolation inherits this from the product in its middle.
-/

import Animation.Proofs.Behaviours.Path

namespace Animation.Fixed

/-- The number with this count of 65536ths is returned, and if there is none the operation breaks
off with the cause. -/
structure Gives (r : Except Violation Fixed) (z : Int) (cause : Violation) : Prop where
  returns : Fits z → ∃ x, r = .ok x ∧ x.toRaw = z
  breaks : ¬ Fits z → r = .error cause

theorem gives_checked (z : Int) (cause : Violation) : Gives (checked cause z) z cause where
  returns fits := ⟨.ofRaw z, if_pos fits, toRaw_ofRaw fits⟩
  breaks beyond := if_neg beyond

theorem gives_ofInt (v : Int) : Gives (ofInt v) (v * 65536) (.integerTooLarge v) := by
  have range : -32768 ≤ v ∧ v ≤ 32767 ↔ Fits (v * 65536) := by
    unfold Fits
    omega
  unfold ofInt
  rw [if_congr range rfl rfl]
  exact gives_checked (v * 65536) _

theorem gives_ofDouble {d : Double} {v : ℚ} (hd : d.IsNumber v) :
    Gives (ofDouble d) (towardZero (v * 65536)) (.valueTooLarge d) := by
  rw [ofDouble_eq hd]
  exact gives_checked _ _

/-- What is not converted by its value is not finite. -/
theorem gives_ofDouble_or (d : Double) :
    (∃ v, d.IsNumber v ∧ Gives (ofDouble d) (towardZero (v * 65536)) (.valueTooLarge d)) ∨
      d.isFinite = false ∧ ofDouble d = .error (.notFinite d) := by
  cases finite : d.isFinite with
  | true =>
      obtain ⟨v, number⟩ := Binary.isNumber_of_isFinite finite
      exact .inl ⟨v, number, gives_ofDouble number⟩
  | false => exact .inr ⟨rfl, ofDouble_of_not_isFinite finite⟩

theorem gives_ofRatio (n : Nat) {d : Nat} (hd : d ≠ 0) :
    Gives (ofRatio n d) (towardZero (n / d * 65536)) .ratioTooLarge := by
  have whole : towardZero ((n : ℚ) / d * 65536) = n * 65536 / d := by
    rw [div_mul_eq_mul_div, towardZero_of_nonneg (by positivity)]
    exact_mod_cast Rat.floor_natCast_div_natCast (n * 65536) d
  unfold ofRatio
  rw [if_neg hd, whole]
  exact gives_checked _ _

/-- A product keeps the low 32 bits of its whole 65536ths. -/
theorem toRaw_mul (x y : Fixed) :
    (x.mul y).toRaw = ⌊x.value * y.value * 65536⌋.bmod (2 ^ 32) := by
  have whole : ⌊x.value * y.value * 65536⌋ = x.toRaw * y.toRaw / 65536 := by
    have product : x.value * y.value * 65536 = (x.toRaw * y.toRaw : Int) / (65536 : Nat) := by
      unfold value
      push_cast
      ring
    rw [product, Rat.floor_intCast_div_natCast]
    rfl
  rw [whole]
  exact Int32.toInt_ofInt

theorem bmod_eq_self_iff {z : Int} : z.bmod (2 ^ 32) = z ↔ Fits z := by
  unfold Fits
  rw [Int.bmod_def]
  omega

theorem floor_value_mul (t : Fixed) (z : Int) : ⌊t.value * z⌋ = t.toRaw * z / 65536 := by
  have product : t.value * z = (t.toRaw * z : Int) / (65536 : Nat) := by
    unfold value
    push_cast
    ring
  rw [product, Rat.floor_intCast_div_natCast]
  rfl

/-- Between ends whose distance fits, interpolation gives the sum of its start and of the low
32 bits of the way along the distance. -/
theorem gives_lerp (t : Fixed) {start finish : Fixed}
    (apart : Fits (finish.toRaw - start.toRaw)) :
    Gives (t.lerp start finish)
      (start.toRaw + ⌊t.value * (finish.toRaw - start.toRaw : Int)⌋.bmod (2 ^ 32))
      .addOverflow := by
  have distance := toRaw_ofRaw apart
  have way : (t.mul (.ofRaw (finish.toRaw - start.toRaw))).toRaw =
      ⌊t.value * (finish.toRaw - start.toRaw : Int)⌋.bmod (2 ^ 32) := by
    rw [floor_value_mul]
    unfold mul
    rw [distance]
    exact Int32.toInt_ofInt
  unfold lerp sub
  rw [checked, if_pos apart, ← way]
  exact gives_checked _ _

theorem lerp_of_not_fits (t : Fixed) {start finish : Fixed}
    (apart : ¬ Fits (finish.toRaw - start.toRaw)) :
    t.lerp start finish = .error .subOverflow := by
  unfold lerp sub
  rw [checked, if_neg apart]
  rfl

/-- Every operation but products and interpolation gives its exact result, which conversions round
toward zero. A product is its exact result, rounded down, if and only if that fits, and never
breaks off. Interpolation gives its exact result if the distance and the way along it fit. If the
distance does not fit it breaks off, and if the way does not, its low 32 bits take its place. -/
theorem given_or_refused (v : Int) (d : Double) (n m : Nat) (x y t : Fixed) :
    Gives (ofInt v) (v * 65536) (.integerTooLarge v) ∧
    ((∃ v, d.IsNumber v ∧ Gives (ofDouble d) (towardZero (v * 65536)) (.valueTooLarge d)) ∨
      d.isFinite = false ∧ ofDouble d = .error (.notFinite d)) ∧
    (m ≠ 0 → Gives (ofRatio n m) (towardZero (n / m * 65536)) .ratioTooLarge) ∧
    ofRatio n 0 = .error .zeroDenominator ∧
    (Gives (x.add y) (x.toRaw + y.toRaw) .addOverflow ∧
      Gives (x.sub y) (x.toRaw - y.toRaw) .subOverflow ∧
      Gives x.neg (-x.toRaw) .negOverflow) ∧
    ((x.mul y).toRaw = ⌊x.value * y.value * 65536⌋.bmod (2 ^ 32) ∧
      ((x.mul y).toRaw = ⌊x.value * y.value * 65536⌋ ↔ Fits ⌊x.value * y.value * 65536⌋)) ∧
    let distance := y.toRaw - x.toRaw
    let way := ⌊t.value * distance⌋
    (¬ Fits distance → t.lerp x y = .error .subOverflow) ∧
      (Fits distance → Fits way → Gives (t.lerp x y) (x.toRaw + way) .addOverflow) ∧
      (Fits distance → Gives (t.lerp x y) (x.toRaw + way.bmod (2 ^ 32)) .addOverflow) := by
  refine ⟨gives_ofInt v, gives_ofDouble_or d, gives_ofRatio n, rfl,
    ⟨gives_checked _ _, gives_checked _ _, gives_checked _ _⟩, ?_,
    lerp_of_not_fits t, fun apart fits => ?_, gives_lerp t⟩
  · rw [toRaw_mul, bmod_eq_self_iff]
    exact ⟨rfl, Iff.rfl⟩
  · have gives := gives_lerp t apart
    rwa [bmod_eq_self_iff.2 fits] at gives

/-- A third is rounded toward zero, and half of the way to one is one half. -/
theorem given_or_refused_fractions :
    (∃ x, ofRatio 1 3 = .ok x ∧ x.toRaw = towardZero ((1 : Nat) / (3 : Nat) * 65536)) ∧
      ∃ x, half.lerp zero one = .ok x ∧
        x.toRaw = zero.toRaw + ⌊half.value * (one.toRaw - zero.toRaw : Int)⌋ := by
  have way : ⌊half.value * (one.toRaw - zero.toRaw : Int)⌋ = 32768 := by
    rw [floor_value_mul]
    decide
  have third : towardZero ((1 : Nat) / (3 : Nat) * 65536) = 21845 := by
    rw [towardZero_of_nonneg (by norm_num), Int.floor_eq_iff]
    norm_num
  obtain ⟨-, -, ratio, -, -, -, lerp⟩ := given_or_refused 0 (.ofInt 0) 1 3 zero one half
  refine ⟨(ratio (by decide)).returns (by rw [third]; decide), ?_⟩
  refine (lerp.2.1 (by decide) (by rw [way]; decide)).returns ?_
  rw [way]
  decide

/-- Twice the largest number does not fit. Neither the product nor the interpolation that takes it
breaks off, and both are negative. -/
theorem mul_wraps :
    ¬ Fits ⌊max.value * (ofRaw 131072).value * 65536⌋ ∧ max.mul (ofRaw 131072) = ofRaw (-2) ∧
      (ofRaw 131072).lerp zero max = .ok (ofRaw (-2)) := by
  refine ⟨?_, by decide, by decide⟩
  have count : max.value * (ofRaw 131072).value * 65536 = (4294967294 : Int) := by
    have largest : max.toRaw = 2147483647 := by decide
    have two : (ofRaw 131072).toRaw = 131072 := by decide
    rw [value, value, largest, two]
    norm_num
  rw [count, Int.floor_intCast]
  decide

end Animation.Fixed
