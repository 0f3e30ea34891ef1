/-
# The path between two scales

The scales that a range of accepted scales takes at rising alphas lie on a path from its start
to its end: it leaves from the start, never turns back, and arrives at the end exactly. No step
of the interpolation is refused. What actors receive are these scales as floating-point
numbers, which keep the order.
-/

import Animation.Proofs.Fixed.Conversion
import Animation.Scale
import Animation.Timeline.Clock

namespace Animation

namespace Fixed

variable {x y : Fixed}

theorem isMagnitude_toDouble (h : 0 ≤ x.toRaw) :
    x.toDouble.IsMagnitude (x.toRaw.toNat * 2 ^ (-16 : Int)) := by
  have fits := x.fits_toRaw
  have small : x.toRaw.toNat < 2 ^ 53 := by
    unfold Fits at fits
    omega
  have whole : (Binary.ofInt x.toRaw : Double) = Binary.ofNat x.toRaw.toNat := by
    unfold Binary.ofInt Binary.ofNat
    rw [decide_eq_false (not_lt.2 h), show x.toRaw.natAbs = x.toRaw.toNat by omega]
  have bound : (x.toRaw.toNat : ℚ) < 2 ^ 53 := by exact_mod_cast small
  obtain ⟨v, number, hv⟩ :=
    Binary.exists_isMagnitude_ofNat (Binary.lt_limit (f := .binary64) 53 bound (by decide))
  cases hv.unique (Format.Rounds.natCast small (by decide))
  have le : (x.toRaw.toNat : ℚ) * 2 ^ (-16 : Int) ≤ x.toRaw.toNat := by
    have nonneg : (0 : ℚ) ≤ x.toRaw.toNat := Nat.cast_nonneg _
    norm_num
    linarith
  obtain ⟨v, scaled, hv⟩ := number.exists_scale (k := -16)
    (lt_of_le_of_lt le (Binary.lt_limit 53 bound (by decide)))
  cases hv.unique (Format.Rounds.of_scaled small (by decide))
  unfold toDouble
  rw [whole]
  exact scaled

/-- The order of scales is that of the floating-point numbers that actors receive. -/
theorem le_toDouble_iff (hx : 0 ≤ x.toRaw) (hy : 0 ≤ y.toRaw) :
    x.toDouble.le y.toDouble = true ↔ x.toRaw ≤ y.toRaw := by
  rw [(isMagnitude_toDouble hx).le_iff (isMagnitude_toDouble hy),
    mul_le_mul_iff_left₀ (two_zpow_pos _), Nat.cast_le]
  omega

end Fixed

/-- How far along a distance a fraction of it leads, in whole 65536ths. -/
def wayAlong (t distance : Int) : Int := t * distance / 65536

theorem wayAlong_zero (distance : Int) : wayAlong 0 distance = 0 := by simp [wayAlong]

theorem wayAlong_full (distance : Int) : wayAlong 65536 distance = distance := by
  unfold wayAlong
  omega

theorem wayAlong_mono {t t' distance : Int} (h : 0 ≤ distance) (le : t ≤ t') :
    wayAlong t distance ≤ wayAlong t' distance :=
  Int.ediv_le_ediv (by decide) (Int.mul_le_mul_of_nonneg_right le h)

theorem wayAlong_anti {t t' distance : Int} (h : distance ≤ 0) (le : t ≤ t') :
    wayAlong t' distance ≤ wayAlong t distance :=
  Int.ediv_le_ediv (by decide) (Int.mul_le_mul_of_nonpos_right le h)

/-- A fraction that is not beyond one does not lead beyond the distance. -/
theorem wayAlong_between {t : Int} (distance : Int) (nonneg : 0 ≤ t) (le : t ≤ 65536) :
    min 0 distance ≤ wayAlong t distance ∧ wayAlong t distance ≤ max 0 distance := by
  rcases Int.le_total 0 distance with h | h
  · have low := wayAlong_mono h nonneg
    have high := wayAlong_mono h le
    rw [wayAlong_zero] at low
    rw [wayAlong_full] at high
    omega
  · have low := wayAlong_anti h le
    have high := wayAlong_anti h nonneg
    rw [wayAlong_full] at low
    rw [wayAlong_zero] at high
    omega

/-- The fraction that an alpha stands for, in whole 65536ths. -/
def fractionOf (alpha : Nat) : Int := alpha * 65536 / 65535

theorem fractionOf_mono {alpha alpha' : Nat} (le : alpha ≤ alpha') :
    fractionOf alpha ≤ fractionOf alpha' := by
  unfold fractionOf
  omega

theorem fractionOf_between {alpha : Nat} (le : alpha ≤ alphaMax) :
    0 ≤ fractionOf alpha ∧ fractionOf alpha ≤ 65536 := by
  unfold fractionOf
  unfold alphaMax at le
  omega

theorem fits_fractionOf {alpha : Nat} (le : alpha ≤ alphaMax) : Fixed.Fits (fractionOf alpha) := by
  have fraction := fractionOf_between le
  unfold Fixed.Fits
  omega

theorem ofRatio_alphaMax {alpha : Nat} (le : alpha ≤ alphaMax) :
    Fixed.ofRatio alpha alphaMax = .ok (.ofRaw (fractionOf alpha)) := by
  unfold Fixed.ofRatio
  rw [if_neg (by decide)]
  exact if_pos (fits_fractionOf le)

namespace Range

variable {r : Range Fixed} {alpha alpha' : Nat}

/-- A range of scales that are not negative. -/
structure Accepted (r : Range Fixed) : Prop where
  start_nonneg : 0 ≤ r.start.toRaw
  finish_nonneg : 0 ≤ r.finish.toRaw

/-- The scale of a range at an alpha. -/
def pointAt (r : Range Fixed) (alpha : Nat) : Fixed :=
  .ofRaw (r.start.toRaw + wayAlong (fractionOf alpha) (r.finish.toRaw - r.start.toRaw))

/-- At every alpha of an animation a point lies between the two ends. -/
theorem between (r : Range Fixed) (le : alpha ≤ alphaMax) :
    let point := r.start.toRaw + wayAlong (fractionOf alpha) (r.finish.toRaw - r.start.toRaw)
    min r.start.toRaw r.finish.toRaw ≤ point ∧ point ≤ max r.start.toRaw r.finish.toRaw := by
  have fraction := fractionOf_between le
  have way := wayAlong_between (r.finish.toRaw - r.start.toRaw) fraction.1 fraction.2
  omega

theorem fits (r : Range Fixed) (le : alpha ≤ alphaMax) :
    Fixed.Fits (r.start.toRaw + wayAlong (fractionOf alpha) (r.finish.toRaw - r.start.toRaw)) := by
  have point := r.between le
  have start := r.start.fits_toRaw
  have finish := r.finish.fits_toRaw
  unfold Fixed.Fits at *
  omega

theorem toRaw_pointAt (r : Range Fixed) (le : alpha ≤ alphaMax) :
    (r.pointAt alpha).toRaw =
      r.start.toRaw + wayAlong (fractionOf alpha) (r.finish.toRaw - r.start.toRaw) :=
  Fixed.toRaw_ofRaw (r.fits le)

theorem pointAt_zero (r : Range Fixed) : r.pointAt 0 = r.start := by
  apply Fixed.toRaw_injective
  rw [r.toRaw_pointAt (Nat.zero_le _), show fractionOf 0 = 0 from rfl, wayAlong_zero, Int.add_zero]

theorem pointAt_alphaMax (r : Range Fixed) : r.pointAt alphaMax = r.finish := by
  apply Fixed.toRaw_injective
  rw [r.toRaw_pointAt (Nat.le_refl _), show fractionOf alphaMax = 65536 from rfl, wayAlong_full]
  omega

theorem pointAt_mono (up : r.start.toRaw ≤ r.finish.toRaw) (le : alpha ≤ alpha')
    (le' : alpha' ≤ alphaMax) : (r.pointAt alpha).toRaw ≤ (r.pointAt alpha').toRaw := by
  have way := wayAlong_mono (Int.sub_nonneg_of_le up) (fractionOf_mono le)
  rw [r.toRaw_pointAt (Nat.le_trans le le'), r.toRaw_pointAt le']
  omega

theorem pointAt_anti (down : r.finish.toRaw ≤ r.start.toRaw)
    (le : alpha ≤ alpha') (le' : alpha' ≤ alphaMax) :
    (r.pointAt alpha').toRaw ≤ (r.pointAt alpha).toRaw := by
  have way := wayAlong_anti (Int.sub_nonpos_of_le down) (fractionOf_mono le)
  rw [r.toRaw_pointAt (Nat.le_trans le le'), r.toRaw_pointAt le']
  omega

namespace Accepted

theorem nonneg (h : r.Accepted) (le : alpha ≤ alphaMax) : 0 ≤ (r.pointAt alpha).toRaw := by
  have point := r.between le
  have start := h.start_nonneg
  have finish := h.finish_nonneg
  rw [r.toRaw_pointAt le]
  omega

/-- The steps of the interpolation: the distance and the sum fit, and the product keeps all of
its digits. -/
theorem steps (h : r.Accepted) (le : alpha ≤ alphaMax) {t : Fixed}
    (ht : t.toRaw = fractionOf alpha) :
    ∃ distance, r.finish.sub r.start = .ok distance ∧
      (t.mul distance).toRaw = t.toRaw * distance.toRaw / Fixed.unit ∧
      r.start.add (t.mul distance) = .ok (r.pointAt alpha) := by
  have fraction := fractionOf_between le
  have way := wayAlong_between (r.finish.toRaw - r.start.toRaw) fraction.1 fraction.2
  have start := r.start.fits_toRaw
  have finish := r.finish.fits_toRaw
  have start_nonneg := h.start_nonneg
  have finish_nonneg := h.finish_nonneg
  have fits_distance : Fixed.Fits (r.finish.toRaw - r.start.toRaw) := by
    unfold Fixed.Fits at *
    omega
  have fits_way : Fixed.Fits (wayAlong (fractionOf alpha) (r.finish.toRaw - r.start.toRaw)) := by
    unfold Fixed.Fits at *
    omega
  have raw := Fixed.toRaw_ofRaw fits_distance
  have moved : (t.mul (.ofRaw (r.finish.toRaw - r.start.toRaw))).toRaw =
      wayAlong (fractionOf alpha) (r.finish.toRaw - r.start.toRaw) := by
    unfold Fixed.mul
    rw [ht, raw]
    exact Fixed.toRaw_ofRaw fits_way
  refine ⟨.ofRaw (r.finish.toRaw - r.start.toRaw), if_pos fits_distance, ?_, ?_⟩
  · rw [moved, ht, raw]
    rfl
  · unfold Fixed.add
    rw [moved]
    exact if_pos (r.fits le)

/-- Interpolation finds the point, and is not refused. -/
theorem interpolate_eq (h : r.Accepted) (le : alpha ≤ alphaMax) {t : Fixed}
    (ht : t.toRaw = fractionOf alpha) : r.interpolate t = .ok (r.pointAt alpha) := by
  obtain ⟨distance, apart, _, arrival⟩ := h.steps le ht
  unfold interpolate Fixed.lerp
  rw [apart]
  exact arrival

end Accepted

/-- A range in the order in which a direction runs through it. -/
def toward {α : Type} (r : Range α) : Direction → Range α
  | .forward => r
  | .backward => ⟨r.finish, r.start⟩

/-- Scales that lead from the start of a range to its end in so many steps, without ever turning
back: what actors receive does not fall, or does not rise. -/
structure Path (r : Range Fixed) (n : Nat) (x : Nat → Fixed) : Prop where
  first : x 0 = r.start
  last : x n = r.finish
  steady : (∀ i j, i ≤ j → j ≤ n → (x i).toDouble.le (x j).toDouble = true) ∨
    ∀ i j, i ≤ j → j ≤ n → (x j).toDouble.le (x i).toDouble = true

/-- The points at alphas that rise from zero to the largest one are a path. -/
theorem Accepted.path {r : Range Fixed} (h : r.Accepted) {n : Nat} {alpha : Nat → Nat}
    (first : alpha 0 = 0) (last : alpha n = alphaMax)
    (rises : ∀ i j, i ≤ j → j ≤ n → alpha i ≤ alpha j) :
    r.Path n fun j => r.pointAt (alpha j) where
  first := by
    rw [first]
    exact r.pointAt_zero
  last := by
    rw [last]
    exact r.pointAt_alphaMax
  steady := by
    have le : ∀ i, i ≤ n → alpha i ≤ alphaMax := fun i hi => last ▸ rises i n hi (Nat.le_refl n)
    rcases Int.le_total r.start.toRaw r.finish.toRaw with up | down
    · left
      intro i j hij hj
      rw [Fixed.le_toDouble_iff (h.nonneg (le i (Nat.le_trans hij hj))) (h.nonneg (le j hj))]
      exact Range.pointAt_mono up (rises i j hij hj) (le j hj)
    · right
      intro i j hij hj
      rw [Fixed.le_toDouble_iff (h.nonneg (le j hj)) (h.nonneg (le i (Nat.le_trans hij hj)))]
      exact Range.pointAt_anti down (rises i j hij hj) (le j hj)

/-- A path can be gone the other way. -/
theorem Path.backward {r : Range Fixed} {n : Nat} {x : Nat → Fixed} (h : r.Path n x) :
    (r.toward .backward).Path n fun j => x (n - j) where
  first := h.last
  last := by
    rw [Nat.sub_self]
    exact h.first
  steady := by
    rcases h.steady with up | down
    · right
      intro i j hij hj
      exact up _ _ (by omega) (by omega)
    · left
      intro i j hij hj
      exact down _ _ (by omega) (by omega)

/-- At every alpha of an animation a range of opacities has a sample. -/
theorem exists_sampleOpacity (r : Range UInt8) {alpha : Nat} (le : alpha ≤ alphaMax) :
    ∃ value, r.sampleOpacity alpha = .ok value := by
  have check : checkAlpha alpha = .ok () := if_pos le
  unfold sampleOpacity
  rw [check]
  exact ⟨_, rfl⟩

end Range

namespace ScaleBounds

/-- Bounds of scales that are not negative. -/
structure Accepted (b : ScaleBounds) : Prop where
  x : b.x.Accepted
  y : b.y.Accepted

/-- At every alpha of an animation accepted bounds have a sample. -/
theorem Accepted.sample_eq {b : ScaleBounds} (h : b.Accepted) {alpha : Nat}
    (le : alpha ≤ alphaMax) : b.sample alpha = .ok (b.x.pointAt alpha, b.y.pointAt alpha) := by
  have raw := Fixed.toRaw_ofRaw (fits_fractionOf le)
  have check : checkAlpha alpha = .ok () := if_pos le
  unfold sample interpolate
  rw [check, ofRatio_alphaMax le]
  show (do
    let x ← b.x.interpolate (.ofRaw (fractionOf alpha))
    let y ← b.y.interpolate (.ofRaw (fractionOf alpha))
    return (x, y)) = _
  rw [h.x.interpolate_eq le raw, h.y.interpolate_eq le raw]
  rfl

theorem nonneg_of_checkFixedScale {scale : Fixed} (h : checkFixedScale scale = .ok ()) :
    0 ≤ scale.toRaw := by
  unfold checkFixedScale at h
  split at h
  · assumption
  · exact nomatch h

/-- Bounds that are accepted when they are set are of scales that are not negative. -/
theorem accepted_of_toBounds {c : Corners Fixed} {b : ScaleBounds} (h : c.toBounds = .ok b) :
    b.Accepted := by
  obtain ⟨_, checks, h⟩ := Word.exists_of_bind_eq_ok h
  cases h
  obtain ⟨_, xStart, checks⟩ := Word.exists_of_bind_eq_ok checks
  obtain ⟨_, yStart, checks⟩ := Word.exists_of_bind_eq_ok checks
  obtain ⟨_, xEnd, yEnd⟩ := Word.exists_of_bind_eq_ok checks
  exact ⟨⟨nonneg_of_checkFixedScale xStart, nonneg_of_checkFixedScale xEnd⟩,
    ⟨nonneg_of_checkFixedScale yStart, nonneg_of_checkFixedScale yEnd⟩⟩

end ScaleBounds

end Animation
