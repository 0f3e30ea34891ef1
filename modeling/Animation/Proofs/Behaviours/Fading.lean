/-
# The samples of opacities

An opacity is sampled in whole numbers: the way along the distance of the ends loses its fraction,
so that it falls short of the exact proportion whether the opacity rises or falls. A way down is a
way up with the sign turned, and what is said of ways up holds of both. The samples are opacities
without being cut, meet both ends and never turn back. Backward, with what is left of the alpha,
the fraction is lost at the other end: the samples are one apart unless there is no fraction.
-/

import Animation.Proofs.Behaviours.Path

namespace Animation

/-- How far along a distance an alpha leads, less any fraction. -/
def fadeAlong (alpha : Nat) (distance : Int) : Int := (alpha * distance).tdiv alphaMax

/-- Down is up with the sign turned. -/
theorem fadeAlong_neg (alpha : Nat) (distance : Int) :
    fadeAlong alpha (-distance) = -fadeAlong alpha distance := by
  unfold fadeAlong
  rw [Int.mul_neg, Int.neg_tdiv]

section Up

variable {alpha alpha' : Nat} {distance : Int}

theorem fadeAlong_of_nonneg (alpha : Nat) (up : 0 ≤ distance) :
    fadeAlong alpha distance = alpha * distance / 65535 :=
  Int.tdiv_eq_ediv_of_nonneg (Int.mul_nonneg (Int.natCast_nonneg alpha) up)

theorem fadeAlong_mono (up : 0 ≤ distance) (le : alpha ≤ alpha') :
    fadeAlong alpha distance ≤ fadeAlong alpha' distance := by
  rw [fadeAlong_of_nonneg alpha up, fadeAlong_of_nonneg alpha' up]
  exact Int.ediv_le_ediv (by decide) (Int.mul_le_mul_of_nonneg_right (Int.ofNat_le.2 le) up)

theorem fadeAlong_zero (distance : Int) : fadeAlong 0 distance = 0 := by simp [fadeAlong]

theorem fadeAlong_alphaMax (distance : Int) : fadeAlong alphaMax distance = distance :=
  Int.mul_tdiv_cancel_left distance (by decide)

theorem fadeAlong_between (up : 0 ≤ distance) (le : alpha ≤ alphaMax) :
    0 ≤ fadeAlong alpha distance ∧ fadeAlong alpha distance ≤ distance := by
  have low := fadeAlong_mono up (Nat.zero_le alpha)
  have high := fadeAlong_mono up le
  rw [fadeAlong_zero] at low
  rw [fadeAlong_alphaMax] at high
  exact ⟨low, high⟩

/-- What is left of a way and what has been gone of it lose one between them, or nothing. -/
theorem fadeAlong_rest (up : 0 ≤ distance) (le : alpha ≤ alphaMax) :
    ∃ lost, distance - fadeAlong (alphaMax - alpha) distance = fadeAlong alpha distance + lost ∧
      0 ≤ lost ∧ lost ≤ 1 ∧ (lost = 0 ↔ (65535 : Int) ∣ alpha * distance) := by
  have left : ((alphaMax - alpha : Nat) : Int) * distance =
      65535 * distance - alpha * distance := by
    rw [Int.ofNat_sub le, Int.sub_mul]
    rfl
  refine ⟨_, (add_sub_cancel _ _).symm, ?_⟩
  rw [fadeAlong_of_nonneg _ up, fadeAlong_of_nonneg _ up, left]
  generalize (alpha : Int) * distance = product
  omega

theorem fadeAlong_near_of_nonneg (alpha : Nat) (up : 0 ≤ distance) :
    |(fadeAlong alpha distance : ℚ) - alpha / 65535 * distance| < 1 := by
  have low : fadeAlong alpha distance * 65535 ≤ alpha * distance := by
    rw [fadeAlong_of_nonneg alpha up]
    omega
  have high : (alpha : Int) * distance < fadeAlong alpha distance * 65535 + 65535 := by
    rw [fadeAlong_of_nonneg alpha up]
    omega
  have low : (fadeAlong alpha distance : ℚ) * 65535 ≤ alpha * distance := by exact_mod_cast low
  have high : (alpha : ℚ) * distance < fadeAlong alpha distance * 65535 + 65535 := by
    exact_mod_cast high
  rw [abs_lt]
  constructor <;> linarith

end Up

/-- In both directions an alpha leads along a distance, and not beyond it. -/
theorem fadeAlong_within {alpha : Nat} (distance : Int) (le : alpha ≤ alphaMax) :
    min 0 distance ≤ fadeAlong alpha distance ∧ fadeAlong alpha distance ≤ max 0 distance := by
  rcases Int.le_total 0 distance with up | down
  · have between := fadeAlong_between up le
    omega
  · have between := fadeAlong_between (Int.neg_nonneg_of_nonpos down) le
    rw [fadeAlong_neg] at between
    omega

theorem fadeAlong_near (alpha : Nat) (distance : Int) :
    |(fadeAlong alpha distance : ℚ) - alpha / 65535 * distance| < 1 := by
  rcases Int.le_total 0 distance with up | down
  · exact fadeAlong_near_of_nonneg alpha up
  · have near := fadeAlong_near_of_nonneg alpha (Int.neg_nonneg_of_nonpos down)
    rw [fadeAlong_neg, ← abs_neg] at near
    push_cast at near
    rwa [show -(-(fadeAlong alpha distance : ℚ) - alpha / 65535 * -distance) =
      fadeAlong alpha distance - alpha / 65535 * distance by ring] at near

/-- What is left of a way, gone from the other end, leads to the same place or to one beside. -/
theorem fadeAlong_reversed {alpha : Nat} (distance : Int) (le : alpha ≤ alphaMax) :
    |fadeAlong alpha distance - (distance + fadeAlong (alphaMax - alpha) (-distance))| ≤ 1 ∧
      (distance + fadeAlong (alphaMax - alpha) (-distance) = fadeAlong alpha distance ↔
        (65535 : Int) ∣ alpha * distance) := by
  rw [fadeAlong_neg, abs_le]
  rcases Int.le_total 0 distance with up | down
  · obtain ⟨lost, rest, nonneg, le_one, whole⟩ := fadeAlong_rest up le
    rw [← whole]
    omega
  · obtain ⟨lost, rest, nonneg, le_one, whole⟩ :=
      fadeAlong_rest (Int.neg_nonneg_of_nonpos down) le
    rw [fadeAlong_neg, fadeAlong_neg] at rest
    rw [Int.mul_neg, Int.dvd_neg] at whole
    rw [← whole]
    omega

namespace Range

variable {r : Range UInt8} {alpha : Nat}

/-- The distance from the start of a range of opacities to its end. -/
def distance (r : Range UInt8) : Int := r.finish.toNat - r.start.toNat

/-- The opacity of a range at an alpha. -/
def opacityAt (r : Range UInt8) (alpha : Nat) : UInt8 :=
  .ofInt (r.start.toNat + fadeAlong alpha r.distance)

/-- What can be relied on when a range of opacities is sampled at the alphas of an animation. -/
structure Faded (r : Range UInt8) (x : Nat → UInt8) : Prop where
  sample : ∀ alpha ≤ alphaMax, r.sampleOpacity alpha = .ok (x alpha)
  /-- Nothing is cut off when the sum becomes an opacity. -/
  uncut : ∀ alpha ≤ alphaMax, ((x alpha).toNat : Int) =
    r.start.toNat + (alpha * (r.finish.toNat - r.start.toNat : Int)).tdiv alphaMax
  between : ∀ alpha ≤ alphaMax, min r.start.toNat r.finish.toNat ≤ (x alpha).toNat ∧
    (x alpha).toNat ≤ max r.start.toNat r.finish.toNat
  first : x 0 = r.start
  last : x alphaMax = r.finish
  rises : r.start ≤ r.finish → ∀ alpha alpha', alpha ≤ alpha' → alpha' ≤ alphaMax →
    x alpha ≤ x alpha'
  falls : r.finish ≤ r.start → ∀ alpha alpha', alpha ≤ alpha' → alpha' ≤ alphaMax →
    x alpha' ≤ x alpha
  /-- The distance to the exact proportion. -/
  near : ∀ alpha ≤ alphaMax, |((x alpha).toNat : ℚ) -
    (r.start.toNat + alpha * (r.finish.toNat - r.start.toNat) / alphaMax)| < 1

/-- The sum is an opacity. -/
theorem toNat_opacityAt (r : Range UInt8) (le : alpha ≤ alphaMax) :
    ((r.opacityAt alpha).toNat : Int) = r.start.toNat + fadeAlong alpha r.distance := by
  have within := fadeAlong_within r.distance le
  have start := r.start.toNat_lt
  have finish := r.finish.toNat_lt
  have apart : r.distance = r.finish.toNat - r.start.toNat := rfl
  have low : 0 ≤ (r.start.toNat : Int) + fadeAlong alpha r.distance := by omega
  have high : (r.start.toNat : Int) + fadeAlong alpha r.distance < 256 := by omega
  rw [opacityAt, UInt8.ofInt, UInt8.toNat_ofNat']
  omega

theorem sampleOpacity_eq (r : Range UInt8) (le : alpha ≤ alphaMax) :
    r.sampleOpacity alpha = .ok (r.opacityAt alpha) := by
  have check : checkAlpha alpha = .ok () := if_pos le
  unfold sampleOpacity
  rw [check]
  rfl

/-- A greater alpha leads further in the direction of the distance. -/
theorem opacityAt_mono {alpha' : Nat} (up : r.start ≤ r.finish) (le : alpha ≤ alpha')
    (most : alpha' ≤ alphaMax) : r.opacityAt alpha ≤ r.opacityAt alpha' := by
  have first := r.toNat_opacityAt (Nat.le_trans le most)
  have last := r.toNat_opacityAt most
  have rising : 0 ≤ r.distance := by
    rw [UInt8.le_iff_toNat_le] at up
    unfold distance
    omega
  have way := fadeAlong_mono rising le
  rw [UInt8.le_iff_toNat_le]
  omega

theorem opacityAt_anti {alpha' : Nat} (down : r.finish ≤ r.start) (le : alpha ≤ alpha')
    (most : alpha' ≤ alphaMax) : r.opacityAt alpha' ≤ r.opacityAt alpha := by
  have first := r.toNat_opacityAt (Nat.le_trans le most)
  have last := r.toNat_opacityAt most
  have falling : 0 ≤ -r.distance := by
    rw [UInt8.le_iff_toNat_le] at down
    unfold distance
    omega
  have way := fadeAlong_mono falling le
  rw [fadeAlong_neg, fadeAlong_neg] at way
  rw [UInt8.le_iff_toNat_le]
  omega

/-- Every range of opacities has its samples. -/
theorem faded (r : Range UInt8) : r.Faded r.opacityAt where
  sample _ le := r.sampleOpacity_eq le
  uncut _ le := r.toNat_opacityAt le
  between alpha le := by
    have within := fadeAlong_within r.distance le
    have raw := r.toNat_opacityAt le
    have apart : r.distance = r.finish.toNat - r.start.toNat := rfl
    omega
  first := by
    have raw := r.toNat_opacityAt (Nat.zero_le alphaMax)
    rw [fadeAlong_zero] at raw
    apply UInt8.toNat_inj.1
    omega
  last := by
    have raw := r.toNat_opacityAt (Nat.le_refl alphaMax)
    rw [fadeAlong_alphaMax, distance] at raw
    apply UInt8.toNat_inj.1
    omega
  rises up _ _ := opacityAt_mono up
  falls down _ _ := opacityAt_anti down
  near alpha le := by
    have near := fadeAlong_near alpha r.distance
    have raw : ((r.opacityAt alpha).toNat : ℚ) = r.start.toNat + fadeAlong alpha r.distance := by
      exact_mod_cast r.toNat_opacityAt le
    have apart : (r.distance : ℚ) = r.finish.toNat - r.start.toNat := by
      unfold distance
      push_cast
      rfl
    have full : ((alphaMax : Nat) : ℚ) = 65535 := by norm_num [alphaMax]
    rw [apart] at near
    rwa [raw, full, add_sub_add_left_eq_sub, mul_div_right_comm]

/-- A range of opacities is sampled at every alpha of an animation, and the sums are opacities as
they are. The samples lie between the two ends, meet both of them, never turn back, and are less
than one away from the exact proportion. Backward, and with the rest of the alpha, a sample is at
most one away, and it is the same if and only if no fraction is lost. -/
theorem fading_laws (r : Range UInt8) : ∃ x, r.Faded x ∧
    ∀ alpha ≤ alphaMax, ∃ y, (r.toward .backward).sampleOpacity (alphaMax - alpha) = .ok y ∧
      |((x alpha).toNat : Int) - y.toNat| ≤ 1 ∧
      (y = x alpha ↔ (alphaMax : Int) ∣ alpha * (r.finish.toNat - r.start.toNat)) := by
  refine ⟨r.opacityAt, r.faded, fun alpha le => ?_⟩
  have rest : alphaMax - alpha ≤ alphaMax := Nat.sub_le ..
  have forth := r.toNat_opacityAt le
  have back := (r.toward .backward).toNat_opacityAt rest
  have turned : (r.toward .backward).distance = -r.distance := (Int.neg_sub _ _).symm
  have start : ((r.toward .backward).start.toNat : Int) = r.start.toNat + r.distance := by
    show (r.finish.toNat : Int) = _
    unfold distance
    omega
  rw [turned, start] at back
  obtain ⟨near, whole⟩ := fadeAlong_reversed r.distance le
  refine ⟨_, (r.toward .backward).sampleOpacity_eq rest, ?_, ?_⟩
  · rw [forth, back]
    rwa [add_assoc, add_sub_add_left_eq_sub]
  · rw [← UInt8.toNat_inj]
    refine Iff.trans ?_ whole
    omega

/-- From 255 to 0 half of the alpha loses a fraction, so that there and back are one apart; a fifth
of the alpha loses none. -/
theorem fading_laws_falling : ∃ x, (Range.mk (255 : UInt8) 0).Faded x ∧ x 32768 = 128 ∧
    x 13107 = 204 ∧ (Range.mk (0 : UInt8) 255).sampleOpacity 32767 = .ok 127 ∧
    (Range.mk (0 : UInt8) 255).sampleOpacity 52428 = .ok (x 13107) := by
  obtain ⟨x, faded, reversed⟩ := fading_laws ⟨255, 0⟩
  have half : Except.ok 128 = .ok (x 32768) :=
    Eq.trans (by decide) (faded.sample 32768 (by decide))
  have fifth : Except.ok 204 = .ok (x 13107) :=
    Eq.trans (by decide) (faded.sample 13107 (by decide))
  obtain ⟨y, backward, -, whole⟩ := reversed 13107 (by decide)
  have same : y = x 13107 := whole.2 (by decide)
  rw [same] at backward
  exact ⟨x, faded, (Except.ok.inj half).symm, (Except.ok.inj fifth).symm, by decide, backward⟩

end Range

end Animation
