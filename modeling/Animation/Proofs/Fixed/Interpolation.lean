/-
# The algebra of interpolation

Between two ends whose distance fits, interpolation at a fraction of one is never refused and loses
no digits. Its result is a weighted mean of the ends, rounded down once. A mean does not care which
of its two terms comes first and rises with each of them, and rounding down keeps both, so that
interpolation is monotone in its ends and comes out the same when the range is run through backward
with what is left of the fraction.
-/

import Animation.Proofs.Fixed.Arithmetic

namespace Animation

/-- The mean of two counts that gives the second so many 65536ths of the weight, rounded down. -/
def weightedMean (t start finish : Int) : Int := ((65536 - t) * start + t * finish) / 65536

variable {t start finish : Int}

theorem weightedMean_eq (t start finish : Int) :
    weightedMean t start finish = start + wayAlong t (finish - start) := by
  have whole : (65536 - t) * start + t * finish = t * (finish - start) + start * 65536 := by ring
  unfold weightedMean wayAlong
  rw [whole, Int.add_mul_ediv_right _ _ (by decide), Int.add_comm]

/-- The weights add up to one, so that the second count has what the first leaves. -/
theorem weightedMean_reversed (t start finish : Int) :
    weightedMean (65536 - t) finish start = weightedMean t start finish := by
  unfold weightedMean
  rw [Int.sub_sub_self, Int.add_comm]

theorem weightedMean_mono_finish {finish' : Int} (nonneg : 0 ≤ t) (le : finish ≤ finish') :
    weightedMean t start finish ≤ weightedMean t start finish' :=
  Int.ediv_le_ediv (by decide) (Int.add_le_add_left (Int.mul_le_mul_of_nonneg_left le nonneg) _)

theorem weightedMean_mono_start {start' : Int} (most : t ≤ 65536) (le : start ≤ start') :
    weightedMean t start finish ≤ weightedMean t start' finish := by
  rw [← weightedMean_reversed t start, ← weightedMean_reversed t start']
  exact weightedMean_mono_finish (Int.sub_nonneg_of_le most) le

theorem weightedMean_between (nonneg : 0 ≤ t) (most : t ≤ 65536) (start finish : Int) :
    min start finish ≤ weightedMean t start finish ∧
      weightedMean t start finish ≤ max start finish := by
  have way := wayAlong_between (finish - start) nonneg most
  rw [weightedMean_eq]
  omega

namespace Fixed

variable {t start finish : Fixed}

/-- The distance fits, the product keeps all of its digits, and so the sum is the mean of the
ends. -/
theorem lerp_steps (nonneg : 0 ≤ t.toRaw) (most : t.toRaw ≤ one.toRaw)
    (apart : Fits (finish.toRaw - start.toRaw)) :
    ∃ distance r, finish.sub start = .ok distance ∧
      distance.toRaw = finish.toRaw - start.toRaw ∧
      (t.mul distance).toRaw = ⌊t.value * distance.toRaw⌋ ∧
      start.add (t.mul distance) = .ok r ∧
      r.toRaw = weightedMean t.toRaw start.toRaw finish.toRaw := by
  have mean := weightedMean_between nonneg most start.toRaw finish.toRaw
  have way := wayAlong_between (finish.toRaw - start.toRaw) nonneg most
  have first := start.fits_toRaw
  have last := finish.fits_toRaw
  have raw := toRaw_ofRaw apart
  have fits_way : Fits (wayAlong t.toRaw (finish.toRaw - start.toRaw)) := by
    unfold Fits at *
    omega
  have fits_mean : Fits (weightedMean t.toRaw start.toRaw finish.toRaw) := by
    unfold Fits at *
    omega
  have moved : (t.mul (.ofRaw (finish.toRaw - start.toRaw))).toRaw =
      wayAlong t.toRaw (finish.toRaw - start.toRaw) := by
    unfold mul
    rw [raw]
    exact toRaw_ofRaw fits_way
  refine ⟨.ofRaw (finish.toRaw - start.toRaw),
    .ofRaw (weightedMean t.toRaw start.toRaw finish.toRaw), if_pos apart, raw, ?_, ?_,
    toRaw_ofRaw fits_mean⟩
  · rw [moved, raw, floor_value_mul]
    rfl
  · unfold add
    rw [moved, ← weightedMean_eq]
    exact if_pos fits_mean

theorem exists_lerp_eq_ok (nonneg : 0 ≤ t.toRaw) (most : t.toRaw ≤ one.toRaw)
    (apart : Fits (finish.toRaw - start.toRaw)) :
    ∃ r, t.lerp start finish = .ok r ∧
      r.toRaw = weightedMean t.toRaw start.toRaw finish.toRaw := by
  obtain ⟨distance, r, found, -, -, sum, mean⟩ := lerp_steps nonneg most apart
  refine ⟨r, ?_, mean⟩
  unfold lerp
  rw [found]
  exact sum

/-- What interpolation returns is the mean of the ends, since it returns nothing else. -/
theorem toRaw_of_lerp_eq_ok {r : Fixed} (nonneg : 0 ≤ t.toRaw) (most : t.toRaw ≤ one.toRaw)
    (returned : t.lerp start finish = .ok r) :
    r.toRaw = weightedMean t.toRaw start.toRaw finish.toRaw := by
  have apart : Fits (finish.toRaw - start.toRaw) := by
    by_contra beyond
    rw [lerp_of_not_fits t beyond] at returned
    cases returned
  obtain ⟨r', returned', mean⟩ := exists_lerp_eq_ok nonneg most apart
  cases returned.symm.trans returned'
  exact mean

theorem lerp_eq_error_iff (nonneg : 0 ≤ t.toRaw) (most : t.toRaw ≤ one.toRaw) :
    (∃ cause, t.lerp start finish = .error cause) ↔ ¬ Fits (finish.toRaw - start.toRaw) := by
  refine ⟨?_, fun beyond => ⟨_, lerp_of_not_fits t beyond⟩⟩
  rintro ⟨cause, refused⟩ apart
  obtain ⟨r, returned, -⟩ := exists_lerp_eq_ok nonneg most apart
  cases refused.symm.trans returned

variable {r r' : Fixed}

theorem lerp_mono_start {start' : Fixed} (nonneg : 0 ≤ t.toRaw) (most : t.toRaw ≤ one.toRaw)
    (le : start.toRaw ≤ start'.toRaw) (returned : t.lerp start finish = .ok r)
    (returned' : t.lerp start' finish = .ok r') : r.toRaw ≤ r'.toRaw := by
  rw [toRaw_of_lerp_eq_ok nonneg most returned, toRaw_of_lerp_eq_ok nonneg most returned']
  exact weightedMean_mono_start most le

theorem lerp_mono_finish {finish' : Fixed} (nonneg : 0 ≤ t.toRaw) (most : t.toRaw ≤ one.toRaw)
    (le : finish.toRaw ≤ finish'.toRaw) (returned : t.lerp start finish = .ok r)
    (returned' : t.lerp start finish' = .ok r') : r.toRaw ≤ r'.toRaw := by
  rw [toRaw_of_lerp_eq_ok nonneg most returned, toRaw_of_lerp_eq_ok nonneg most returned']
  exact weightedMean_mono_finish nonneg le

/-- A greater fraction leads further in the direction of the distance. -/
theorem lerp_mono_fraction {t' : Fixed} (nonneg : 0 ≤ t.toRaw) (le : t.toRaw ≤ t'.toRaw)
    (most : t'.toRaw ≤ one.toRaw) (returned : t.lerp start finish = .ok r)
    (returned' : t'.lerp start finish = .ok r') :
    (start.toRaw ≤ finish.toRaw → r.toRaw ≤ r'.toRaw) ∧
      (finish.toRaw ≤ start.toRaw → r'.toRaw ≤ r.toRaw) := by
  rw [toRaw_of_lerp_eq_ok nonneg (Int.le_trans le most) returned,
    toRaw_of_lerp_eq_ok (Int.le_trans nonneg le) most returned', weightedMean_eq, weightedMean_eq]
  exact ⟨fun up => Int.add_le_add_left (wayAlong_mono (Int.sub_nonneg_of_le up) le) _,
    fun down => Int.add_le_add_left (wayAlong_anti (Int.sub_nonpos_of_le down) le) _⟩

/-- What is left of a fraction is a fraction. -/
theorem exists_sub_eq_ok (nonneg : 0 ≤ t.toRaw) (most : t.toRaw ≤ one.toRaw) :
    ∃ rest, one.sub t = .ok rest ∧ rest.toRaw = 65536 - t.toRaw := by
  have whole : one.toRaw = 65536 := by decide
  rw [whole] at most
  have fits : Fits (one.toRaw - t.toRaw) := by
    unfold Fits
    omega
  refine ⟨.ofRaw (one.toRaw - t.toRaw), if_pos fits, ?_⟩
  rw [toRaw_ofRaw fits, whole]

theorem lerp_reversed {rest : Fixed} (nonneg : 0 ≤ t.toRaw) (most : t.toRaw ≤ one.toRaw)
    (left : one.sub t = .ok rest) (returned : t.lerp start finish = .ok r)
    (returned' : rest.lerp finish start = .ok r') : r = r' := by
  obtain ⟨rest', left', raw⟩ := exists_sub_eq_ok nonneg most
  cases left.symm.trans left'
  have whole : one.toRaw = 65536 := by decide
  apply toRaw_injective
  rw [toRaw_of_lerp_eq_ok nonneg most returned,
    toRaw_of_lerp_eq_ok (t := rest) (by omega) (by omega) returned', raw, weightedMean_reversed]

end Fixed

namespace Range

/-- At a fraction from nothing to one, interpolation is refused if and only if the distance of the
ends does not fit. If it fits, no digit of the product is lost and the sum fits; the result is the
start and the whole 65536ths of the way, rounded down, and lies between the ends. Results rise with
the start and with the end, and with the fraction in the direction of the distance. Backward, and
with the rest of the fraction, the result is the same number. -/
theorem interpolation_laws (t start finish : Fixed) (nonneg : 0 ≤ t.toRaw)
    (most : t.toRaw ≤ Fixed.one.toRaw) :
    ((∃ cause, t.lerp start finish = .error cause) ↔ ¬ Fixed.Fits (finish.toRaw - start.toRaw)) ∧
    (Fixed.Fits (finish.toRaw - start.toRaw) → ∃ distance r,
      finish.sub start = .ok distance ∧ distance.toRaw = finish.toRaw - start.toRaw ∧
      (t.mul distance).toRaw = ⌊t.value * distance.toRaw⌋ ∧
      start.add (t.mul distance) = .ok r ∧
      t.lerp start finish = .ok r ∧ (Range.mk start finish).interpolate t = .ok r ∧
      r.toRaw = start.toRaw + ⌊t.value * (finish.toRaw - start.toRaw : Int)⌋ ∧
      min start.toRaw finish.toRaw ≤ r.toRaw ∧ r.toRaw ≤ max start.toRaw finish.toRaw) ∧
    (∀ start' r r' : Fixed, start.toRaw ≤ start'.toRaw → t.lerp start finish = .ok r →
      t.lerp start' finish = .ok r' → r.toRaw ≤ r'.toRaw) ∧
    (∀ finish' r r' : Fixed, finish.toRaw ≤ finish'.toRaw → t.lerp start finish = .ok r →
      t.lerp start finish' = .ok r' → r.toRaw ≤ r'.toRaw) ∧
    (∀ t' r r' : Fixed, t.toRaw ≤ t'.toRaw → t'.toRaw ≤ Fixed.one.toRaw →
      t.lerp start finish = .ok r → t'.lerp start finish = .ok r' →
      (start.toRaw ≤ finish.toRaw → r.toRaw ≤ r'.toRaw) ∧
        (finish.toRaw ≤ start.toRaw → r'.toRaw ≤ r.toRaw)) ∧
    ∃ rest, Fixed.one.sub t = .ok rest ∧ ∀ r r', t.lerp start finish = .ok r →
      rest.lerp finish start = .ok r' → r = r' := by
  refine ⟨Fixed.lerp_eq_error_iff nonneg most, fun apart => ?_,
    fun _ _ _ le => Fixed.lerp_mono_start nonneg most le,
    fun _ _ _ le => Fixed.lerp_mono_finish nonneg most le,
    fun _ _ _ le most' => Fixed.lerp_mono_fraction nonneg le most', ?_⟩
  · obtain ⟨distance, r, found, raw, way, sum, mean⟩ := Fixed.lerp_steps nonneg most apart
    have between := weightedMean_between nonneg most start.toRaw finish.toRaw
    have returned : t.lerp start finish = .ok r := by
      unfold Fixed.lerp
      rw [found]
      exact sum
    refine ⟨distance, r, found, raw, way, sum, returned, returned, ?_, mean ▸ between⟩
    rw [mean, weightedMean_eq, Fixed.floor_value_mul]
    rfl
  · obtain ⟨rest, left, -⟩ := Fixed.exists_sub_eq_ok nonneg most
    exact ⟨rest, left, fun _ _ => Fixed.lerp_reversed nonneg most left⟩

/-- The distance from zero to the least number fits, and a third of the way there is found. Backward
it does not fit, and interpolation is refused at the rest of the fraction. -/
theorem interpolation_laws_at_edge :
    (∃ r, (Fixed.ofRaw 21845).lerp .zero .min = .ok r ∧ r.toRaw = -715816960) ∧
      ∃ rest, Fixed.one.sub (.ofRaw 21845) = .ok rest ∧
        ∃ cause, rest.lerp .min .zero = .error cause := by
  obtain ⟨-, forth, -⟩ := interpolation_laws (.ofRaw 21845) .zero .min (by decide) (by decide)
  obtain ⟨refused, -⟩ := interpolation_laws (.ofRaw 43691) .min .zero (by decide) (by decide)
  obtain ⟨distance, r, -, -, -, -, returned, -, raw, -⟩ := forth (by decide)
  refine ⟨⟨r, returned, ?_⟩, .ofRaw 43691, by decide, refused.2 (by decide)⟩
  rw [raw, Fixed.floor_value_mul]
  decide

end Range

end Animation
