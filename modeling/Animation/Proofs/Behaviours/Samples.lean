/-
# The samples of accepted scales

Whatever has been made of a behaviour that scales, its bounds are not negative, since all that
is set passes the same check. For such bounds the interpolation is never refused and loses no
digits. The samples stay between the two ends, meet them exactly, keep their order, and differ
from the exact proportion by what the two roundings can take away: less than a 65536th of the
distance for the fraction, and less than one unit for the product.
-/

import Animation.Proofs.Behaviours.Path
import Animation.Proofs.Stage.InOrder

namespace Animation

/-- A fraction in whole 65536ths falls short of the alpha that it stands for by less than one. -/
theorem fractionOf_near (alpha : Nat) :
    (fractionOf alpha : ℚ) / 65536 ≤ alpha / 65535 ∧
      (alpha : ℚ) / 65535 < fractionOf alpha / 65536 + 1 / 65536 := by
  have low : fractionOf alpha * 65535 ≤ alpha * 65536 := by
    unfold fractionOf
    omega
  have high : (alpha : Int) * 65536 < fractionOf alpha * 65535 + 65535 := by
    unfold fractionOf
    omega
  have low : (fractionOf alpha : ℚ) * 65535 ≤ alpha * 65536 := by exact_mod_cast low
  have high : (alpha : ℚ) * 65536 < fractionOf alpha * 65535 + 65535 := by exact_mod_cast high
  constructor <;> linarith

/-- A way along a distance falls short of the exact product by less than one. -/
theorem wayAlong_near (t distance : Int) :
    (wayAlong t distance : ℚ) ≤ t / 65536 * distance ∧
      (t : ℚ) / 65536 * distance < wayAlong t distance + 1 := by
  have low : wayAlong t distance * 65536 ≤ t * distance := by
    unfold wayAlong
    omega
  have high : t * distance < wayAlong t distance * 65536 + 65536 := by
    unfold wayAlong
    omega
  have low : (wayAlong t distance : ℚ) * 65536 ≤ t * distance := by exact_mod_cast low
  have high : (t : ℚ) * distance < wayAlong t distance * 65536 + 65536 := by exact_mod_cast high
  constructor <;> linarith

/-- What both roundings take away together. -/
theorem wayAlong_fractionOf_near (alpha : Nat) (distance : Int) :
    |(wayAlong (fractionOf alpha) distance : ℚ) - alpha / 65535 * distance| <
      |(distance : ℚ)| / 65536 + 1 := by
  obtain ⟨fraction_le, fraction_lt⟩ := fractionOf_near alpha
  obtain ⟨way_le, way_lt⟩ := wayAlong_near (fractionOf alpha) distance
  have product : |(wayAlong (fractionOf alpha) distance : ℚ) -
      fractionOf alpha / 65536 * distance| < 1 := by
    rw [abs_lt]
    constructor <;> linarith
  have fraction : |(fractionOf alpha : ℚ) / 65536 - alpha / 65535| ≤ 1 / 65536 := by
    rw [abs_le]
    constructor <;> linarith
  calc |(wayAlong (fractionOf alpha) distance : ℚ) - alpha / 65535 * distance|
      = |((wayAlong (fractionOf alpha) distance : ℚ) - fractionOf alpha / 65536 * distance) +
          ((fractionOf alpha : ℚ) / 65536 - alpha / 65535) * distance| := by
        congr 1
        ring
    _ ≤ |(wayAlong (fractionOf alpha) distance : ℚ) - fractionOf alpha / 65536 * distance| +
          |((fractionOf alpha : ℚ) / 65536 - alpha / 65535) * distance| := abs_add_le _ _
    _ = |(wayAlong (fractionOf alpha) distance : ℚ) - fractionOf alpha / 65536 * distance| +
          |(fractionOf alpha : ℚ) / 65536 - alpha / 65535| * |(distance : ℚ)| := by
        rw [abs_mul]
    _ < 1 + 1 / 65536 * |(distance : ℚ)| :=
        add_lt_add_of_lt_of_le product (mul_le_mul_of_nonneg_right fraction (abs_nonneg _))
    _ = |(distance : ℚ)| / 65536 + 1 := by ring

namespace Range

/-- What can be relied on when a range is sampled at the alphas of an animation. -/
structure Sampled (r : Range Fixed) (x : Nat → Fixed) : Prop where
  /-- The difference and the sum fit, and the product keeps all of its digits. -/
  exact_steps : ∀ alpha ≤ alphaMax, ∃ t distance, Fixed.ofRatio alpha alphaMax = .ok t ∧
    r.finish.sub r.start = .ok distance ∧
    (t.mul distance).toRaw = t.toRaw * distance.toRaw / Fixed.unit ∧
    r.start.add (t.mul distance) = .ok (x alpha)
  between : ∀ alpha ≤ alphaMax, min r.start.toRaw r.finish.toRaw ≤ (x alpha).toRaw ∧
    (x alpha).toRaw ≤ max r.start.toRaw r.finish.toRaw
  first : x 0 = r.start
  last : x alphaMax = r.finish
  rises : r.start.toRaw ≤ r.finish.toRaw →
    ∀ alpha alpha', alpha ≤ alpha' → alpha' ≤ alphaMax → (x alpha).toRaw ≤ (x alpha').toRaw
  falls : r.finish.toRaw < r.start.toRaw →
    ∀ alpha alpha', alpha ≤ alpha' → alpha' ≤ alphaMax → (x alpha').toRaw ≤ (x alpha).toRaw
  /-- The distance to the exact proportion, in 65536ths. -/
  near : ∀ alpha ≤ alphaMax,
    |((x alpha).toRaw : ℚ) -
        (r.start.toRaw + alpha / alphaMax * (r.finish.toRaw - r.start.toRaw))| <
      |(r.finish.toRaw - r.start.toRaw : ℚ)| / 65536 + 1

variable {r : Range Fixed} {alpha : Nat}

theorem pointAt_near (r : Range Fixed) (le : alpha ≤ alphaMax) :
    |((r.pointAt alpha).toRaw : ℚ) -
        (r.start.toRaw + alpha / alphaMax * (r.finish.toRaw - r.start.toRaw))| <
      |(r.finish.toRaw - r.start.toRaw : ℚ)| / 65536 + 1 := by
  have near := wayAlong_fractionOf_near alpha (r.finish.toRaw - r.start.toRaw)
  rw [r.toRaw_pointAt le, show ((alphaMax : Nat) : ℚ) = 65535 by norm_num [alphaMax]]
  push_cast at near ⊢
  rw [add_sub_add_left_eq_sub]
  exact near

/-- The points of a range of scales that are not negative are its samples. -/
theorem Accepted.sampled (h : r.Accepted) : r.Sampled r.pointAt where
  exact_steps alpha le := by
    obtain ⟨distance, apart, moved, arrival⟩ := h.steps le (Fixed.toRaw_ofRaw (fits_fractionOf le))
    exact ⟨_, distance, ofRatio_alphaMax le, apart, moved, arrival⟩
  between alpha le := by
    rw [r.toRaw_pointAt le]
    exact r.between le
  first := r.pointAt_zero
  last := r.pointAt_alphaMax
  rises up _ _ := pointAt_mono up
  falls down _ _ := pointAt_anti (Int.le_of_lt down)
  near _ := r.pointAt_near

end Range

namespace Stage.Reachable

/-- On every stage that is ever met, a behaviour that scales has bounds that are not negative,
and whatever the alpha, both scales are computed without overflow, from the exact start to the
exact end, in order, and within the error of the two roundings. -/
theorem scales_sampled {s : Stage} (h : s.Reachable) {b : Ref .behaviour} {bounds : ScaleBounds}
    {gravity : Gravity} (scales : (s.behaviours.get b).drive = .scale bounds gravity) :
    (0 ≤ bounds.x.start.toRaw ∧ 0 ≤ bounds.y.start.toRaw ∧
        0 ≤ bounds.x.finish.toRaw ∧ 0 ≤ bounds.y.finish.toRaw) ∧
      ∃ x y : Nat → Fixed,
        (∀ alpha ≤ alphaMax, bounds.sample alpha = .ok (x alpha, y alpha)) ∧
        bounds.x.Sampled x ∧ bounds.y.Sampled y := by
  have accepted := ScaleBounds.accepted_of_toBounds (h.checked b bounds gravity scales)
  refine ⟨⟨accepted.x.start_nonneg, accepted.y.start_nonneg, accepted.x.finish_nonneg,
    accepted.y.finish_nonneg⟩, bounds.x.pointAt, bounds.y.pointAt, ?_, accepted.x.sampled,
    accepted.y.sampled⟩
  exact fun alpha le => accepted.sample_eq le

/-- Give the first behaviour new bounds, in double precision. -/
def resize (corners : Corners Double) : Script Unit (Option Unit) := do
  let fixed ← Script.check corners.toFixed
  Script.owning [.behaviour ⟨0⟩] (Script.setScaleBounds (.silent Unit) ⟨0⟩ fixed)

theorem course_resize (corners : Corners Double) :
    Script.Course (fun _ => []) (resize corners) := by
  refine .bind ?_ fun fixed => .offered (.setScaleBounds ⟨0⟩ fixed)
  cases corners.toFixed with
  | error cause => exact .breakOff (.violation cause)
  | ok fixed => exact .pure fixed

/-- A behaviour that is made without scaling, refuses to scale by less than nothing, and is then
turned and told to shrink on one axis and to grow on the other. -/
def resizing : Script Unit Unit := do
  let _ ← Script.owning [] (Script.makeScale (.silent Unit) ⟨.one, .one, .one, .one⟩ .center none)
  let _ ← (resize ⟨2, -1, 1, 1⟩).attempt
  let _ ← Script.owning [.behaviour ⟨0⟩] (Script.setGravity (.silent Unit) ⟨0⟩ .west)
  let _ ← resize ⟨2, 1 / 2, 0, 3⟩

theorem reachable_resizing : (resizing.run ⟨.empty true, ()⟩).2.stage.Reachable :=
  Arises.reachable (.course (.opening true rfl)
    (.bind (.offered (.makeScale ⟨.one, .one, .one, .one⟩ .center none)) fun _ =>
      .bind (.goOn (course_resize _)) fun _ =>
        .bind (.offered (.setGravity ⟨0⟩ .west)) fun _ =>
          .bind (course_resize _) fun _ => .pure ()))

theorem scales_sampled_resizing :
    let shrinking : Range Fixed := ⟨.ofRaw 131072, .zero⟩
    let growing : Range Fixed := ⟨.half, .ofRaw 196608⟩
    ((resizing.run ⟨.empty true, ()⟩).2.stage.behaviours.get ⟨0⟩).drive =
        .scale ⟨shrinking, growing⟩ .west ∧
      ∃ x y : Nat → Fixed,
        (∀ alpha ≤ alphaMax,
          (ScaleBounds.mk shrinking growing).sample alpha = .ok (x alpha, y alpha)) ∧
        shrinking.Sampled x ∧ growing.Sampled y := by
  have scales : ((resizing.run ⟨.empty true, ()⟩).2.stage.behaviours.get ⟨0⟩).drive =
      .scale ⟨⟨.ofRaw 131072, .zero⟩, ⟨.half, .ofRaw 196608⟩⟩ .west := by
    decide +kernel
  exact ⟨scales, (reachable_resizing.scales_sampled scales).2⟩

end Stage.Reachable

end Animation
