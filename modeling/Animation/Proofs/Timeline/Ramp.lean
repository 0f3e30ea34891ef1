/-
# A ramp rises from the first frame to the last

Along the frames of a timeline the alpha of an increasing ramp starts from zero, never falls,
and reaches the largest alpha at the last frame. It comes of five roundings, each of which
keeps the order and leaves alone what has no digits too many, as zero and one have.
-/

import Animation.Proofs.Binary.Rounding
import Animation.Timeline.Clock

namespace Animation

/-- The alpha at frame `k` of `n`, step by step: both counts are converted, divided, widened,
scaled and rounded to a whole number. -/
structure RampAlpha (n k alpha : Nat) : Prop where
  steps : ∃ a b q c p : ℚ, Format.binary32.Rounds k a ∧ Format.binary32.Rounds n b ∧
    Format.binary32.Rounds (a / b) q ∧ Format.binary64.Rounds q c ∧
    Format.binary64.Rounds (c * alphaMax) p ∧ alpha = min ⌊p + 1 / 2⌋.toNat Word.max32

/-- A whole number without too many digits is its own nearest number. -/
theorem Format.rounds32 {n : Nat} (h : n < 2 ^ 24) : binary32.Rounds n n :=
  .natCast h (by decide)

theorem Format.rounds64 {n : Nat} (h : n < 2 ^ 53) : binary64.Rounds n n :=
  .natCast h (by decide)

theorem Format.Rounds.le_one {f : Format} {x v : ℚ} (h : f.Rounds x v) (le : x ≤ 1)
    (digits : 1 < 2 ^ f.precision) (least : f.least ≤ 0) : v ≤ 1 := by
  have mono := h.mono (.natCast (n := 1) digits least) (by exact_mod_cast le)
  exact_mod_cast mono

namespace RampAlpha

variable {n k k' alpha alpha' : Nat}

theorem divisor_pos {b : ℚ} (hn : 1 ≤ n) (hb : Format.binary32.Rounds n b) : 0 < b := by
  have one := Format.rounds32 (n := 1) (by decide)
  have le := one.mono hb (by exact_mod_cast hn)
  push_cast at le
  linarith

theorem mono (hn : 1 ≤ n) (h : RampAlpha n k alpha) (h' : RampAlpha n k' alpha') (le : k ≤ k') :
    alpha ≤ alpha' := by
  obtain ⟨a, b, q, c, p, ha, hb, hq, hc, hp, rfl⟩ := h.steps
  obtain ⟨a', b', q', c', p', ha', hb', hq', hc', hp', rfl⟩ := h'.steps
  cases hb.unique hb'
  have le_a : a ≤ a' := ha.mono ha' (by exact_mod_cast le)
  have le_q : q ≤ q' := hq.mono hq' (div_le_div_of_nonneg_right le_a (divisor_pos hn hb).le)
  have le_c : c ≤ c' := hc.mono hc' le_q
  have le_p : p ≤ p' := hp.mono hp' (mul_le_mul_of_nonneg_right le_c (Nat.cast_nonneg _))
  have le_floor : ⌊p + 1 / 2⌋ ≤ ⌊p' + 1 / 2⌋ := Int.floor_le_floor (by linarith)
  omega

theorem first (h : RampAlpha n 0 alpha) : alpha = 0 := by
  obtain ⟨a, b, q, c, p, ha, hb, hq, hc, hp, rfl⟩ := h.steps
  cases ha.unique (Format.rounds32 (n := 0) (by decide))
  rw [Nat.cast_zero, zero_div, ← Nat.cast_zero] at hq
  cases hq.unique (Format.rounds32 (n := 0) (by decide))
  cases hc.unique (Format.rounds64 (n := 0) (by decide))
  rw [Nat.cast_zero, zero_mul, ← Nat.cast_zero] at hp
  cases hp.unique (Format.rounds64 (n := 0) (by decide))
  norm_num

theorem last (hn : 1 ≤ n) (h : RampAlpha n n alpha) : alpha = alphaMax := by
  obtain ⟨a, b, q, c, p, ha, hb, hq, hc, hp, rfl⟩ := h.steps
  cases ha.unique hb
  rw [div_self (divisor_pos hn hb).ne', ← Nat.cast_one] at hq
  cases hq.unique (Format.rounds32 (n := 1) (by decide))
  cases hc.unique (Format.rounds64 (n := 1) (by decide))
  rw [Nat.cast_one, one_mul] at hp
  cases hp.unique (Format.rounds64 (n := alphaMax) (by decide))
  have floor : ⌊(alphaMax : ℚ) + 1 / 2⌋ = alphaMax := by norm_num [alphaMax]
  rw [floor]
  rfl

end RampAlpha

namespace Easing

theorem isMagnitude_zero : (0 : Single).IsMagnitude 0 := ⟨0, -149, by decide, rfl, by norm_num⟩

theorem isMagnitude_one : (1 : Single).IsMagnitude 1 :=
  ⟨2 ^ 23, -23, by decide, by rfl, by norm_num⟩

theorem isMagnitude_alphaMax : (Binary.ofNat alphaMax : Double).IsMagnitude alphaMax := by
  have small : (alphaMax : ℚ) < Binary.limit .binary64 :=
    Binary.lt_limit 16 (by norm_num [alphaMax]) (by decide)
  obtain ⟨v, magnitude, rounds⟩ := Binary.exists_isMagnitude_ofNat small
  cases rounds.unique (Format.rounds64 (n := alphaMax) (by decide))
  exact magnitude

/-- Progress that is not beyond the end is widened, scaled and rounded. -/
theorem exists_alphaOf {x : Single} {q : ℚ} (hx : x.IsMagnitude q) (le : q ≤ 1) :
    ∃ c p : ℚ, Format.binary64.Rounds q c ∧ Format.binary64.Rounds (c * alphaMax) p ∧
      alphaOf x = min ⌊p + 1 / 2⌋.toNat Word.max32 := by
  have held : x.clamp 0 1 = x := hx.clamp_eq isMagnitude_zero isMagnitude_one hx.nonneg le
  have one_lt : (1 : ℚ) < Binary.limit .binary64 := Binary.lt_limit 1 (by norm_num) (by decide)
  obtain ⟨c, wide, hc⟩ := hx.exists_convert (lt_of_le_of_lt le one_lt)
  have c_le : c ≤ 1 := hc.le_one le (by decide) (by decide)
  have small : c * alphaMax < Binary.limit .binary64 := by
    have le_max : c * alphaMax ≤ 1 * alphaMax :=
      mul_le_mul_of_nonneg_right c_le (Nat.cast_nonneg _)
    exact lt_of_le_of_lt le_max (Binary.lt_limit 16 (by norm_num [alphaMax]) (by decide))
  obtain ⟨p, product, hp⟩ := wide.exists_mul isMagnitude_alphaMax small
  refine ⟨c, p, hc, hp, ?_⟩
  simp only [alphaOf, held, product.roundAway?_eq]

/-- Only what a value is held to counts. -/
theorem alphaOf_congr {x y : Single} (h : x.clamp 0 1 = y.clamp 0 1) : alphaOf x = alphaOf y := by
  rw [alphaOf, h, alphaOf]

theorem alphaOf_magnitude_le {x : Single} {q : ℚ} (hx : x.IsMagnitude q) (le : q ≤ 1) :
    alphaOf x ≤ alphaMax := by
  obtain ⟨c, p, hc, hp, eq⟩ := exists_alphaOf hx le
  have c_le : c ≤ 1 := hc.le_one le (by decide) (by decide)
  have scaled_le : c * alphaMax ≤ alphaMax :=
    mul_le_of_le_one_left (Nat.cast_nonneg _) c_le
  have p_le : p ≤ alphaMax := hp.mono (Format.rounds64 (by decide)) scaled_le
  have floor : ⌊(alphaMax : ℚ) + 1 / 2⌋ = alphaMax := by norm_num [alphaMax]
  have le_floor : ⌊p + 1 / 2⌋ ≤ ⌊(alphaMax : ℚ) + 1 / 2⌋ := Int.floor_le_floor (by linarith)
  omega

/-- A number below zero is. -/
theorem lt_zero_of_negative {m : Nat} {e : Int} (h : Format.binary32.Canonical m e)
    (positive : 0 < m) : (.finite true m e h : Single).lt 0 = true := by
  have compared : Binary.compareScaled (Binary.signed true m) e (Binary.signed false 0) (-149) =
      .lt := by
    unfold Binary.compareScaled
    dsimp only
    rw [show Binary.signed false 0 = 0 from rfl, Int.zero_mul, Int.compare_eq_lt]
    have power : (0 : Int) < 2 ^ (e - min e (-149)).toNat := Int.pow_pos (by decide)
    exact Int.mul_neg_of_neg_of_pos (Int.neg_neg_of_pos (Int.natCast_pos.2 positive)) power
  show (some (Binary.compareScaled _ e (Binary.signed false 0) (-149)) == some .lt) = true
  rw [compared]
  rfl

/-- No value has an alpha beyond the end of an animation, whatever it is. -/
theorem alphaOf_le (x : Single) : alphaOf x ≤ alphaMax := by
  by_cases low : x.lt 0 = true
  · have held : x.clamp 0 1 = (0 : Single).clamp 0 1 := if_pos low
    rw [alphaOf_congr held]
    decide +kernel
  by_cases high : (1 : Single).lt x = true
  · have held : x.clamp 0 1 = (1 : Single).clamp 0 1 := by
      rw [Binary.clamp, if_neg low, if_pos high]
      rfl
    rw [alphaOf_congr held]
    decide +kernel
  cases x with
  | nan => decide +kernel
  | infinite negative => cases negative <;> decide +kernel
  | finite negative m e h =>
      cases negative with
      | false =>
          have magnitude : (Binary.finite false m e h).IsMagnitude (m * 2 ^ e) :=
            ⟨m, e, h, rfl, rfl⟩
          apply alphaOf_magnitude_le magnitude
          rw [isMagnitude_one.lt_iff magnitude] at high
          exact not_lt.1 high
      | true =>
          -- What is left is the zero that counts as negative.
          have zero : m = 0 := by
            by_contra some
            exact low (lt_zero_of_negative h (Nat.pos_of_ne_zero some))
          subst zero
          have least : e = -149 := h.2.2.2.resolve_right (by decide)
          subst least
          exact (by decide +kernel : alphaOf (Binary.zero true) ≤ alphaMax)

/-- No easing has an alpha beyond the end of an animation. -/
theorem sample_le (curves : Curves) (easing : Easing) (t : Single) :
    easing.sample curves t ≤ alphaMax := alphaOf_le _

end Easing

namespace Clock

variable {c : Clock}

/-- A whole number that a word holds is not too large for single precision. -/
theorem lt_limit32 {n : Nat} (h : n ≤ Word.max32) : (n : ℚ) < Binary.limit .binary32 := by
  have le : (n : ℚ) ≤ Word.max32 := by exact_mod_cast h
  exact lt_of_le_of_lt le (Binary.lt_limit 32 (by norm_num [Word.max32]) (by decide))

theorem frames_pos (c : Clock) : 1 ≤ c.frames := by
  unfold frames Word.max32
  omega

theorem frames_le (c : Clock) : c.frames ≤ Word.max32 := Nat.min_le_right ..

/-- The alpha of an increasing ramp, whatever the curves. -/
def ramp (c : Clock) : Nat := Easing.alphaOf c.progress

theorem alphaBy_rampInc (c : Clock) (curves : Curves) : c.alphaBy curves .rampInc = c.ramp := rfl

/-- The alpha of an increasing ramp comes of the steps above. -/
theorem rampAlpha (h : c.frame ≤ c.frames) : RampAlpha c.frames c.frame c.ramp := by
  obtain ⟨a, frame, ha⟩ :=
    Binary.exists_isMagnitude_ofNat (lt_limit32 (Nat.le_trans h c.frames_le))
  obtain ⟨b, frames, hb⟩ := Binary.exists_isMagnitude_ofNat (lt_limit32 c.frames_le)
  have positive := RampAlpha.divisor_pos c.frames_pos hb
  have le_one : a / b ≤ 1 := by
    rw [div_le_one positive]
    exact ha.mono hb (by exact_mod_cast h)
  have one_lt : (1 : ℚ) < Binary.limit .binary32 := Binary.lt_limit 1 (by norm_num) (by decide)
  obtain ⟨q, progress, hq⟩ := frame.exists_div frames positive (lt_of_le_of_lt le_one one_lt)
  have q_le : q ≤ 1 := hq.le_one le_one (by decide) (by decide)
  obtain ⟨w, p, hw, hp, eq⟩ := Easing.exists_alphaOf progress q_le
  exact ⟨a, b, q, w, p, ha, hb, hq, hw, hp, eq⟩

end Clock

end Animation
