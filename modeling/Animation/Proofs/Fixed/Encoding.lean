/-
# Fixed point numbers as JSON

A fixed point number is written as the floating-point number that it is, and ranges and bounds
are made of such numbers. To write loses nothing, and the conversion back accepts all that was
written. The reader, however, asks first that the magnitude be below 32768, on both sides of
zero. The numbers themselves reach down to -32768, so the least of them is written but not read,
and neither is a range or bounds with it.
-/

import Animation.Json.Codec
import Animation.Proofs.Fixed.Conversion

namespace Animation

namespace Fixed

/-- What the reader answers to the least number. -/
def refusal : DecodeError := .outOfRange readLimit.neg

theorem isMagnitude_readLimit : readLimit.IsMagnitude 32768 :=
  ⟨2 ^ 52, -37, by decide, by decide +kernel, by norm_num⟩

/-- The reader refuses the magnitude of one number. -/
theorem readLimit_le_abs_iff (x : Fixed) : readLimit.le x.toDouble.abs = true ↔ x = min := by
  have fits := x.fits_toRaw
  have size : |x.value| = (x.toRaw.natAbs : ℚ) / 65536 := by
    rw [value, abs_div, Nat.cast_natAbs, Int.cast_abs, abs_of_pos (by norm_num : (0 : ℚ) < 65536)]
  have least : min.toRaw = -2147483648 := by decide
  rw [isMagnitude_readLimit.le_iff x.isNumber_toDouble.isMagnitude_abs, size,
    le_div_iff₀ (by norm_num)]
  norm_num
  constructor
  · intro large
    have large : 2147483648 ≤ |x.toRaw| := by exact_mod_cast large
    apply toRaw_injective
    unfold Fits at fits
    rw [Int.abs_eq_natAbs] at large
    omega
  · rintro rfl
    rw [least]
    norm_num

theorem toDouble_min : min.toDouble = readLimit.neg := by decide +kernel

/-- A number is read as it was written, unless it is the least one. -/
theorem ofJson_toJson (x : Fixed) :
    ofJson x.toJson = if x = min then .error refusal else .ok x := by
  have bound := x.readLimit_le_abs_iff
  show (if !x.toDouble.isFinite || readLimit.le x.toDouble.abs then _ else _) = _
  rw [x.isNumber_toDouble.isFinite, Bool.not_true, Bool.false_or]
  by_cases least : x = min
  · rw [if_pos (bound.2 least), if_pos least, least, toDouble_min]
    rfl
  · rw [if_neg (mt bound.1 least), if_neg least, ofDouble_toDouble]

end Fixed

namespace Json

/-- Both parts of a pair are read. -/
theorem readPair_toJson {α : Type} (write : α → Json) (read : Json → Except DecodeError α)
    (r : Range α) :
    readPair read (r.toJson write) = do
      let start ← read (write r.start)
      let finish ← read (write r.finish)
      return { start, finish } := rfl

/-- What is made of two parts is refused exactly if one of them is. -/
theorem read_both {α β γ : Type} {p q : Prop} [Decidable p] [Decidable q] {cause : DecodeError}
    {a : α} {b : β} {first : Except DecodeError α} {second : Except DecodeError β}
    (first_eq : first = if p then .error cause else .ok a)
    (second_eq : second = if q then .error cause else .ok b) (f : α → β → γ) :
    (do
      let x ← first
      let y ← second
      return f x y) = if p ∨ q then .error cause else .ok (f a b) := by
  rw [first_eq, second_eq]
  by_cases hp : p
  · rw [if_pos hp, if_pos (show p ∨ q from .inl hp)]
    rfl
  · by_cases hq : q
    · rw [if_neg hp, if_pos hq, if_pos (show p ∨ q from .inr hq)]
      rfl
    · rw [if_neg hp, if_neg hq, if_neg (not_or.2 ⟨hp, hq⟩)]
      rfl

end Json

theorem Range.ofJsonFixed_toJson (r : Range Fixed) :
    ofJsonFixed (r.toJson Fixed.toJson) =
      if r.start = .min ∨ r.finish = .min then .error Fixed.refusal else .ok r := by
  show Json.readPair Fixed.ofJson _ = _
  rw [Json.readPair_toJson]
  exact Json.read_both r.start.ofJson_toJson r.finish.ofJson_toJson Range.mk

namespace ScaleBounds

/-- Both axes of bounds are read. -/
theorem ofJson_toJson_eq (b : ScaleBounds) :
    ofJson b.toJson = do
      let x ← Range.ofJsonFixed (b.x.toJson Fixed.toJson)
      let y ← Range.ofJsonFixed (b.y.toJson Fixed.toJson)
      return { x, y } := by
  show ofFields none none [(some "x", _), (some "y", _)] = _
  simp only [ofFields, Option.isSome_none, Bool.false_eq_true, if_false, if_true,
    show ¬ "y" = "x" by decide]
  rfl

theorem ofJson_toJson (b : ScaleBounds) :
    ofJson b.toJson =
      if (b.x.start = .min ∨ b.x.finish = .min) ∨ b.y.start = .min ∨ b.y.finish = .min then
        .error Fixed.refusal
      else .ok b := by
  rw [ofJson_toJson_eq]
  exact Json.read_both b.x.ofJsonFixed_toJson b.y.ofJsonFixed_toJson ScaleBounds.mk

end ScaleBounds

namespace Fixed

/-- To write divides exactly, and the product that the conversion back takes is exact as well, so
the conversion gives back every number. What was written is read, as it was, exactly if the least
number is no part of it. -/
theorem written_and_read (x : Fixed) (r : Range Fixed) (b : ScaleBounds) :
    (x.toJson = .float (Binary.ofInt x.toRaw / 65536) ∧
      (Binary.ofInt x.toRaw : Double).IsNumber x.toRaw ∧
      (Binary.ofInt x.toRaw / 65536 : Double).IsNumber x.value ∧
      (Binary.ofInt x.toRaw / 65536 * 65536 : Double).IsNumber x.toRaw ∧
      ofDouble (Binary.ofInt x.toRaw / 65536) = .ok x) ∧
    (ofJson x.toJson = if x = min then .error refusal else .ok x) ∧
    (Range.ofJsonFixed (r.toJson toJson) =
      if r.start = min ∨ r.finish = min then .error refusal else .ok r) ∧
    (ScaleBounds.ofJson b.toJson =
      if (b.x.start = min ∨ b.x.finish = min) ∨ b.y.start = min ∨ b.y.finish = min then
        .error refusal
      else .ok b) := by
  have quotient : (Binary.ofInt x.toRaw / 65536 : Double) = x.toDouble := Binary.div_unit _
  rw [quotient, Binary.mul_unit]
  exact ⟨⟨rfl, x.isNumber_ofInt_toRaw, x.isNumber_toDouble, x.isNumber_scale_toDouble,
    x.ofDouble_toDouble⟩, x.ofJson_toJson, r.ofJsonFixed_toJson, b.ofJson_toJson⟩

/-- The least number is written as -32768. This is not read, although it is the least number
that the conversion makes of it. -/
theorem min_not_read :
    min.toJson = .float readLimit.neg ∧ ofJson min.toJson = .error (.outOfRange readLimit.neg) ∧
      ofDouble readLimit.neg = .ok min := by
  rw [← toDouble_min]
  exact ⟨rfl, by decide +kernel, by decide +kernel⟩

end Fixed

end Animation
