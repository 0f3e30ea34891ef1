/-
# Which scales are accepted

Whether a scale in double precision is accepted is decided three times: on the number itself, when
it is converted, and on the fixed point number that comes out. The first decision is the only one.
A number that passes it is converted, to the largest multiple of the unit that is not above it, and
that is not negative. Of four scales the first one that is no scale is named, and nothing is
converted.
-/

import Animation.Proofs.Fixed.Conversion
import Animation.Scale
import Mathlib.Order.Bounds.Defs

namespace Animation

section Checks

variable {ε α : Type} {test : α → Except ε Unit}

theorem forM_eq_ok_iff {l : List α} : forM l test = .ok () ↔ ∀ a ∈ l, test a = .ok () := by
  induction l with
  | nil => exact ⟨fun _ => nofun, fun _ => rfl⟩
  | cons a rest ih =>
      rw [List.forM_cons, List.forall_mem_cons, ← ih]
      cases test a with
      | error cause => exact ⟨nofun, fun h => nomatch h.1⟩
      | ok _ => exact ⟨fun h => ⟨rfl, h⟩, And.right⟩

/-- If not all members pass, the first of those that do not says why. -/
theorem exists_first_of_forM_eq_error {l : List α} {cause : ε} (h : forM l test = .error cause) :
    ∃ before a after, l = before ++ a :: after ∧ (∀ a' ∈ before, test a' = .ok ()) ∧
      test a = .error cause := by
  induction l with
  | nil => exact nomatch h
  | cons a rest ih =>
      rw [List.forM_cons] at h
      cases first : test a with
      | error cause' =>
          rw [first] at h
          cases h
          exact ⟨[], a, rest, rfl, nofun, first⟩
      | ok _ =>
          rw [first] at h
          obtain ⟨before, b, after, rfl, passed, refused⟩ := ih h
          exact ⟨a :: before, b, after, rfl, List.forall_mem_cons.2 ⟨first, passed⟩, refused⟩

end Checks

namespace Corners

variable {α : Type}

/-- The four values, in the order in which they are checked. -/
def toList (c : Corners α) : List α := [c.xStart, c.yStart, c.xEnd, c.yEnd]

theorem forall_mem_toList {c : Corners α} {p : α → Prop} :
    (∀ a ∈ c.toList, p a) ↔ p c.xStart ∧ p c.yStart ∧ p c.xEnd ∧ p c.yEnd := by
  simp [toList]

/-- Each of four values is in a relation with the other in its place. -/
structure Match {β : Type} (r : α → β → Prop) (c : Corners α) (c' : Corners β) : Prop where
  xStart : r c.xStart c'.xStart
  yStart : r c.yStart c'.yStart
  xEnd : r c.xEnd c'.xEnd
  yEnd : r c.yEnd c'.yEnd

theorem checkAll_eq_forM (test : α → Except Violation Unit) (c : Corners α) :
    c.checkAll test = forM c.toList test := by
  unfold checkAll
  show _ = (do test c.xStart; test c.yStart; test c.xEnd; test c.yEnd; return ())
  cases test c.xStart <;> cases test c.yStart <;> cases test c.xEnd <;> cases test c.yEnd <;> rfl

end Corners

/-- A scale: a finite number that is not negative and below 32768. The zero with a sign is one. -/
def IsScale (d : Double) : Prop := ∃ v, d.IsNumber v ∧ 0 ≤ v ∧ v < 32768

theorem not_isScale_iff {d : Double} :
    ¬ IsScale d ↔ d.isFinite = false ∨ ∃ v, d.IsNumber v ∧ (v < 0 ∨ 32768 ≤ v) := by
  constructor
  · intro refused
    cases finite : d.isFinite with
    | false => exact .inl rfl
    | true =>
        obtain ⟨v, number⟩ := Binary.isNumber_of_isFinite finite
        refine .inr ⟨v, number, ?_⟩
        by_contra within
        rw [not_or, not_lt, not_le] at within
        exact refused ⟨v, number, within⟩
  · rintro (infinite | ⟨v, number, beyond⟩) ⟨u, number', nonneg, small⟩
    · rw [number'.isFinite] at infinite
      exact nomatch infinite
    · cases number.unique number'
      rcases beyond with negative | large
      · exact absurd nonneg (not_le.2 negative)
      · exact absurd small (not_lt.2 large)

theorem isNumber_zero : (0 : Double).IsNumber 0 :=
  ⟨false, 0, -1074, by decide, by decide +kernel,
    by rw [Binary.signed_cast, Nat.cast_zero, mul_zero, zero_mul]⟩

theorem isNumber_scaleLimit : scaleLimit.IsNumber 32768 :=
  ⟨false, 2 ^ 52, -37, by decide, by decide +kernel, by norm_num [Binary.signed]⟩

theorem checkScale_eq_ok_iff {d : Double} : checkScale d = .ok () ↔ IsScale d := by
  have passes : checkScale d = .ok () ↔
      (d.isFinite && (0 : Double).le d && d.lt scaleLimit) = true := by
    unfold checkScale
    split
    · next holds => exact ⟨fun _ => holds, fun _ => rfl⟩
    · next fails => exact ⟨nofun, fun holds => absurd holds fails⟩
  rw [passes, Bool.and_eq_true, Bool.and_eq_true]
  constructor
  · rintro ⟨⟨finite, nonneg⟩, small⟩
    obtain ⟨v, number⟩ := Binary.isNumber_of_isFinite finite
    exact ⟨v, number, (isNumber_zero.le_iff number).1 nonneg,
      (number.lt_iff isNumber_scaleLimit).1 small⟩
  · rintro ⟨v, number, nonneg, small⟩
    exact ⟨⟨number.isFinite, (isNumber_zero.le_iff number).2 nonneg⟩,
      (number.lt_iff isNumber_scaleLimit).2 small⟩

theorem checkScale_of_not {d : Double} (h : ¬ IsScale d) :
    checkScale d = .error (.invalidScale d) := by
  rw [← checkScale_eq_ok_iff] at h
  unfold checkScale at h ⊢
  split
  · next holds => exact absurd (if_pos holds) h
  · rfl

theorem checkFixedScale_eq_ok_iff {x : Fixed} : checkFixedScale x = .ok () ↔ 0 ≤ x.toRaw := by
  unfold checkFixedScale
  split
  · next nonneg => exact ⟨fun _ => nonneg, fun _ => rfl⟩
  · next negative => exact ⟨nofun, fun nonneg => absurd nonneg negative⟩

theorem checkFixedScale_of_neg {x : Fixed} (h : x.toRaw < 0) :
    checkFixedScale x = .error (.invalidScale x.toDouble) :=
  if_neg (not_le.2 h)

/-- A number is converted to a fixed point number that is not negative: its fraction of a 65536th
is dropped. -/
structure ConvertsTo (d : Double) (x : Fixed) : Prop where
  converted : Fixed.ofDouble d = .ok x
  toRaw_eq : ∀ v, d.IsNumber v → x.toRaw = ⌊v * 65536⌋
  nonneg : 0 ≤ x.toRaw

theorem IsScale.convertsTo {d : Double} (h : IsScale d) : ∃ x, ConvertsTo d x := by
  obtain ⟨v, number, nonneg, small⟩ := h
  have low : 0 ≤ ⌊v * 65536⌋ := Int.floor_nonneg.2 (by positivity)
  have high : ⌊v * 65536⌋ < 2147483648 := Int.floor_lt.2 (by push_cast; linarith)
  have fits : Fixed.Fits ⌊v * 65536⌋ := by
    unfold Fixed.Fits
    omega
  have raw := Fixed.toRaw_ofRaw fits
  refine ⟨.ofRaw ⌊v * 65536⌋, ?_, fun u number' => ?_, raw.symm ▸ low⟩
  · rw [Fixed.ofDouble_eq number, towardZero_of_nonneg (by positivity)]
    exact if_pos fits
  · cases number.unique number'
    exact raw

/-- The multiples of the unit. -/
def unitMultiples : Set ℚ := {q | ∃ k : Int, q = k / 65536}

theorem Fixed.isGreatest_value {x : Fixed} {v : ℚ} (raw : x.toRaw = ⌊v * 65536⌋) :
    IsGreatest {q ∈ unitMultiples | q ≤ v} x.value := by
  have positive : (0 : ℚ) < 65536 := by norm_num
  refine ⟨⟨⟨x.toRaw, rfl⟩, ?_⟩, ?_⟩
  · unfold value
    rw [raw, div_le_iff₀ positive]
    exact Int.floor_le _
  · rintro _ ⟨⟨k, rfl⟩, le⟩
    rw [div_le_iff₀ positive] at le
    unfold value
    rw [raw, div_le_div_iff_of_pos_right positive]
    exact_mod_cast Int.le_floor.2 le

namespace Corners

/-- One of four numbers is not finite, negative or too large. -/
def AreBad (c : Corners Double) : Prop :=
  ∃ d ∈ c.toList, d.isFinite = false ∨ ∃ v, d.IsNumber v ∧ (v < 0 ∨ 32768 ≤ v)

/-- One of four fixed point numbers is negative. -/
def AreBadFixed (c : Corners Fixed) : Prop := ∃ x ∈ c.toList, x.toRaw < 0

theorem areBad_iff {c : Corners Double} : c.AreBad ↔ ∃ d ∈ c.toList, ¬ IsScale d :=
  exists_congr fun _ => and_congr_right fun _ => not_isScale_iff.symm

theorem not_areBad_iff {c : Corners Double} : ¬ c.AreBad ↔ ∀ d ∈ c.toList, IsScale d := by
  rw [areBad_iff]
  push Not
  rfl

theorem not_areBadFixed_iff {c : Corners Fixed} :
    ¬ c.AreBadFixed ↔ ∀ x ∈ c.toList, 0 ≤ x.toRaw := by
  unfold AreBadFixed
  push Not
  rfl

/-- The first of four values that does not pass is named. -/
def Refuses {α : Type} (c : Corners α) (passes : α → Prop) (bad : α) : Prop :=
  ∃ before after, c.toList = before ++ bad :: after ∧ (∀ a ∈ before, passes a) ∧ ¬ passes bad

theorem exists_toFixed_eq_ok {c : Corners Double} (good : ¬ c.AreBad) :
    ∃ fixed, c.toFixed = .ok fixed ∧ c.Match ConvertsTo fixed := by
  have scales := not_areBad_iff.1 good
  have checked : c.checkAll checkScale = .ok () := by
    rw [checkAll_eq_forM, forM_eq_ok_iff]
    exact fun d mem => checkScale_eq_ok_iff.2 (scales d mem)
  rw [forall_mem_toList] at scales
  obtain ⟨xStart, yStart, xEnd, yEnd⟩ := scales
  obtain ⟨a, ha⟩ := xStart.convertsTo
  obtain ⟨b, hb⟩ := yStart.convertsTo
  obtain ⟨d, hd⟩ := xEnd.convertsTo
  obtain ⟨e, he⟩ := yEnd.convertsTo
  refine ⟨⟨a, b, d, e⟩, ?_, ⟨ha, hb, hd, he⟩⟩
  unfold toFixed
  rw [checked, ha.converted, hb.converted, hd.converted, he.converted]
  rfl

theorem exists_toFixed_eq_error {c : Corners Double} (bad : c.AreBad) :
    ∃ d, c.Refuses IsScale d ∧ c.toFixed = .error (.invalidScale d) := by
  cases checked : forM c.toList checkScale with
  | ok _ =>
      obtain ⟨d, mem, refused⟩ := areBad_iff.1 bad
      exact absurd (checkScale_eq_ok_iff.1 (forM_eq_ok_iff.1 checked d mem)) refused
  | error cause =>
      obtain ⟨before, d, after, split, passed, refused⟩ := exists_first_of_forM_eq_error checked
      have fails : ¬ IsScale d := by
        rw [← checkScale_eq_ok_iff, refused]
        exact nofun
      have cause_eq : cause = .invalidScale d :=
        Except.error.inj (refused.symm.trans (checkScale_of_not fails))
      refine ⟨d, ⟨before, after, split, fun a mem => checkScale_eq_ok_iff.1 (passed a mem), fails⟩,
        ?_⟩
      unfold toFixed
      rw [checkAll_eq_forM, checked, cause_eq]
      rfl

theorem toBounds_eq_ok_iff {c : Corners Fixed} :
    c.toBounds = .ok (.ofCorners c) ↔ ¬ c.AreBadFixed := by
  have all : c.checkAll checkFixedScale = .ok () ↔ ¬ c.AreBadFixed := by
    rw [not_areBadFixed_iff, checkAll_eq_forM, forM_eq_ok_iff]
    exact forall₂_congr fun x _ => checkFixedScale_eq_ok_iff
  rw [← all]
  unfold toBounds
  cases c.checkAll checkFixedScale with
  | ok _ => exact ⟨fun _ => rfl, fun _ => rfl⟩
  | error cause => exact ⟨nofun, nofun⟩

theorem exists_toBounds_eq_error {c : Corners Fixed} (bad : c.AreBadFixed) :
    ∃ x, c.Refuses (0 ≤ ·.toRaw) x ∧ c.toBounds = .error (.invalidScale x.toDouble) := by
  cases checked : forM c.toList checkFixedScale with
  | ok _ =>
      obtain ⟨x, mem, negative⟩ := bad
      exact absurd (checkFixedScale_eq_ok_iff.1 (forM_eq_ok_iff.1 checked x mem))
        (not_le.2 negative)
  | error cause =>
      obtain ⟨before, x, after, split, passed, refused⟩ := exists_first_of_forM_eq_error checked
      have fails : ¬ 0 ≤ x.toRaw := by
        rw [← checkFixedScale_eq_ok_iff, refused]
        exact nofun
      have cause_eq : cause = .invalidScale x.toDouble :=
        Except.error.inj (refused.symm.trans (checkFixedScale_of_neg (not_le.1 fails)))
      refine ⟨x, ⟨before, after, split, fun a mem => checkFixedScale_eq_ok_iff.1 (passed a mem),
        fails⟩, ?_⟩
      unfold toBounds
      rw [checkAll_eq_forM, checked, cause_eq]
      rfl

/-- What four scales are converted to is accepted in fixed point too. -/
theorem toBounds_of_match {c : Corners Double} {fixed : Corners Fixed}
    (h : c.Match ConvertsTo fixed) : fixed.toBounds = .ok (.ofCorners fixed) :=
  toBounds_eq_ok_iff.2 (not_areBadFixed_iff.2 (forall_mem_toList.2
    ⟨h.xStart.nonneg, h.yStart.nonneg, h.xEnd.nonneg, h.yEnd.nonneg⟩))

end Corners

end Animation
