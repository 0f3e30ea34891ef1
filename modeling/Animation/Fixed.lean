/-
# Fixed point numbers

A fixed point number is a 32-bit word that counts 65536ths. Interpolation is done on
these numbers, so that one sample of an animation gives one value on every platform.
Sums, differences and negations that do not fit are violations; a product keeps the
low 32 bits of its whole 65536ths, rounded down; conversions round toward zero.
-/

import Animation.Binary.Arithmetic
import Animation.Failure

namespace Animation

/-- The number `raw / 65536`. -/
structure Fixed where
  raw : Int32
  deriving DecidableEq, Inhabited

namespace Fixed

/-- How many binary digits stand behind the point. -/
def fractionDigits : Nat := 16

/-- How many units make one. -/
def unit : Int := 65536

/-- The count of 65536ths. -/
def toRaw (x : Fixed) : Int := x.raw.toInt

/-- The number whose count of 65536ths has these low 32 bits. -/
def ofRaw (z : Int) : Fixed := ⟨Int32.ofInt z⟩

/-- Whether a count of 65536ths is that of a fixed point number. -/
def Fits (z : Int) : Prop := -2147483648 ≤ z ∧ z ≤ 2147483647

instance (z : Int) : Decidable (Fits z) := by unfold Fits; infer_instance

theorem fits_toRaw (x : Fixed) : Fits x.toRaw := by
  have low := x.raw.le_toInt
  have high := x.raw.toInt_lt
  unfold Fits toRaw; omega

theorem toRaw_ofRaw {z : Int} (h : Fits z) : (ofRaw z).toRaw = z := by
  unfold Fits at h
  exact Int32.toInt_ofInt_of_le (by omega) (by omega)

@[simp]
theorem ofRaw_toRaw (x : Fixed) : ofRaw x.toRaw = x := by
  cases x; simp [ofRaw, toRaw]

theorem toRaw_injective {x y : Fixed} (h : x.toRaw = y.toRaw) : x = y := by
  rw [← ofRaw_toRaw x, ← ofRaw_toRaw y, h]

/-- The number with this count of 65536ths; a count that does not fit is the violation
`cause`. -/
def checked (cause : Violation) (z : Int) : Except Violation Fixed :=
  if Fits z then .ok (ofRaw z) else .error cause

def zero : Fixed := ofRaw 0
def one : Fixed := ofRaw 65536
def half : Fixed := ofRaw 32768
def max : Fixed := ofRaw 2147483647
def min : Fixed := ofRaw (-2147483648)

def add (x y : Fixed) : Except Violation Fixed := checked .addOverflow (x.toRaw + y.toRaw)

def sub (x y : Fixed) : Except Violation Fixed := checked .subOverflow (x.toRaw - y.toRaw)

def neg (x : Fixed) : Except Violation Fixed := checked .negOverflow (-x.toRaw)

/-- The product, rounded down to whole 65536ths, of which the low 32 bits are kept. -/
def mul (x y : Fixed) : Fixed := ofRaw (x.toRaw * y.toRaw / unit)

/-- The number that lies the fraction `t` of the way from `start` to `finish`. -/
def lerp (t start finish : Fixed) : Except Violation Fixed := do
  let distance ← finish.sub start
  start.add (t.mul distance)

instance : Ord Fixed := ⟨fun x y => Ord.compare x.toRaw y.toRaw⟩

/-- A whole number; it fits if it is that of a 16-bit word. -/
def ofInt (v : Int) : Except Violation Fixed :=
  if -32768 ≤ v ∧ v ≤ 32767 then .ok (ofRaw (v * unit)) else .error (.integerTooLarge v)

/-- The number of 65536ths in a floating-point number, less any fraction of one. -/
def ofDouble (x : Double) : Except Violation Fixed :=
  if x.isFinite then
    match (x.scale fractionDigits).truncate? with
    | some z => checked (.valueTooLarge x) z
    | none => .error (.valueTooLarge x)
  else .error (.notFinite x)

/-- The same number in double precision, which holds every fixed point number. -/
def toDouble (x : Fixed) : Double := (Binary.ofInt x.toRaw).scale (-fractionDigits)

/-- The quotient of two natural numbers, rounded down to whole 65536ths. -/
def ofRatio (numerator denominator : Nat) : Except Violation Fixed :=
  if denominator = 0 then .error .zeroDenominator
  else checked .ratioTooLarge (numerator * unit / denominator)

def toText (x : Fixed) : String := x.toDouble.toText

/-- The text of a number inside the text of a structure. -/
def describe (x : Fixed) : String := "Fixed(" ++ x.toRaw.repr ++ ")"

end Fixed

end Animation
