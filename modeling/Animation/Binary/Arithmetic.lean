/-
# Correctly rounded arithmetic

Every operation is the exact one on the represented values followed by a single
rounding to the nearest number of the format, a tie going to the even significand.
`round` performs that last step for a value given as `num / den · 2 ^ shift`, so
sums, products, quotients, changes of format and conversions from whole numbers
all share one rule.
-/

import Animation.Binary.Basic

namespace Animation

-- Powers are those of whole numbers, also where monoids are known.
attribute [local instance (1100)] instPowNat

/-- The whole number nearest to `num / den`, and the even one of two equally near. -/
def nearestEven (num den : Nat) : Nat :=
  let below := num / den
  let rest := num % den
  if 2 * rest < den ∨ 2 * rest = den ∧ below % 2 = 0 then below else below + 1

theorem nearestEven_exact {num den : Nat} (positive : 0 < den) (exact : num % den = 0) :
    nearestEven num den = num / den := by
  simp [nearestEven, exact, positive]

/-- The exponent of the largest power of two that does not exceed `num / den`. -/
def binaryLog (num den : Nat) : Int :=
  let guess : Int := num.log2 - den.log2
  if num * 2 ^ (-guess).toNat < den * 2 ^ guess.toNat then guess - 1 else guess

/-- The exponent of the unit to which `num / den · 2 ^ shift` is rounded: the
significand fills the precision unless the least exponent forbids it. -/
def Format.unitExponent (f : Format) (num den : Nat) (shift : Int) : Int :=
  if num = 0 then f.least
  else max f.least (binaryLog num den + shift - (f.precision - 1 : Nat))

namespace Binary

variable {f : Format}

/-- The number nearest to `± num / den · 2 ^ shift`. Values beyond the largest finite
number by half a unit or more become infinite. -/
def round (negative : Bool) (num den : Nat) (shift : Int) : Binary f :=
  let e := f.unitExponent num den shift
  let m := nearestEven (num * 2 ^ (shift - e).toNat) (den * 2 ^ (e - shift).toNat)
  if m = 2 ^ f.precision then ofParts negative (2 ^ (f.precision - 1)) (e + 1)
  else ofParts negative m e

/-- The number nearest to a whole number. -/
def ofInt (z : Int) : Binary f := round (decide (z < 0)) z.natAbs 1 0

def ofNat (n : Nat) : Binary f := round false n 1 0

/-- The number nearest to `x · 2 ^ k`. -/
def scale (k : Int) : Binary f → Binary f
  | finite negative m e _ => round negative m 1 (e + k)
  | x => x

/-- The number of the format `g` nearest to `x`. -/
def convert (g : Format) : Binary f → Binary g
  | nan => nan
  | infinite negative => infinite negative
  | finite negative m e _ => round negative m 1 e

/-- The number nearest to the sum of `± m · 2 ^ d` and `± n · 2 ^ e`. A sum of zero is
negative only if both terms are. -/
def roundSum (s : Bool) (m : Nat) (d : Int) (t : Bool) (n : Nat) (e : Int) : Binary f :=
  let grid := min d e
  let total := signed s m * 2 ^ (d - grid).toNat + signed t n * 2 ^ (e - grid).toNat
  if total = 0 then zero (s && t) else round (decide (total < 0)) total.natAbs 1 grid

def add : Binary f → Binary f → Binary f
  | nan, _ => nan
  | _, nan => nan
  | infinite s, infinite t => if s = t then infinite s else nan
  | infinite s, finite .. => infinite s
  | finite .., infinite t => infinite t
  | finite s m d _, finite t n e _ => roundSum s m d t n e

def sub (x y : Binary f) : Binary f := x.add y.neg

def mul : Binary f → Binary f → Binary f
  | nan, _ => nan
  | _, nan => nan
  | infinite s, infinite t => infinite (s != t)
  | infinite s, finite t n _ _ => if n = 0 then nan else infinite (s != t)
  | finite s m _ _, infinite t => if m = 0 then nan else infinite (s != t)
  | finite s m d _, finite t n e _ => round (s != t) (m * n) 1 (d + e)

def div : Binary f → Binary f → Binary f
  | nan, _ => nan
  | _, nan => nan
  | infinite _, infinite _ => nan
  | infinite s, finite t _ _ _ => infinite (s != t)
  | finite s _ _ _, infinite t => zero (s != t)
  | finite s m d _, finite t n e _ =>
      if n = 0 then (if m = 0 then nan else infinite (s != t))
      else round (s != t) m n (d - e)

/-- The product of `x` and `y` plus `z`, rounded once. -/
def fusedMulAdd : Binary f → Binary f → Binary f → Binary f
  | finite s m d _, finite t n e _, finite u k g _ => roundSum (s != t) (m * n) (d + e) u k g
  | finite .., finite .., z => z
  | x, y, z => (x.mul y).add z

instance : Add (Binary f) := ⟨add⟩
instance : Sub (Binary f) := ⟨sub⟩
instance : Mul (Binary f) := ⟨mul⟩
instance : Div (Binary f) := ⟨div⟩
instance : Neg (Binary f) := ⟨neg⟩
instance (n : Nat) : OfNat (Binary f) n := ⟨ofNat n⟩

/-- The whole part of a finite number, toward zero. -/
def truncate? : Binary f → Option Int
  | finite negative m e _ => some (signed negative (m * 2 ^ e.toNat / 2 ^ (-e).toNat))
  | _ => none

/-- The whole number nearest to a finite number, halves going away from zero. -/
def roundAway? : Binary f → Option Int
  | finite negative m e _ =>
      some (signed negative ((2 * m * 2 ^ e.toNat + 2 ^ (-e).toNat) / (2 * 2 ^ (-e).toNat)))
  | _ => none

/-- Restrict a number to the interval from `low` to `high`; `nan` stays as it is. -/
def clamp (x low high : Binary f) : Binary f :=
  if x.lt low then low else if high.lt x then high else x

end Binary

end Animation
