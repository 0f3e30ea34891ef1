/-
# Binary floating-point numbers

A format fixes how many binary digits a significand may have and which powers of
two it may be scaled by. A number of the format is a sign, a significand and an
exponent in the one canonical form, an infinity, or the value that is not a
number. Two numbers are equal as data exactly when they are the same number of
the format, so the two zeros are told apart and `nan` equals itself; the order of
the represented values is a separate matter (`lt`, `le`, `same`).

The interchange encodings of the formats are read and written by `ofBits` and
`toBits`.
-/

namespace Animation

-- Powers are those of whole numbers, also where monoids are known.
attribute [local instance (1100)] instPowNat

/-- A binary interchange format. A finite value is `m · 2 ^ e` with `m < 2 ^ precision`
and `least ≤ e ≤ greatest`. -/
structure Format where
  precision : Nat
  least : Int
  greatest : Int
  precision_pos : 0 < precision := by decide
  least_le_greatest : least ≤ greatest := by decide

namespace Format

/-- The single precision format: 24 significant binary digits. -/
def binary32 : Format := { precision := 24, least := -149, greatest := 104 }

/-- The double precision format: 53 significant binary digits. -/
def binary64 : Format := { precision := 53, least := -1074, greatest := 971 }

variable (f : Format)

/-- The canonical form of a magnitude: the significand fills the precision, or the
exponent is the least one. -/
def Canonical (m : Nat) (e : Int) : Prop :=
  m < 2 ^ f.precision ∧ f.least ≤ e ∧ e ≤ f.greatest ∧
    (e = f.least ∨ 2 ^ (f.precision - 1) ≤ m)

instance (m : Nat) (e : Int) : Decidable (f.Canonical m e) := by
  unfold Canonical; infer_instance

theorem canonical_zero : f.Canonical 0 f.least :=
  ⟨Nat.pow_pos (by decide), Int.le_refl _, f.least_le_greatest, Or.inl rfl⟩

end Format

/-- A number of the format `f`. -/
inductive Binary (f : Format) where
  | nan
  | infinite (negative : Bool)
  | finite (negative : Bool) (significand : Nat) (exponent : Int)
      (canonical : f.Canonical significand exponent)
  deriving DecidableEq

/-- Single precision numbers. -/
abbrev Single : Type := Binary Format.binary32

/-- Double precision numbers. -/
abbrev Double : Type := Binary Format.binary64

namespace Binary

variable {f : Format}

/-- The zero of the given sign. -/
def zero (negative : Bool) : Binary f :=
  .finite negative 0 f.least f.canonical_zero

instance : Inhabited (Binary f) := ⟨zero false⟩

/-- The finite number with these parts, and the infinity of the sign if the parts are
too large for the format. -/
def ofParts (negative : Bool) (m : Nat) (e : Int) : Binary f :=
  if h : f.Canonical m e then .finite negative m e h else .infinite negative

theorem ofParts_of_canonical (negative : Bool) {m : Nat} {e : Int} (h : f.Canonical m e) :
    (ofParts negative m e : Binary f) = .finite negative m e h := by
  simp [ofParts, h]

def isNaN : Binary f → Bool
  | nan => true
  | _ => false

def isFinite : Binary f → Bool
  | finite .. => true
  | _ => false

/-- The sign of a number; the value that is not a number counts as positive. -/
def isNegative : Binary f → Bool
  | nan => false
  | infinite negative => negative
  | finite negative .. => negative

def neg : Binary f → Binary f
  | nan => nan
  | infinite negative => infinite (!negative)
  | finite negative m e h => finite (!negative) m e h

def abs : Binary f → Binary f
  | nan => nan
  | infinite _ => infinite false
  | finite _ m e h => finite false m e h

theorem neg_neg (x : Binary f) : x.neg.neg = x := by
  cases x <;> simp [neg]

/-- The integer `± m`. -/
def signed (negative : Bool) (m : Nat) : Int :=
  if negative then -(m : Int) else m

/-- Order of the values `a · 2 ^ d` and `b · 2 ^ e`, found on the finer of the two grids. -/
def compareScaled (a : Int) (d : Int) (b : Int) (e : Int) : Ordering :=
  let grid := min d e
  compare (a * 2 ^ (d - grid).toNat) (b * 2 ^ (e - grid).toNat)

/-- Order of two numbers by value; `nan` is ordered with nothing, and the two zeros
have one value. -/
def compare? : Binary f → Binary f → Option Ordering
  | nan, _ => none
  | _, nan => none
  | infinite a, infinite b => some (compare b.toNat a.toNat)
  | infinite a, finite .. => some (if a then .lt else .gt)
  | finite .., infinite b => some (if b then .gt else .lt)
  | finite s m d _, finite t n e _ => some (compareScaled (signed s m) d (signed t n) e)

def lt (x y : Binary f) : Bool := x.compare? y == some .lt

def le (x y : Binary f) : Bool := (x.compare? y).any (·.isLE)

/-- Equality of the represented values, which `nan` has with nothing. -/
def same (x y : Binary f) : Bool := x.compare? y == some .eq

/-- The exponent field of the infinities, all of whose digits are ones. -/
def topField (f : Format) : Nat := (f.greatest - f.least).toNat + 2

/-- The number whose encoding is `bits`. From the low end, an encoding has the digits of
the significand below the leading one, the exponent field and the sign. -/
def ofBits (f : Format) (bits : Nat) : Binary f :=
  let leading := 2 ^ (f.precision - 1)
  let fraction := bits % leading
  let field := bits / leading % (topField f + 1)
  let negative := bits / leading / (topField f + 1) % 2 == 1
  if field == topField f then
    if fraction == 0 then .infinite negative else .nan
  else if field == 0 then ofParts negative fraction f.least
  else ofParts negative (leading + fraction) (f.least + (field - 1))

/-- The encoding of a number; the value that is not a number has the quiet one. -/
def toBits (x : Binary f) : Nat :=
  let leading := 2 ^ (f.precision - 1)
  let sign := (topField f + 1) * leading
  match x with
  | nan => topField f * leading + leading / 2
  | infinite negative => negative.toNat * sign + topField f * leading
  | finite negative m e _ =>
      if m < leading then negative.toNat * sign + m
      else negative.toNat * sign + (e - f.least).toNat * leading + m

end Binary

end Animation
