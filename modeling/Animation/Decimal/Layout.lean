/-
# Texts of floating-point numbers

A text has the shortest digits that read back, laid out by a record of choices:
which magnitudes are written positionally, whether whole numbers keep a `.0`,
whether a positive exponent has a sign, and which way a tie between two shortest
decimals goes. The sign of a zero is always written.
-/

import Animation.Decimal.Shortest

namespace Animation.Decimal

/-- The choices that make up a text of numbers. A value whose leading digit stands for
`10 ^ k` is written positionally when `k` is at least `lowest` and below `highest`, where
no limit means always. -/
structure Layout where
  lowest : Option Int
  highest : Option Int
  pointed : Bool
  signedExponent : Bool
  tie : Tie

/-- Always positional, and whole numbers have no point. -/
def Layout.plain : Layout where
  lowest := none
  highest := none
  pointed := false
  signedExponent := false
  tie := .up

/-- Whole numbers are pointed; below `10 ^ -4` and from `10 ^ 16` on there is an exponent. -/
def Layout.pointed16 : Layout where
  lowest := some (-4)
  highest := some 16
  pointed := true
  signedExponent := false
  tie := .up

/-- Whole numbers are pointed; below `10 ^ -5` and from `10 ^ 16` on there is an exponent,
with its sign. -/
def Layout.interchange : Layout where
  lowest := some (-5)
  highest := some 16
  pointed := true
  signedExponent := true
  tie := .even

namespace Layout

variable (layout : Layout)

/-- Whether a value with leading digit at `10 ^ k` is written positionally. -/
def isPositional (k : Int) : Bool :=
  layout.lowest.all (· ≤ k) && layout.highest.all (k < ·)

/-- The digits with the point in its place and zeros up to it. -/
def positional (digits : List Char) (exponent leading : Int) : List Char :=
  if 0 ≤ exponent then
    digits ++ List.replicate exponent.toNat '0' ++ (if layout.pointed then ['.', '0'] else [])
  else if 0 ≤ leading then
    digits.take (leading.toNat + 1) ++ '.' :: digits.drop (leading.toNat + 1)
  else '0' :: '.' :: List.replicate ((-leading).toNat - 1) '0' ++ digits

/-- The digits with the point after the first one, and the exponent of that one. -/
def scientific (digits : List Char) (leading : Int) : List Char :=
  let significand := match digits with
    | first :: second :: rest => first :: '.' :: second :: rest
    | short => short
  let sign := if leading < 0 then ['-'] else if layout.signedExponent then ['+'] else []
  significand ++ 'e' :: sign ++ Nat.toDigits 10 leading.natAbs

/-- The text of a decimal. -/
def magnitude (d : Decimal) : List Char :=
  let digits := Nat.toDigits 10 d.digits
  let leading : Int := d.exponent + (digits.length - 1 : Nat)
  if d.digits = 0 || layout.isPositional leading then
    layout.positional digits d.exponent leading
  else layout.scientific digits leading

/-- The text of a number. -/
def render {f : Format} : Binary f → String
  | .nan => "NaN"
  | .infinite negative => if negative then "-inf" else "inf"
  | .finite negative m e _ =>
      let body := layout.magnitude (shortest f layout.tie m e)
      String.ofList (if negative then '-' :: body else body)

end Layout

end Animation.Decimal

namespace Animation.Double

/-- The text of a number for people: positional, without a point on whole numbers. -/
def toText (x : Double) : String := Decimal.Layout.plain.render x

/-- The text of a number inside the text of a structure. -/
def toPointedText (x : Double) : String := Decimal.Layout.pointed16.render x

end Animation.Double
