/-
# The shortest decimal that reads back

A finite number of a format owns the decimals that round to it: those between the
midpoints to its two neighbours, with the midpoints themselves if its significand
is even. Among the powers of ten whose multiples meet that interval, the largest
gives the decimals with the fewest digits, and the one nearest to the number is
the answer. All comparisons are between natural numbers, on a common grid.
-/

import Animation.Binary.Basic

namespace Animation

-- Powers are those of whole numbers, also where monoids are known.
attribute [local instance (1100)] instPowNat

/-- Which of two decimals is taken when both are equally near. -/
inductive Tie where
  | up
  | even
  deriving DecidableEq, Repr

/-- The value `digits · 10 ^ exponent`. -/
structure Decimal where
  digits : Nat
  exponent : Int
  deriving DecidableEq, Repr

namespace Decimal

/-- The decimals that round to one positive number. In units of `2 ^ exponent` the number
is `value`, and the decimals lie between `low` and `high`, which count if `closed`. -/
structure Interval where
  value : Nat
  low : Nat
  high : Nat
  exponent : Int
  closed : Bool

/-- The interval of the positive number `m · 2 ^ e` of the format `f`. Below a power of two
the neighbour is nearer, except next to the subnormal numbers. -/
def Interval.of (f : Format) (m : Nat) (e : Int) : Interval where
  value := 4 * m
  low := if m = 2 ^ (f.precision - 1) ∧ e ≠ f.least then 4 * m - 1 else 4 * m - 2
  high := 4 * m + 2
  exponent := e - 2
  closed := m % 2 == 0

namespace Interval

/-- A count of units on the common grid of the interval and the multiples of `10 ^ q`. -/
def onGrid (i : Interval) (q : Int) (units : Nat) : Nat :=
  units * 2 ^ i.exponent.toNat * 10 ^ (-q).toNat

/-- One multiple of `10 ^ q` on the common grid. -/
def step (i : Interval) (q : Int) : Nat :=
  2 ^ (-i.exponent).toNat * 10 ^ q.toNat

/-- Whether `c · 10 ^ q` rounds to the number. -/
def contains (i : Interval) (q : Int) (c : Nat) : Bool :=
  let point := c * i.step q
  if i.closed then i.onGrid q i.low ≤ point && point ≤ i.onGrid q i.high
  else i.onGrid q i.low < point && point < i.onGrid q i.high

/-- The multiple of `10 ^ q` that rounds to the number and is nearest to it, if there is one;
only the two around the number can be nearest. -/
def nearest? (i : Interval) (tie : Tie) (q : Int) : Option Nat :=
  let value := i.onGrid q i.value
  let below := value / i.step q
  let above := below + 1
  match i.contains q below, i.contains q above with
  | false, false => none
  | true, false => some below
  | false, true => some above
  | true, true =>
      match compare (value - below * i.step q) (above * i.step q - value) with
      | .lt => some below
      | .gt => some above
      | .eq => match tie with
        | .up => some above
        | .even => some (if below % 2 = 0 then below else above)

/-- The first power of ten, going down from `10 ^ q`, with a multiple that rounds to the
number. -/
def search (i : Interval) (tie : Tie) : Nat → Int → Decimal
  | 0, q => ⟨i.onGrid q i.value / i.step q, q⟩
  | powers + 1, q =>
      match i.nearest? tie q with
      | some digits => ⟨digits, q⟩
      | none => i.search tie powers (q - 1)

end Interval

/-- An exponent `q` for which `10 ^ q` exceeds every number below `2 ^ t`, by little. -/
def powerAbove (t : Int) : Int :=
  if 0 ≤ t then t * 30103 / 100000 + 1 else -(-t * 30102 / 100000)

/-- The shortest decimal that rounds to `m · 2 ^ e`, and the nearest of the shortest. A
format needs fewer decimal digits than binary ones to tell its numbers apart, which bounds
the search. -/
def shortest (f : Format) (tie : Tie) (m : Nat) (e : Int) : Decimal :=
  if m = 0 then ⟨0, 0⟩
  else (Interval.of f m e).search tie (f.precision + 4) (powerAbove (m.log2 + 1 + e))

end Decimal

end Animation
