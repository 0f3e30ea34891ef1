/-
# Number literals

A number literal is read from the left into a significand of 64 binary digits. Digits
beyond it only count toward the power of ten, so a long literal is not read exactly,
and the significand is then scaled in double precision: by one multiplication or
division if a single power of ten will do, and otherwise by repeated division.
-/

import Animation.Binary.Arithmetic
import Animation.Json.Basic
import Animation.Word

namespace Animation.Json

-- Powers are those of whole numbers, also where monoids are known.
attribute [local instance (1100)] instPowNat

/-- The value of a decimal digit. -/
def digitValue (c : Char) : Nat := c.toNat - '0'.toNat

/-- Extend a significand by digits, until it no longer fits 64 binary digits. The second
part of the answer is the number of digits left out. -/
def gather : Nat → List Char → Nat × Nat
  | significand, [] => (significand, 0)
  | significand, c :: rest =>
      if significand * 10 + digitValue c ≤ Word.max64 then
        gather (significand * 10 + digitValue c) rest
      else (significand, rest.length + 1)

/-- The largest power of ten that a double precision number is scaled by at once. -/
def largestPower : Nat := 308

private def powerOfTen (k : Nat) : Double := .ofNat (10 ^ k)

/-- A number times `10 ^ k`, by steps of the largest power; nothing if it is too large. -/
def scaleByTen : Nat → Double → Int → Option Double
  | steps, x, k =>
    if k.natAbs ≤ largestPower then
      if 0 ≤ k then
        let scaled := x * powerOfTen k.natAbs
        if scaled.isFinite then some scaled else none
      else some (x / powerOfTen k.natAbs)
    else if x.same 0 then some x
    else if 0 ≤ k then none
    else match steps with
      | 0 => some 0
      | steps + 1 => scaleByTen steps (x / powerOfTen largestPower) (k + largestPower)

/-- The number `± significand · 10 ^ k`. A significand vanishes after three steps. -/
def ofScientific (negative : Bool) (significand : Nat) (k : Int) : Json :=
  match scaleByTen 4 (.ofNat significand) k with
  | some x => float (if negative then x.neg else x)
  | none => unreadable

/-- A whole number. Zero keeps its sign as a floating-point number, and so do the negative
numbers that do not fit a signed word of 64 binary digits their size. -/
def ofWhole (negative : Bool) (significand : Nat) : Json :=
  if !negative then natural (UInt64.ofNat significand)
  else if 0 < significand ∧ significand ≤ 2 ^ (63 : Nat) then .negative (-significand)
  else float (Binary.ofNat significand).neg

/-- The largest exponent that is read; beyond it only zero is left. -/
def largestExponent : Nat := 2147483647

/-- The digits at the front of a text, and the rest. -/
def splitDigits (cs : List Char) : List Char × List Char :=
  (cs.takeWhile Char.isDigit, cs.dropWhile Char.isDigit)

/-- The digits of an exponent after its sign. -/
def readExponent (negative : Bool) (significand : Nat) (k : Int) (falling : Bool)
    (cs : List Char) : Option (Json × List Char) :=
  let (digits, rest) := splitDigits cs
  if digits.isEmpty then none
  else
    let exponent := digits.foldl (fun n c => n * 10 + digitValue c) 0
    if exponent ≤ largestExponent then
      some (ofScientific negative significand (if falling then k - exponent else k + exponent),
        rest)
    else if significand ≠ 0 ∧ !falling then some (unreadable, rest)
    else some (float (Binary.zero negative), rest)

/-- The end of a number: an exponent, or nothing. -/
def readScale (negative : Bool) (significand : Nat) (k : Int) (plain : Json)
    (cs : List Char) : Option (Json × List Char) :=
  match cs with
  | e :: sign :: rest =>
      if e = 'e' ∨ e = 'E' then
        if sign = '+' then readExponent negative significand k false rest
        else if sign = '-' then readExponent negative significand k true rest
        else readExponent negative significand k false (sign :: rest)
      else some (plain, cs)
  | [e] => if e = 'e' ∨ e = 'E' then none else some (plain, cs)
  | [] => some (plain, cs)

/-- A number after its sign. A leading zero stands alone. -/
def readUnsigned (negative : Bool) (cs : List Char) : Option (Json × List Char) :=
  let (digits, rest) := splitDigits cs
  if digits.isEmpty ∨ (digits.head? = some '0' ∧ 1 < digits.length) then none
  else
    let (significand, dropped) := gather 0 digits
    match rest with
    | '.' :: rest =>
        let (fraction, rest) := splitDigits rest
        if fraction.isEmpty then none
        else
          let (significand, unused) := gather significand fraction
          let k : Int := dropped - (fraction.length - unused : Nat)
          readScale negative significand k (ofScientific negative significand k) rest
    | rest =>
        let plain :=
          if dropped = 0 then ofWhole negative significand
          else ofScientific negative significand dropped
        readScale negative significand dropped plain rest

/-- The number at the front of a text, and the rest; nothing if none is there. -/
def readNumber (cs : List Char) : Option (Json × List Char) :=
  match cs with
  | '-' :: rest => readUnsigned true rest
  | cs => readUnsigned false cs

end Animation.Json
