/-
# Ways to fail

An operation fails in one of two ways. An `Error` is an answer: the caller asked for
something the library refuses, and nothing has changed. A `Violation` is a broken
precondition: the operation stops where it stands. Both are causes; each has one
function that words it.
-/

import Animation.Decimal.Layout

namespace Animation

/-- A broken precondition. -/
inductive Violation where
  | addOverflow
  | subOverflow
  | negOverflow
  | zeroDenominator
  | ratioTooLarge
  | integerTooLarge (value : Int)
  | notFinite (value : Double)
  | valueTooLarge (value : Double)
  | invalidScale (value : Double)
  | alphaOutOfRange (alpha : Nat)
  deriving DecidableEq

namespace Violation

def message : Violation → String
  | addOverflow => "attempt to add with overflow"
  | subOverflow => "attempt to subtract with overflow"
  | negOverflow => "attempt to negate with overflow"
  | zeroDenominator =>
      "assertion `left != right` failed: Cannot divide by a zero denominator.\n" ++
        "  left: 0\n right: 0"
  | ratioTooLarge =>
      "Ratio does not fit in a 16.16 fixed point value.: TryFromIntError(PosOverflow)"
  | integerTooLarge value =>
      "Integer " ++ value.repr ++ " does not fit in a 16.16 fixed point value."
  | notFinite value => "Cannot convert " ++ value.toText ++ " to fixed point."
  | valueTooLarge value =>
      "Value " ++ value.toText ++ " does not fit in a 16.16 fixed point value."
  | invalidScale value => "Invalid scale factor: " ++ value.toText
  | alphaOutOfRange alpha => "Alpha " ++ alpha.repr ++ " is out of range"

end Violation

/-- A request that a timeline refuses. -/
inductive TimelineError where
  | invalidFrameRate (fps : Nat)
  | frameOutOfBounds (frame frames : Nat)
  deriving DecidableEq

namespace TimelineError

def message : TimelineError → String
  | invalidFrameRate fps =>
      "Invalid frame rate (" ++ fps.repr ++ "fps) - must be greater than zero"
  | frameOutOfBounds frame frames =>
      "Frame " ++ frame.repr ++ " is out of the timeline bounds (0..=" ++ frames.repr ++ ")"

end TimelineError

/-- A refused request. -/
inductive Error where
  | outsideRuntime
  | timeline (cause : TimelineError)
  | unknown (info : String)
  deriving DecidableEq

namespace Error

def message : Error → String
  | outsideRuntime =>
      "Runtime error: Are you sure your code runs inside #[clutter::runtime]?"
  | timeline cause => "Timeline error: " ++ cause.message ++ "."
  | unknown info => "Unknown error: " ++ info ++ "."

/-- The error that led to this one. -/
def source? : Error → Option TimelineError
  | timeline cause => some cause
  | _ => none

end Error

end Animation
