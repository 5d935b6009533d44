/-
This file reads numbers with a fraction, the way tables of options write them:
decimal digits with a point among them, a power of ten behind an `e`, and words
for what is infinite or no number at all. The value is the nearest double.
-/

import Chip8.Text.Integer

namespace Chip8.Text

/-- A written number: its digits, and the power of ten they are multiplied by. -/
structure Decimal where
  isNegative : Bool
  digits : Nat
  exponent : Int
  deriving DecidableEq, Repr

namespace Decimal

/-- A power of ten beyond which a number of some thousand digits is zero or infinite as a
double. -/
def exponentLimit : Int := 9999

/-- Splits a number into its digits and their power of ten. Each digit behind the point lowers
the power by one. -/
def ofChars (text : List Char) : Decimal :=
  let (isNegative, size) := match text with
    | '-' :: size => (true, size)
    | size => (false, size)
  let significand := size.takeWhile fun c => c ≠ 'e' ∧ c ≠ 'E'
  let power := String.ofList ((size.drop significand.length).drop 1)
  let places := ((significand.dropWhile fun c => c ≠ '.').drop 1).length
  { isNegative := isNegative
    digits := ofDigits (significand.filterMap digitValue?)
    exponent := (integer? power).getD 0 - places }

/-- The double nearest to a number. -/
def toDouble (number : Decimal) : Float :=
  let exponent := max (-exponentLimit) (min exponentLimit number.exponent)
  let size := Float.ofScientific number.digits (exponent < 0) exponent.natAbs
  if number.isNegative then -size else size

end Decimal

/-- The double a number with a fraction stands for. -/
def double : String → Float
  | "Infinity" => 1 / 0
  | "-Infinity" => -1 / 0
  | "NaN" => 0 / 0
  | text => (Decimal.ofChars text.toList).toDouble

end Chip8.Text
