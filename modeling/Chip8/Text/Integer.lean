/-
This file reads integers the way people write them in settings: blanks around
the number, one sign, decimal digits of any script, and single underscores
between digits. Leading zeros are allowed. Anything else is no integer, and
neither is a number of more than 4300 digits.
-/

import Chip8.Text.Blank
import Chip8.Text.DecimalDigit

namespace Chip8.Text

/-- The values of digits that may be parted by single underscores. -/
def digitRun? : List Char → Option (List Nat)
  | [] => none
  | [c] => (digitValue? c).map fun digit => [digit]
  | c :: '_' :: rest => do return (← digitValue? c) :: (← digitRun? rest)
  | c :: rest => do return (← digitValue? c) :: (← digitRun? rest)

/-- The number that decimal digits spell. -/
def ofDigits (digits : List Nat) : Nat :=
  digits.foldl (fun value digit => 10 * value + digit) 0

/-- How many digits a number may have. -/
def digitLimit : Nat := 4300

/-- A number without a sign. -/
def natural? (text : List Char) : Option Nat := do
  let digits ← digitRun? text
  if digits.length ≤ digitLimit then some (ofDigits digits) else none

/-- An integer, blanks around it ignored. -/
def integer? (text : String) : Option Int :=
  match trimBlanks text.toList with
  | '-' :: rest => (natural? rest).map fun value => -(value : Int)
  | '+' :: rest => (natural? rest).map fun value => (value : Int)
  | rest => (natural? rest).map fun value => (value : Int)

end Chip8.Text
