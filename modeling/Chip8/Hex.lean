/-
This file writes integers in base sixteen, the way every address, byte and
opcode of the machine is shown.

A number is padded with zeros up to a width. The width counts a minus sign, and
the zeros stand between the sign and the digits, so a negative number keeps the
column of a positive one: at width four, one is `0001` and minus one is `-001`.
A number that needs more room than the width takes it; nothing is cut.
-/

namespace Chip8.Hex

/-- The base-sixteen digits of a number, most significant first; zero has one digit. -/
def digits (value : Nat) : List Char :=
  Nat.toDigits 16 value

/-- Digits with zeros put in front until they fill the width. -/
def padded (width : Nat) (text : List Char) : List Char :=
  List.replicate (width - text.length) '0' ++ text

/-- The characters of an integer at a width, the sign counted in and kept in front of the
padding. -/
def chars (width : Nat) (value : Int) : List Char :=
  if value < 0 then '-' :: padded (width - 1) (digits value.natAbs)
  else padded width (digits value.toNat)

/-- An integer in lower-case hexadecimal, zero-padded to the width. -/
def lower (width : Nat) (value : Int) : String :=
  String.ofList (chars width value)

/-- An integer in upper-case hexadecimal, without padding. -/
def upper (value : Int) : String :=
  String.ofList ((chars 0 value).map Char.toUpper)

/-- A byte as two digits. -/
def byte (value : UInt8) : String :=
  lower 2 value.toNat

theorem length_padded (width : Nat) (text : List Char) :
    (padded width text).length = max width text.length := by
  simp only [padded, List.length_append, List.length_replicate]
  omega

theorem chars_of_nonneg (width : Nat) (value : Int) (nonneg : 0 ≤ value) :
    chars width value = padded width (digits value.toNat) := by
  rw [chars, if_neg (by omega)]

end Chip8.Hex
