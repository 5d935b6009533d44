/-
This file reads the whole part off a double, and finds the double nearest to an
integer.

The value of a finite double is its sign, an integer of at most fifty-three
bits, and a power of two. Scaling that integer by the power and dropping what
falls below the point is exact at every magnitude, where a detour through a
machine word would saturate. Doubles whose exponent is all ones are infinite or
no number, and have no whole part.
-/

namespace Chip8.Double

/-- Why a double has no whole part. -/
inductive NotFinite where
  | infinite
  | notANumber
  deriving DecidableEq, Repr

/-- A finite double without its fraction, cut off toward zero. -/
def truncate (value : Float) : Int :=
  let bits := value.toBits.toNat
  let exponent : Nat := (bits >>> 52) % 0x800
  let significand : Nat :=
    bits % 0x10000000000000 + (if exponent = 0 then 0 else 0x10000000000000)
  let magnitude : Nat :=
    if 1075 ≤ exponent then significand <<< (exponent - 1075)
    else significand >>> (1075 - exponent)
  if bits >>> 63 = 1 then -(magnitude : Int) else magnitude

/-- What keeps a double from being finite, if anything does. -/
def notFinite? (value : Float) : Option NotFinite :=
  let bits := value.toBits.toNat
  if (bits >>> 52) % 0x800 ≠ 0x7ff then none
  else if bits % 0x10000000000000 = 0 then some .infinite
  else some .notANumber

/-- The whole part of a double, if it is finite. -/
def whole (value : Float) : Except NotFinite Int :=
  match notFinite? value with
  | none => .ok (truncate value)
  | some cause => .error cause

/-- The double nearest to a natural number; infinite if the number lies beyond all doubles. -/
def ofNat (value : Nat) : Float :=
  Float.ofScientific value false 0

/-- The double nearest to an integer; infinite if the integer lies beyond all doubles. -/
def ofInt (value : Int) : Float :=
  if value < 0 then -ofNat value.natAbs else ofNat value.toNat

/-- The double nearest to an integer, if there is a finite one. -/
def ofInt? (value : Int) : Option Float :=
  if notFinite? (ofInt value) = none then some (ofInt value) else none

end Chip8.Double
