/-
This file holds the two ways an integer becomes a byte.

A byte cell takes an integer only when it fits: storing a value outside
`0 .. 255` is refused by whoever stores it (`Byte.ofInt?` is `none`). A byte
operation keeps the low eight bits instead, negative integers read as endless
two's complement (`Byte.low`).
-/

namespace Chip8.Byte

/-- The byte an integer fits in, if it fits. -/
def ofInt? (value : Int) : Option UInt8 :=
  if 0 ≤ value ∧ value ≤ 255 then some (UInt8.ofNat value.toNat) else none

/-- The low eight bits of an integer. -/
def low (value : Int) : UInt8 :=
  UInt8.ofNat (value % 256).toNat

/-- The big-endian word a high and a low byte spell. -/
def word (high low : UInt8) : Int :=
  256 * (high.toNat : Int) + low.toNat

theorem ofInt?_eq_none_iff {value : Int} : ofInt? value = none ↔ value < 0 ∨ 255 < value := by
  simp only [ofInt?, ite_eq_right_iff, reduceCtorEq, imp_false]
  omega

end Chip8.Byte
