/-
This file is the register file: sixteen bytes `V0` to `VF`.

A register is named by an integer. The numbers `0` to `15` name it directly and
`-16` to `-1` count back from the end; a hand-made instruction may carry any
other number, and that names nothing. The number is looked at before the value
that is to be stored.
-/

import Chip8.Byte
import Chip8.Fault

namespace Chip8

structure Registers where
  values : Vector UInt8 16
  deriving DecidableEq

namespace Registers

def zero : Registers :=
  ⟨Vector.replicate 16 0⟩

/-- The register that carries flags, `VF`. -/
def flag : Fin 16 := 15

/-- The register a number names. -/
def index? (number : Int) : Option (Fin 16) :=
  if low : 0 ≤ number ∧ number ≤ 15 then some ⟨number.toNat, by omega⟩
  else if high : -16 ≤ number ∧ number ≤ -1 then some ⟨(number + 16).toNat, by omega⟩
  else none

def get (registers : Registers) (index : Fin 16) : UInt8 :=
  registers.values.get index

def set (registers : Registers) (index : Fin 16) (byte : UInt8) : Registers :=
  ⟨registers.values.setIfInBounds index byte⟩

def read (registers : Registers) (number : Int) : Except Trap UInt8 := do
  let index ← orTrap (.noSuchRegister number) (index? number)
  return registers.get index

def store (registers : Registers) (number : Int) (byte : UInt8) : Except Trap Registers := do
  let index ← orTrap (.noSuchRegister number) (index? number)
  return registers.set index byte

/-- Stores an integer that must fit in a byte; the register is looked up first. -/
def write (registers : Registers) (number value : Int) : Except Trap Registers := do
  let index ← orTrap (.noSuchRegister number) (index? number)
  let byte ← orTrap .notAByte (Byte.ofInt? value)
  return registers.set index byte

/-- Registers with the bytes of a block in `V0` and up. -/
def place (registers : Registers) (start : Nat) : List UInt8 → Registers
  | [] => registers
  | byte :: rest => place ⟨registers.values.setIfInBounds start byte⟩ (start + 1) rest

/-- How many registers the first `count` are: at most all, and a negative count leaves that
many out at the end. -/
def leading (count : Int) : Nat :=
  if count < 0 then (16 + count).toNat else min count.toNat 16

/-- Loads a block into the first `count` registers, which it must fit exactly. -/
def loadLeading (registers : Registers) (count : Int) (block : List UInt8) :
    Except Trap Registers :=
  if block.length = leading count then .ok (registers.place 0 block)
  else .error .lengthMismatch

theorem index?_natCast (index : Fin 16) : index? (index : Nat) = some index := by
  rw [index?, dif_pos (by omega)]
  rfl

theorem get_set_self (registers : Registers) (index : Fin 16) (byte : UInt8) :
    (registers.set index byte).get index = byte :=
  Vector.getElem_setIfInBounds_self index.isLt

theorem get_set_other (registers : Registers) (index other : Fin 16) (byte : UInt8)
    (differ : index ≠ other) : (registers.set index byte).get other = registers.get other := by
  have apart : (index : Nat) ≠ other := fun same => differ (Fin.ext same)
  exact Vector.getElem_setIfInBounds_ne other.isLt apart

theorem leading_of_le (count : Nat) (small : count ≤ 16) : leading count = count := by
  rw [leading, if_neg (by omega)]
  omega

end Registers

end Chip8
