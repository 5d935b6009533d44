/-
This file reads a word as an instruction.

The leading nibble of a word says which of its bits tell operations apart: all
of them under a leading zero, the last nibble under `5`, `8` and `9`, the last
byte under `E` and `F`, and none but the leading nibble elsewhere. Those bits
select the operation; the operands are the fields of the low twelve bits. A
word under a leading zero that selects nothing is a call to machine code, any
other such word is refused.

Integers that are no sixteen-bit words are read too: their bits from the
seventeenth up are no leading nibble, so the leading four of their low sixteen
bits select on their own.
-/

import Chip8.Fault
import Chip8.Instruction

namespace Chip8

namespace Operation

/-- The bits that select an operation, with zeros for its operands. Machine code has none: it
is what remains under a leading zero. -/
def selector : Operation → Option Nat
  | clearDisplay => some 0x00E0
  | returnFromCall => some 0x00EE
  | machineCode => none
  | jump => some 0x1000
  | call => some 0x2000
  | skipIfByte => some 0x3000
  | skipUnlessByte => some 0x4000
  | skipIfEqual => some 0x5000
  | loadByte => some 0x6000
  | addByte => some 0x7000
  | copyRegister => some 0x8000
  | bitOr => some 0x8001
  | bitAnd => some 0x8002
  | bitXor => some 0x8003
  | addRegister => some 0x8004
  | subtract => some 0x8005
  | shiftRight => some 0x8006
  | subtractFrom => some 0x8007
  | shiftLeft => some 0x800E
  | skipUnlessEqual => some 0x9000
  | loadIndex => some 0xA000
  | jumpOffset => some 0xB000
  | randomByte => some 0xC000
  | drawSprite => some 0xD000
  | skipIfHeld => some 0xE09E
  | skipUnlessHeld => some 0xE0A1
  | readDelay => some 0xF007
  | awaitKey => some 0xF00A
  | setDelay => some 0xF015
  | setSound => some 0xF018
  | addIndex => some 0xF01E
  | pointAtGlyph => some 0xF029
  | storeDecimal => some 0xF033
  | storeRegisters => some 0xF055
  | loadRegisters => some 0xF065

/-- The operation that some bits select. -/
def ofSelector? (bits : Nat) : Option Operation :=
  all.find? fun operation => operation.selector == some bits

theorem ofSelector?_selector (operation : Operation) (bits : Nat)
    (selects : operation.selector = some bits) : ofSelector? bits = some operation := by
  cases operation <;> simp only [selector, Option.some.injEq, reduceCtorEq] at selects <;>
    subst selects <;> rfl

theorem ofSelector?_eq_some_iff {bits : Nat} {operation : Operation} :
    ofSelector? bits = some operation ↔ operation.selector = some bits := by
  constructor
  · intro found
    simpa using List.find?_some found
  · exact ofSelector?_selector operation bits

end Operation

namespace Instruction

/-- The bits of a word that tell operations apart, given its leading nibble. -/
def selectorMask (lead : Int) : Nat :=
  if lead = 0x0 then 0xFFFF
  else if lead = 0x5 ∨ lead = 0x8 ∨ lead = 0x9 then 0xF00F
  else if lead = 0xE ∨ lead = 0xF then 0xF0FF
  else 0xF000

/-- An operation with its operands taken from the low twelve bits of a word. -/
def ofFields (operation : Operation) (opcode : Int) : Instruction where
  operation := operation
  opcode := opcode
  x := opcode / 0x100 % 0x10
  y := opcode / 0x10 % 0x10
  n := opcode % 0x10
  kk := opcode % 0x100
  nnn := opcode % 0x1000

/-- Reads the word found at an address. -/
def decode (opcode address : Int) : Except Fault Instruction :=
  let lead := opcode / 0x1000
  match Operation.ofSelector? ((opcode % 0x10000).toNat &&& selectorMask lead) with
  | some operation => .ok (ofFields operation opcode)
  | none =>
      if lead = 0 then .ok (ofFields .machineCode opcode)
      else .error (.unknownOpcode opcode address)

theorem opcode_ofFields (operation : Operation) (opcode : Int) :
    (ofFields operation opcode).opcode = opcode := rfl

theorem operation_ofFields (operation : Operation) (opcode : Int) :
    (ofFields operation opcode).operation = operation := rfl

end Instruction

end Chip8
