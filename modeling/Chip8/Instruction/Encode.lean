/-
This file writes an instruction as a word: the bits that select the operation,
with the operands it takes at their places in the low twelve bits.

The operands of an operation have one of six shapes, and the shape alone says
which fields of the instruction the word holds. A field an operation does not
take leaves no trace in the word.
-/

import Chip8.Instruction.Decode

namespace Chip8

/-- Which operands an operation takes. -/
inductive Operands where
  | none
  | address
  | register
  | registerByte
  | registers
  /-- Two registers and a number of rows. -/
  | sprite
  deriving DecidableEq, Repr

/-- The operands an operation takes. -/
def Operation.operands : Operation → Operands
  | clearDisplay | returnFromCall => .none
  | machineCode | jump | call | loadIndex | jumpOffset => .address
  | skipIfByte | skipUnlessByte | loadByte | addByte | randomByte => .registerByte
  | skipIfEqual | copyRegister | bitOr | bitAnd | bitXor | addRegister | subtract | shiftRight
  | subtractFrom | shiftLeft | skipUnlessEqual => .registers
  | drawSprite => .sprite
  | skipIfHeld | skipUnlessHeld | readDelay | awaitKey | setDelay | setSound | addIndex
  | pointAtGlyph | storeDecimal | storeRegisters | loadRegisters => .register

namespace Instruction

/-- The operands of an instruction at their places in the word. -/
def operandBits (instruction : Instruction) : Int :=
  match instruction.operation.operands with
  | .none => 0
  | .address => instruction.nnn
  | .register => 0x100 * instruction.x
  | .registerByte => 0x100 * instruction.x + instruction.kk
  | .registers => 0x100 * instruction.x + 0x10 * instruction.y
  | .sprite => 0x100 * instruction.x + 0x10 * instruction.y + instruction.n

/-- The word of an instruction. -/
def encode (instruction : Instruction) : Int :=
  (instruction.operation.selector.getD 0 : Nat) + instruction.operandBits

example : encode (ofFields .drawSprite 0xD125) = 0xD125 := by decide

example : encode (ofFields .machineCode 0x0ABC) = 0x0ABC := by decide

end Instruction

end Chip8
