/-
This file says what an instruction is: one of thirty-five operations, the word
it came from, and the operand fields an operation may take.

The fields carry their usual names: `x` and `y` number registers, `n` is a
nibble, `kk` a byte, `nnn` an address. They are integers of their own rather
than bits of the word, because an instruction may also be put together by hand;
an operation reads its operands from the fields alone.
-/

import Chip8.Hex

namespace Chip8

/-- What an instruction does. -/
inductive Operation where
  | clearDisplay
  | returnFromCall
  /-- A call to native machine code, which is passed over. -/
  | machineCode
  | jump
  | call
  | skipIfByte
  | skipUnlessByte
  | skipIfEqual
  | loadByte
  | addByte
  | copyRegister
  | bitOr
  | bitAnd
  | bitXor
  | addRegister
  | subtract
  | shiftRight
  /-- Subtracts the first operand from the second. -/
  | subtractFrom
  | shiftLeft
  | skipUnlessEqual
  | loadIndex
  /-- Jumps to an address plus a register. -/
  | jumpOffset
  | randomByte
  | drawSprite
  | skipIfHeld
  | skipUnlessHeld
  | readDelay
  | awaitKey
  | setDelay
  | setSound
  | addIndex
  | pointAtGlyph
  | storeDecimal
  | storeRegisters
  | loadRegisters
  deriving DecidableEq, Repr

namespace Operation

/-- Every operation, in the order of their opcodes. -/
def all : List Operation := [
  clearDisplay, returnFromCall, machineCode, jump, call, skipIfByte, skipUnlessByte, skipIfEqual,
  loadByte, addByte, copyRegister, bitOr, bitAnd, bitXor, addRegister, subtract, shiftRight,
  subtractFrom, shiftLeft, skipUnlessEqual, loadIndex, jumpOffset, randomByte, drawSprite,
  skipIfHeld, skipUnlessHeld, readDelay, awaitKey, setDelay, setSound, addIndex, pointAtGlyph,
  storeDecimal, storeRegisters, loadRegisters]

theorem mem_all (operation : Operation) : operation ∈ all := by
  cases operation <;> decide

/-- The operations that always set the program counter themselves, so that nothing need
follow them. -/
def branches : Operation → Bool
  | returnFromCall | jump | call | jumpOffset => true
  | _ => false

end Operation

/-- An operation with its operands. -/
structure Instruction where
  operation : Operation
  /-- The word the instruction is reported under. -/
  opcode : Int
  x : Int
  y : Int
  n : Int
  kk : Int
  nnn : Int
  deriving DecidableEq, Repr

namespace Instruction

/-- The instruction in assembly text. -/
def mnemonic (instruction : Instruction) : String :=
  let vx := "V" ++ Hex.upper instruction.x
  let vy := "V" ++ Hex.upper instruction.y
  let nibble := "0x" ++ Hex.lower 1 instruction.n
  let byte := "0x" ++ Hex.lower 2 instruction.kk
  let address := "0x" ++ Hex.lower 3 instruction.nnn
  match instruction.operation with
  | .clearDisplay => "CLS"
  | .returnFromCall => "RET"
  | .machineCode => "SYS " ++ address
  | .jump => "JP " ++ address
  | .call => "CALL " ++ address
  | .skipIfByte => "SE " ++ vx ++ ", " ++ byte
  | .skipUnlessByte => "SNE " ++ vx ++ ", " ++ byte
  | .skipIfEqual => "SE " ++ vx ++ ", " ++ vy
  | .loadByte => "LD " ++ vx ++ ", " ++ byte
  | .addByte => "ADD " ++ vx ++ ", " ++ byte
  | .copyRegister => "LD " ++ vx ++ ", " ++ vy
  | .bitOr => "OR " ++ vx ++ ", " ++ vy
  | .bitAnd => "AND " ++ vx ++ ", " ++ vy
  | .bitXor => "XOR " ++ vx ++ ", " ++ vy
  | .addRegister => "ADD " ++ vx ++ ", " ++ vy
  | .subtract => "SUB " ++ vx ++ ", " ++ vy
  | .shiftRight => "SHR " ++ vx ++ ", " ++ vy
  | .subtractFrom => "SUBN " ++ vx ++ ", " ++ vy
  | .shiftLeft => "SHL " ++ vx ++ ", " ++ vy
  | .skipUnlessEqual => "SNE " ++ vx ++ ", " ++ vy
  | .loadIndex => "LD I, " ++ address
  | .jumpOffset => "JP V0, " ++ address
  | .randomByte => "RND " ++ vx ++ ", " ++ byte
  | .drawSprite => "DRW " ++ vx ++ ", " ++ vy ++ ", " ++ nibble
  | .skipIfHeld => "SKP " ++ vx
  | .skipUnlessHeld => "SKNP " ++ vx
  | .readDelay => "LD " ++ vx ++ ", DT"
  | .awaitKey => "LD " ++ vx ++ ", K"
  | .setDelay => "LD DT, " ++ vx
  | .setSound => "LD ST, " ++ vx
  | .addIndex => "ADD I, " ++ vx
  | .pointAtGlyph => "LD F, " ++ vx
  | .storeDecimal => "LD B, " ++ vx
  | .storeRegisters => "LD [I], " ++ vx
  | .loadRegisters => "LD " ++ vx ++ ", [I]"

end Instruction

end Chip8
