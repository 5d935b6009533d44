/-
This file names everything that can stop an operation.

A `Fault` is an error of the running program: it strays outside memory, meets a
word that is no instruction, or unbalances its calls; a program that is too
large to load is one too. A fault halts the machine for good, until it is
reset.

A `Trap` is the wider notion: why one operation was refused. Besides faults
these are refusals of a machine that is already halted or is waiting for a key,
and requests that no program can make but a caller can: a register or key that
does not exist, a value no byte holds, a display without pixels. Those do not
halt the machine.
-/

import Chip8.Double
import Chip8.Hex

namespace Chip8

/-- An error of the running program. -/
inductive Fault where
  /-- A memory access reached this address, the first that does not exist. -/
  | outOfMemory (address : Int)
  /-- The program counter would have come to rest here. -/
  | outOfProgram (address : Int)
  /-- The word at this address is no instruction. -/
  | unknownOpcode (opcode address : Int)
  | stackOverflow (depth : Int)
  | stackUnderflow
  /-- A program of this size was offered to memory with this much room. -/
  | romTooLarge (size : Nat) (room : Int)
  deriving DecidableEq, Repr

/-- The sentence a fault is reported with. -/
def Fault.message : Fault → String
  | .outOfMemory address => "Address out of bounds: 0x" ++ Hex.lower 4 address
  | .outOfProgram address =>
      "Program counter would leave program memory: 0x" ++ Hex.lower 4 address
  | .unknownOpcode opcode address =>
      "Opcode 0x" ++ Hex.lower 4 opcode ++ " at address 0x" ++ Hex.lower 3 address ++
        " is not a CHIP-8 instruction"
  | .stackOverflow depth => "Stack overflow (more than " ++ toString depth ++ " nested calls)"
  | .stackUnderflow => "Stack underflow (return without a call)"
  | .romTooLarge size room =>
      "ROM is " ++ toString size ++ " bytes, but only " ++ toString room ++ " bytes are available"

/-- Why an operation was refused. -/
inductive Trap where
  | fault (cause : Fault)
  /-- The machine is halted by this earlier fault. -/
  | halted (cause : Fault)
  /-- An instruction was handed to a machine that is waiting for a key. -/
  | awaitingKey
  | clockNotPositive
  /-- A whole clock speed beyond all doubles. -/
  | clockTooLarge
  /-- The whole part was taken of what has none. -/
  | notFinite (cause : Double.NotFinite)
  | noSuchRegister (number : Int)
  | noSuchKey (key : Int)
  /-- A value outside `0 .. 255` was stored in a byte. -/
  | notAByte
  /-- A block was loaded into registers of another number. -/
  | lengthMismatch
  | negativeCount (count : Int)
  /-- Memory of this size was asked for. -/
  | memoryTooLarge (size : Int)
  /-- Coordinates were wrapped onto a display without width or height. -/
  | noPixels
  /-- Rows were cut from a display without width. -/
  | noColumns
  deriving DecidableEq, Repr

/-- The sentence a refusal is reported with. -/
def Trap.message : Trap → String
  | .fault cause => cause.message
  | .halted cause => "Emulation halted by an earlier error: " ++ cause.message
  | .awaitingKey => "Cannot execute an instruction while waiting for a keypress"
  | .clockNotPositive => "Clock speed must be above zero operations per second"
  | .clockTooLarge => "The clock speed is too large"
  | .notFinite .infinite => "What is infinite has no whole part"
  | .notFinite .notANumber => "What is no number has no whole part"
  | .noSuchRegister number => "There is no register " ++ toString number
  | .noSuchKey key => "Key 0x" ++ Hex.lower 0 key ++ " does not exist on the keypad"
  | .notAByte => "The value does not fit in a byte"
  | .lengthMismatch => "The block does not fit the registers"
  | .negativeCount count => "There cannot be " ++ toString count ++ " bytes"
  | .memoryTooLarge size => "There is no room for " ++ toString size ++ " bytes"
  | .noPixels => "The display has no pixels"
  | .noColumns => "The display has no columns"

/-- A choice with a refusal for its missing case. -/
def orTrap {α : Type} (trap : Trap) : Option α → Except Trap α
  | some value => .ok value
  | none => .error trap

end Chip8
