/-
This file puts the machine together: its registers, index and program counter,
call stack, memory, display, keypad and timers, with the settings it was built
with and the marks a cycle leaves for diagnosis.
-/

import Chip8.CallStack
import Chip8.Display
import Chip8.Instruction.Decode
import Chip8.Keypad
import Chip8.Pace
import Chip8.Registers
import Chip8.Timers

namespace Chip8

/-- The four points on which interpreters differ. -/
structure Dialect where
  /-- Storing and loading registers leaves the index past the last one. -/
  movesIndex : Bool
  /-- Shifts work on the first operand in place and ignore the second. -/
  shiftsInPlace : Bool
  /-- The bitwise operations clear the flag. -/
  clearsFlag : Bool
  /-- The offset of a jump is the register its address names, not `V0`. -/
  offsetsByAddress : Bool
  deriving DecidableEq, Repr

/-- Each point as chosen, or the usual way where nothing is chosen. -/
def Dialect.ofChoices (load shift logic jump : Option Bool) : Dialect where
  movesIndex := load.getD false
  shiftsInPlace := shift.getD true
  clearsFlag := logic.getD false
  offsetsByAddress := jump.getD false

/-- An endless supply of random bytes, and how many have been drawn from it. -/
structure RandomSource where
  byteAt : Nat → UInt8
  drawn : Nat

/-- Draws the next byte. -/
def RandomSource.next (source : RandomSource) : UInt8 × RandomSource :=
  (source.byteAt source.drawn, { source with drawn := source.drawn + 1 })

structure Machine where
  registers : Registers
  /-- The index register `I`, through which instructions address memory. -/
  index : Int
  programCounter : Int
  stack : CallStack
  memory : Memory
  display : Display
  keypad : Keypad
  timers : Timers
  dialect : Dialect
  pace : Pace
  random : RandomSource
  /-- The word executed last. -/
  opcode : Int
  /-- The instruction executed last, if it could be decoded. -/
  instruction : Option Instruction
  /-- The register that waits for a key, if the machine is waiting. -/
  awaiting : Option Int
  /-- The fault that halted the machine. -/
  fault : Option Fault
  /-- How many cycles have been completed. -/
  cycles : Nat

namespace Machine

/-- The instruction executed last in assembly text, or a placeholder. -/
def mnemonic (machine : Machine) : String :=
  (machine.instruction.map Instruction.mnemonic).getD "???"

end Machine

end Chip8
