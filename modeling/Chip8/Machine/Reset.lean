/-
This file starts the machine: over again, with a program, or for the first time.

A reset takes back everything a program could have left behind, a fault and a
wait for a key among it. It keeps what is not the program's: the settings, the
keys held down and the position in the random source. A new machine is one that
was reset.
-/

import Chip8.Machine.Part

namespace Chip8.Machine

/-- Puts everything but the settings, the keys held down and the position in the random
source back to the start, with the program counter at an address. -/
def reset (start : Int) : Routine Machine Unit := do
  modify fun machine => { machine with
    registers := Registers.zero
    index := 0
    programCounter := start
    opcode := 0
    instruction := none
    awaiting := none
    fault := none
    cycles := 0
    pace := machine.pace.restart }
  onMemory Memory.clear
  onMemory Memory.loadGlyphs
  modify fun machine => { machine with
    stack := machine.stack.clear
    timers := Timers.stopped }
  onDisplay Display.clear
  modify fun machine => { machine with keypad := machine.keypad.clearLatch }

def loadRom (rom : List UInt8) : Routine Machine Unit :=
  onMemory fun memory => memory.loadRom rom

/-- A machine of a pace before its first reset. -/
def unset (pace : Pace) (dialect : Dialect) (bytes : Nat → UInt8) : Machine where
  registers := Registers.zero
  index := 0
  programCounter := Layout.programStart
  stack := CallStack.empty Layout.stackDepth
  memory := Memory.blank Layout.memorySize
  display := Display.blank Layout.displayWidth Layout.displayHeight
  keypad := Keypad.released
  timers := Timers.stopped
  dialect := dialect
  pace := pace
  random := ⟨bytes, 0⟩
  opcode := 0
  instruction := none
  awaiting := none
  fault := none
  cycles := 0

/-- A new machine without a program. The clock speed is the standard one unless given. -/
def create (speed : Option ClockSpeed) (dialect : Dialect) (bytes : Nat → UInt8) :
    Except Trap Machine := do
  let pace ← Pace.ofSpeed (speed.getD ClockSpeed.standard)
  (reset Layout.programStart).completed (unset pace dialect bytes)

/-- A new machine with a program, if one is given. -/
def boot (rom : Option (List UInt8)) (speed : Option ClockSpeed) (dialect : Dialect)
    (bytes : Nat → UInt8) : Except Trap Machine := do
  let machine ← create speed dialect bytes
  match rom with
  | some rom => (loadRom rom).completed machine
  | none => return machine

end Chip8.Machine
