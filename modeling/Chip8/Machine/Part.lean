/-
This file lets operations on one part of the machine run on the machine.
-/

import Chip8.Machine.Basic

namespace Chip8.Machine

def onMemory (action : Memory → Except Trap Memory) : Routine Machine Unit := do
  let memory ← demand (action (← get).memory)
  modify fun machine => { machine with memory := memory }

def onRegisters (action : Registers → Except Trap Registers) : Routine Machine Unit := do
  let registers ← demand (action (← get).registers)
  modify fun machine => { machine with registers := registers }

def onKeypad (action : Keypad → Except Trap Keypad) : Routine Machine Unit := do
  let keypad ← demand (action (← get).keypad)
  modify fun machine => { machine with keypad := keypad }

def onDisplay {α : Type} (routine : Routine Display α) : Routine Machine α :=
  routine.onPart Machine.display fun machine display => { machine with display := display }

end Chip8.Machine
