/-
This file writes reports: the line a machine's state is shown on, the longer
form it is shown in after a crash, and the lines of a single cycle.

The state line names every part by a label, with registers run together from
`VF` down to `V0`. The crash form adds the open calls and the cycle count. A
cycle is a heading with one indented line for each thing it did; a cycle spent
waiting for a key says so instead.
-/

import Chip8.Machine.Cycle
import Chip8.Machine.Snapshot

namespace Chip8.Report

private def waitingMark : String := " (waiting for key)"

/-- The registers as one run of digits, highest register first. -/
def registerDigits (registers : Registers) : String :=
  String.join (registers.values.toList.reverse.map Hex.byte)

/-- The state of a machine on one line. -/
def stateLine (snapshot : Snapshot) : String :=
  "V: 0x" ++ registerDigits snapshot.registers ++
    " I: 0x" ++ Hex.lower 4 snapshot.index ++
    " DT: 0x" ++ Hex.lower 2 snapshot.delay ++
    " ST: 0x" ++ Hex.lower 2 snapshot.sound ++
    " PC: 0x" ++ Hex.lower 3 snapshot.programCounter ++
    " OP: 0x" ++ Hex.lower 4 snapshot.opcode ++
    " IN: " ++ snapshot.mnemonic ++
    (if snapshot.waiting then waitingMark else "")

/-- The open return addresses, oldest first. -/
def stackText (stack : List Int) : String :=
  if stack.isEmpty then " (Empty)"
  else String.join (stack.map fun address => " 0x" ++ Hex.lower 3 address)

/-- The state of a machine after a crash. -/
def crash (snapshot : Snapshot) : String :=
  stateLine snapshot ++ "\nStack:" ++ stackText snapshot.stack ++
    "\nCycles: " ++ toString snapshot.cycles

/-- The state of a machine, in the longer form if that is asked for. -/
def state (snapshot : Snapshot) (verbose : Bool) : String :=
  if verbose then crash snapshot else stateLine snapshot

/-- A cycle from its parts, each effect on a line of its own. -/
def cycleLines (programCounter opcode : Int) (mnemonic : String) (effects : List String)
    (waiting : Bool) : String :=
  let heading := "[PC:0x" ++ Hex.lower 3 programCounter ++ "] [RAW:0x" ++ Hex.lower 4 opcode ++
    "] " ++ mnemonic
  if waiting && effects.isEmpty then heading ++ waitingMark
  else heading ++ String.join (effects.map fun effect => "\n    " ++ effect)

/-- What a cycle did. -/
def cycle (report : CycleReport) : String :=
  cycleLines report.programCounter report.opcode report.mnemonic
    (report.effects.map Effect.text) report.waiting

end Chip8.Report
