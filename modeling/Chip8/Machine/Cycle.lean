/-
This file runs single cycles.

A cycle takes an instruction, fetched from the program counter or handed in,
executes it, and then moves the program counter. An instruction that falls
through to the next is refused beforehand where there is no next. While the
machine waits for a key, the cycle passes without an instruction until a key has
gone down.

A fault is latched: the machine that met it refuses every later cycle, naming
the fault, until it is reset. Other refusals are not latched.
-/

import Chip8.Machine.Execute

namespace Chip8

/-- What a cycle did, as it is reported. -/
structure CycleReport where
  /-- Where the instruction lies. -/
  programCounter : Int
  opcode : Int
  mnemonic : String
  /-- Everything the cycle did; empty when it was not traced. -/
  effects : List Effect
  /-- The machine is waiting for a key after the cycle. -/
  waiting : Bool
  deriving DecidableEq

namespace Machine

/-- The word at the program counter. -/
def fetch : Routine Machine Int := do
  let machine ← get
  match ← demand (machine.memory.readBlock machine.programCounter 2) with
  | [high, low] => return Byte.word high low
  | _ => return 0

/-- Fetches and decodes the next instruction. The instruction held before is dropped first, so
none is held if there is none. -/
def fetchInstruction : Routine Machine Instruction := do
  modify fun machine => { machine with instruction := none }
  let opcode ← fetch
  modify fun machine => { machine with opcode := opcode }
  demand ((Instruction.decode opcode (← get).programCounter).mapError Trap.fault)

/-- Holds an instruction and carries it out, once falling through is known to be possible. -/
def retire (instruction : Instruction) : Routine Machine Completion := do
  modify fun machine => { machine with
    instruction := some instruction
    opcode := instruction.opcode }
  if !instruction.operation.branches then
    demand (checkProgramCounter ((← get).programCounter + 2))
  perform instruction

/-- One look at the keypad while waiting: a latched key goes into the register and ends the
wait, otherwise the program counter stays. -/
def pollKey (register : Int) : Routine Machine Completion := do
  let machine ← get
  match machine.keypad.latch with
  | none => return ⟨machine.programCounter, []⟩
  | some key => do
      storeRegister register (UInt8.ofNat key.val)
      modify fun machine => { machine with awaiting := none }
      advance []

/-- One cycle, of the instruction handed in or else of the one at the program counter. -/
def cycle (given : Option Instruction) (trace : Bool) : Routine Machine CycleReport := do
  let before := (← get).visible
  let completion ← match (← get).awaiting, given with
    | some register, _ => pollKey register
    | none, some instruction => retire instruction
    | none, none => fetchInstruction >>= retire
  modify fun machine => { machine with
    programCounter := completion.next
    cycles := machine.cycles + 1 }
  let after ← get
  return {
    programCounter := before.programCounter
    opcode := after.opcode
    mnemonic := after.mnemonic
    effects := if trace then Effect.between before after.visible completion.notes else []
    waiting := after.awaiting.isSome }

/-- Runs a routine on a machine that is not halted, and halts it at a fault. -/
def guarded {α : Type} (routine : Routine Machine α) : Routine Machine α := fun machine =>
  match machine.fault with
  | some fault => .error (.halted fault) machine
  | none =>
      match routine machine with
      | .error (.fault fault) machine => .error (.fault fault) { machine with fault := some fault }
      | result => result

/-- Runs the next instruction of the program. -/
def step (trace : Bool) : Routine Machine CycleReport :=
  guarded (cycle none trace)

/-- Runs an instruction as if it had been fetched. A machine that waits for a key takes none. -/
def execute (instruction : Instruction) (trace : Bool) : Routine Machine CycleReport := do
  if (← get).awaiting.isSome then throw .awaitingKey
  guarded (cycle (some instruction) trace)

/-- Runs a word as if it had been fetched. A word that is no instruction is refused without
halting the machine. -/
def executeWord (opcode : Int) (trace : Bool) : Routine Machine CycleReport := do
  let instruction ← demand
    ((Instruction.decode opcode (← get).programCounter).mapError Trap.fault)
  execute instruction trace

end Machine

end Chip8
