/-
This file lists what the owner of a machine can ask of it, and what it answers.

An action is either done, with whatever it has to tell, or refused. Either way
the machine goes on from where the action left it, so a run of actions is a fold
over them: what a machine can come to is what some list of actions makes of a
new one.
-/

import Chip8.Machine.Frame
import Chip8.Machine.Reset

namespace Chip8

/-- What the owner of a machine can ask of it. -/
inductive Action where
  | step (trace : Bool)
  | execute (instruction : Instruction) (trace : Bool)
  | executeWord (opcode : Int) (trace : Bool)
  | runFrame (listening : Bool)
  | tickTimers
  | reset (start : Int)
  | loadRom (rom : List UInt8)
  /-- Writes a block to memory from outside the program. -/
  | poke (address : Int) (block : List UInt8)
  | setKey (key : Int) (down : Bool)
  | releaseKeys
  /-- Takes the picture if it may have changed. -/
  | collectPicture
  deriving DecidableEq

/-- What a machine answers to an action. -/
inductive Reply where
  | done
  | refused (trap : Trap)
  | cycled (report : CycleReport)
  /-- A frame that owed a number of cycles, with what its listener was shown and what cut it
  short. -/
  | ran (owed : Nat) (observed : Array Observation) (trap : Option Trap)
  | picture (grid : Option Grid)
  deriving DecidableEq

namespace Machine

/-- Runs a routine, and answers with its result or its refusal. -/
def answering {α : Type} (reply : α → Reply) (routine : Routine Machine α) (machine : Machine) :
    Reply × Machine :=
  match routine machine with
  | .ok value machine => (reply value, machine)
  | .error trap machine => (.refused trap, machine)

/-- As `answering`, for a routine that has nothing to tell. -/
def obeying (routine : Routine Machine Unit) (machine : Machine) : Reply × Machine :=
  machine.answering (fun _ => .done) routine

/-- Does what is asked. -/
def act (machine : Machine) : Action → Reply × Machine
  | .step trace => machine.answering .cycled (step trace)
  | .execute instruction trace => machine.answering .cycled (execute instruction trace)
  | .executeWord opcode trace => machine.answering .cycled (executeWord opcode trace)
  | .runFrame listening =>
      let (owed, run) := machine.runFrame listening
      (.ran owed run.observed run.trap, run.machine)
  | .tickTimers => (.done, machine.tickTimers)
  | .reset start => machine.obeying (reset start)
  | .loadRom rom => machine.obeying (loadRom rom)
  | .poke address block =>
      machine.obeying (onMemory fun memory => memory.writeBlock address block)
  | .setKey key down => machine.obeying (onKeypad fun keypad => keypad.setKey key down)
  | .releaseKeys => (.done, { machine with keypad := Keypad.released })
  | .collectPicture =>
      let (grid, display) := machine.display.collect
      (.picture grid, { machine with display := display })

/-- What a list of actions makes of a machine. -/
def actAll (machine : Machine) (actions : List Action) : Machine :=
  actions.foldl (fun machine action => (machine.act action).2) machine

theorem actAll_append (machine : Machine) (first second : List Action) :
    machine.actAll (first ++ second) = (machine.actAll first).actAll second :=
  List.foldl_append

end Machine

end Chip8
