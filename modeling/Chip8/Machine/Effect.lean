/-
This file says what a cycle did, as a list of effects.

Registers, index, stack, timers and program counter are compared before and
after the cycle, so each effect among them is a difference. What was written to
memory or done to the display cannot be told from a difference in size; those
effects are noted by the instruction while it runs, and stand between the timers
and the program counter.
-/

import Chip8.Machine.Basic

namespace Chip8

/-- One thing a cycle did. -/
inductive Effect where
  | register (number : Fin 16) (old new : UInt8)
  | index (old new : Int)
  | pushed (address : Int)
  | popped (address : Int)
  | delay (old new : UInt8)
  | sound (old new : UInt8)
  | stored (address : Int) (byte : UInt8)
  | displayCleared
  | displayDrawn (hit : Bool)
  | programCounter (old new : Int)
  deriving DecidableEq, Repr

namespace Effect

private def change (name : String) (width : Nat) (old new : Int) : String :=
  name ++ ": 0x" ++ Hex.lower width old ++ " -> 0x" ++ Hex.lower width new

/-- The line an effect is reported on. -/
def text : Effect → String
  | register number old new => change ("V" ++ Hex.upper number.val) 2 old.toNat new.toNat
  | index old new => change "I" 3 old new
  | pushed address => "Stack: push 0x" ++ Hex.lower 3 address
  | popped address => "Stack: pop 0x" ++ Hex.lower 3 address
  | delay old new => change "DT" 2 old.toNat new.toNat
  | sound old new => change "ST" 2 old.toNat new.toNat
  | stored address byte => "[0x" ++ Hex.lower 3 address ++ "]: 0x" ++ Hex.byte byte
  | displayCleared => "Display cleared"
  | displayDrawn hit => "Display drawn" ++ (if hit then " (collision)" else "")
  | programCounter old new => change "PC" 3 old new

end Effect

/-- The parts of the machine that are compared before and after a cycle. -/
structure Visible where
  registers : Registers
  index : Int
  programCounter : Int
  stack : List Int
  timers : Timers
  deriving DecidableEq

def Machine.visible (machine : Machine) : Visible where
  registers := machine.registers
  index := machine.index
  programCounter := machine.programCounter
  stack := machine.stack.entries
  timers := machine.timers

namespace Effect

/-- An effect, if the two values differ. -/
def ofDifference {α : Type} [DecidableEq α] (effect : α → α → Effect) (old new : α) :
    List Effect :=
  if old = new then [] else [effect old new]

/-- A call pushes one address, a return pops one. -/
def ofStacks (old new : List Int) : List Effect :=
  if old.length < new.length then [pushed (new.getLastD 0)]
  else if new.length < old.length then [popped (old.getLastD 0)]
  else []

def ofRegisters (old new : Registers) : List Effect :=
  (List.finRange 16).flatMap fun number =>
    ofDifference (register number) (old.get number) (new.get number)

/-- Everything a cycle did: the differences, with the noted effects before the program
counter's. -/
def between (old new : Visible) (notes : List Effect) : List Effect :=
  ofRegisters old.registers new.registers ++
    ofDifference index old.index new.index ++
    ofStacks old.stack new.stack ++
    ofDifference delay old.timers.delay new.timers.delay ++
    ofDifference sound old.timers.sound new.timers.sound ++
    notes ++
    ofDifference programCounter old.programCounter new.programCounter

end Effect

end Chip8
