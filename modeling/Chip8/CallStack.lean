/-
This file is the call stack: the return addresses of the calls still open,
oldest first, up to a fixed depth. Programs cannot address it, so it lies
outside memory.

A call with no room left and a return with nothing to return to are both
faults.
-/

import Chip8.Fault
import Chip8.Layout

namespace Chip8

structure CallStack where
  /-- The open return addresses, oldest first. -/
  entries : List Int
  /-- How many may be open at once. -/
  depth : Int
  deriving DecidableEq, Repr

namespace CallStack

def empty (depth : Int) : CallStack :=
  ⟨[], depth⟩

def length (stack : CallStack) : Nat :=
  stack.entries.length

def isFull (stack : CallStack) : Bool :=
  stack.depth ≤ stack.length

def push (stack : CallStack) (address : Int) : Except Trap CallStack :=
  if stack.isFull then .error (.fault (.stackOverflow stack.depth))
  else .ok { stack with entries := stack.entries ++ [address] }

/-- The newest return address. -/
def peek (stack : CallStack) : Except Trap Int :=
  orTrap (.fault .stackUnderflow) stack.entries.getLast?

/-- Takes the newest return address off. -/
def pop (stack : CallStack) : Except Trap (Int × CallStack) := do
  let address ← stack.peek
  return (address, { stack with entries := stack.entries.dropLast })

def clear (stack : CallStack) : CallStack :=
  { stack with entries := [] }

end CallStack

end Chip8
