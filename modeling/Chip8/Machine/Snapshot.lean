/-
This file takes the picture of the machine that reports are written from: its
registers, stack and timers, the instruction it held last and how far it has
come.
-/

import Chip8.Machine.Basic

namespace Chip8

structure Snapshot where
  registers : Registers
  index : Int
  programCounter : Int
  /-- The open return addresses, oldest first. -/
  stack : List Int
  delay : Int
  sound : Int
  opcode : Int
  mnemonic : String
  waiting : Bool
  cycles : Int
  deriving DecidableEq

def Machine.snapshot (machine : Machine) : Snapshot where
  registers := machine.registers
  index := machine.index
  programCounter := machine.programCounter
  stack := machine.stack.entries
  delay := machine.timers.delay.toNat
  sound := machine.timers.sound.toNat
  opcode := machine.opcode
  mnemonic := machine.mnemonic
  waiting := machine.awaiting.isSome
  cycles := machine.cycles

end Chip8
