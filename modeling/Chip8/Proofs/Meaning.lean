/-
This file says what every instruction means: what keeps a machine from carrying
it out, where it leads, and what it leaves in each part of the machine.

The meaning is given part by part, as functions of the machine before. A part
that an operation does not name is left alone, so the operations that touch a
part can be read off the one definition for that part. What an instruction means
does not depend on the order in which it looks and changes things; that the
machine, which does have an order, comes to the same is proved elsewhere.

An instruction put together by hand may carry operands that no word holds. Its
meaning is taken as if registers it cannot name held zero and took nothing.
-/

import Chip8.Machine.Execute
import Chip8.Proofs.Drawing

namespace Chip8

/-! ### Operands -/

/-- The operands of an instruction fit their places in a word. -/
structure Instruction.InRange (instruction : Instruction) : Prop where
  x : 0 ≤ instruction.x ∧ instruction.x < 0x10
  y : 0 ≤ instruction.y ∧ instruction.y < 0x10
  n : 0 ≤ instruction.n ∧ instruction.n < 0x10
  kk : 0 ≤ instruction.kk ∧ instruction.kk < 0x100
  nnn : 0 ≤ instruction.nnn ∧ instruction.nnn < 0x1000

namespace Instruction

theorem inRange_ofFields (operation : Operation) (opcode : Int) :
    (ofFields operation opcode).InRange := by
  constructor <;> simp only [ofFields] <;> omega

theorem InRange.names_x {instruction : Instruction} (range : instruction.InRange) :
    Registers.Names instruction.x :=
  Registers.names_of_lt range.x.1 range.x.2

theorem InRange.names_y {instruction : Instruction} (range : instruction.InRange) :
    Registers.Names instruction.y :=
  Registers.names_of_lt range.y.1 range.y.2

/-- Decoding either reads the fields of the word or refuses the word where it was found. -/
theorem decode_cases (opcode address : Int) :
    (∃ operation, decode opcode address = .ok (ofFields operation opcode)) ∨
      decode opcode address = .error (.unknownOpcode opcode address) := by
  simp only [decode]
  cases Operation.ofSelector? ((opcode % 0x10000).toNat &&& selectorMask (opcode / 0x1000)) with
  | some operation => exact .inl ⟨operation, rfl⟩
  | none =>
    by_cases lead : opcode / 0x1000 = 0
    · exact .inl ⟨.machineCode, by rw [if_pos lead]⟩
    · exact .inr (by rw [if_neg lead])

theorem fields_of_decode {opcode address : Int} {instruction : Instruction}
    (decoded : decode opcode address = .ok instruction) :
    ∃ operation, instruction = ofFields operation opcode := by
  rcases decode_cases opcode address with ⟨operation, read⟩ | refused
  · rw [read] at decoded
    cases decoded
    exact ⟨operation, rfl⟩
  · rw [refused] at decoded
    cases decoded

theorem inRange_of_decode {opcode address : Int} {instruction : Instruction}
    (decoded : decode opcode address = .ok instruction) : instruction.InRange := by
  obtain ⟨operation, rfl⟩ := fields_of_decode decoded
  exact inRange_ofFields operation opcode

theorem opcode_of_decode {opcode address : Int} {instruction : Instruction}
    (decoded : decode opcode address = .ok instruction) : instruction.opcode = opcode := by
  obtain ⟨operation, rfl⟩ := fields_of_decode decoded
  exact opcode_ofFields operation opcode

theorem fault_of_decode {opcode address : Int} {fault : Fault}
    (refused : decode opcode address = .error fault) :
    fault = .unknownOpcode opcode address := by
  rcases decode_cases opcode address with ⟨operation, read⟩ | unknown
  · rw [read] at refused
    cases refused
  · rw [unknown] at refused
    cases refused
    rfl

end Instruction

namespace Machine

variable (machine : Machine) (instruction : Instruction)

/-- The byte in the register of the first operand. -/
def first : UInt8 :=
  machine.registers.value instruction.x

/-- The byte in the register of the second operand. -/
def second : UInt8 :=
  machine.registers.value instruction.y

/-- The byte a shift works on. -/
def shifted : UInt8 :=
  machine.registers.value (if machine.dialect.shiftsInPlace then instruction.x else instruction.y)

/-- Whether the instruction passes over the one that follows. -/
def skips : Bool :=
  match instruction.operation with
  | .skipIfByte => ((machine.first instruction).toNat : Int) == instruction.kk
  | .skipUnlessByte => ((machine.first instruction).toNat : Int) != instruction.kk
  | .skipIfEqual => machine.first instruction == machine.second instruction
  | .skipUnlessEqual => machine.first instruction != machine.second instruction
  | .skipIfHeld => machine.keypad.isHeld (machine.first instruction).toNat
  | .skipUnlessHeld => !machine.keypad.isHeld (machine.first instruction).toNat
  | _ => false

/-- Where a jump or a call leads. -/
def target : Int :=
  match instruction.operation with
  | .jumpOffset =>
      (machine.registers.value
        (if machine.dialect.offsetsByAddress then instruction.x else 0)).toNat + instruction.nnn
  | _ => instruction.nnn

/-- Whether drawing the sprite at the index hits a lit pixel, and the display it leaves. -/
def sprite : Bool × Display :=
  machine.display.drawn (machine.first instruction).toNat (machine.second instruction).toNat
    (machine.memory.slice machine.index (machine.index + instruction.n))

/-! ### What stands in the way -/

/-- The fault of a program counter that would come to rest on an address. -/
def leaving? (address : Int) : Option Fault :=
  if Layout.InProgram address then none else some (.outOfProgram address)

/-- The fault of touching a number of bytes at the index. -/
def missing? (count : Int) : Option Fault :=
  (machine.memory.missing? machine.index count).map .outOfMemory

/-- What keeps an operation from being carried out. -/
def hindrance? : Option Fault :=
  match instruction.operation with
  | .returnFromCall =>
      match machine.stack.entries.getLast? with
      | some address => leaving? address
      | none => some .stackUnderflow
  | .jump | .jumpOffset => leaving? (machine.target instruction)
  | .call =>
      (leaving? (machine.target instruction)).or
        (if machine.stack.isFull then some (.stackOverflow machine.stack.depth) else none)
  | .skipIfByte | .skipUnlessByte | .skipIfEqual | .skipUnlessEqual | .skipIfHeld
  | .skipUnlessHeld =>
      if machine.skips instruction then leaving? (machine.programCounter + 4) else none
  | .drawSprite => machine.missing? instruction.n
  | .storeDecimal => machine.missing? 3
  | .storeRegisters | .loadRegisters => machine.missing? (instruction.x + 1)
  | _ => none

/-- What keeps an instruction from being carried out: there may be no next instruction to fall
through to, and if there is, its operation may be hindered. -/
def obstacle? : Option Fault :=
  (if instruction.operation.branches then none
    else leaving? (machine.programCounter + 2)).or
    (machine.hindrance? instruction)

/-! ### What it leaves -/

/-- Where the program counter goes. -/
def destination : Int :=
  match instruction.operation with
  | .returnFromCall => machine.stack.entries.getLastD 0
  | .jump | .call | .jumpOffset => machine.target instruction
  | .awaitKey => machine.programCounter
  | _ => machine.programCounter + (if machine.skips instruction then 4 else 2)

/-- The registers with a byte in that of the first operand. -/
def assigning (byte : UInt8) : Registers :=
  machine.registers.assign instruction.x byte

/-- As `assigning`, with the flag cleared after it where the dialect does so. -/
def combining (byte : UInt8) : Registers :=
  if machine.dialect.clearsFlag then (machine.assigning instruction byte).set Registers.flag 0
  else machine.assigning instruction byte

/-- As `assigning`, with a flag set after it. -/
def flagging (byte : UInt8) (flag : Bool) : Registers :=
  (machine.assigning instruction byte).set Registers.flag flag.toUInt8

def registersAfter : Registers :=
  let first := machine.first instruction
  let second := machine.second instruction
  let shifted := machine.shifted instruction
  match instruction.operation with
  | .loadByte => machine.assigning instruction (Byte.low instruction.kk)
  | .addByte => machine.assigning instruction (first + Byte.low instruction.kk)
  | .copyRegister => machine.assigning instruction second
  | .bitOr => machine.combining instruction (first ||| second)
  | .bitAnd => machine.combining instruction (first &&& second)
  | .bitXor => machine.combining instruction (first ^^^ second)
  | .addRegister =>
      machine.flagging instruction (first + second) (255 < first.toNat + second.toNat)
  | .subtract => machine.flagging instruction (first - second) (second.toNat ≤ first.toNat)
  | .shiftRight => machine.flagging instruction (shifted >>> 1) (shifted.toNat.testBit 0)
  | .subtractFrom => machine.flagging instruction (second - first) (first.toNat ≤ second.toNat)
  | .shiftLeft => machine.flagging instruction (shifted <<< 1) (shifted.toNat.testBit 7)
  | .randomByte =>
      machine.assigning instruction (machine.random.next.1 &&& Byte.low instruction.kk)
  | .drawSprite => machine.registers.set Registers.flag (machine.sprite instruction).1.toUInt8
  | .readDelay => machine.assigning instruction machine.timers.delay
  | .loadRegisters =>
      machine.registers.place 0
        (machine.memory.slice machine.index (machine.index + (instruction.x + 1)))
  | _ => machine.registers

def indexAfter : Int :=
  match instruction.operation with
  | .loadIndex => instruction.nnn
  | .addIndex => min (machine.index + (machine.first instruction).toNat) Layout.indexTop
  | .pointAtGlyph =>
      Layout.glyphStart + Layout.glyphSize * ((machine.first instruction).toNat % 16 : Nat)
  | .storeRegisters | .loadRegisters =>
      if machine.dialect.movesIndex then min (machine.index + (instruction.x + 1)) Layout.indexTop
      else machine.index
  | _ => machine.index

def stackAfter : CallStack :=
  match instruction.operation with
  | .call =>
      { machine.stack with entries := machine.stack.entries ++ [machine.programCounter + 2] }
  | .returnFromCall => { machine.stack with entries := machine.stack.entries.dropLast }
  | _ => machine.stack

/-- The three decimal digits of a byte, hundreds first. -/
def decimals (byte : UInt8) : List UInt8 :=
  [byte / 100, byte / 10 % 10, byte % 10]

/-- The bytes an operation lays over memory at the index. -/
def stored : List UInt8 :=
  match instruction.operation with
  | .storeDecimal => decimals (machine.first instruction)
  | .storeRegisters => machine.registers.block 0 (instruction.x + 1).toNat
  | _ => []

def memoryAfter : Memory :=
  machine.memory.place machine.index (machine.stored instruction)

def displayAfter : Display :=
  match instruction.operation with
  | .clearDisplay => machine.display.cleared
  | .drawSprite => (machine.sprite instruction).2
  | _ => machine.display

def keypadAfter : Keypad :=
  match instruction.operation with
  | .awaitKey => machine.keypad.clearLatch
  | _ => machine.keypad

def timersAfter : Timers :=
  match instruction.operation with
  | .setDelay => machine.timers.setDelay (machine.first instruction).toNat
  | .setSound => machine.timers.setSound (machine.first instruction).toNat
  | _ => machine.timers

def randomAfter : RandomSource :=
  match instruction.operation with
  | .randomByte => machine.random.next.2
  | _ => machine.random

def awaitingAfter : Option Int :=
  match instruction.operation with
  | .awaitKey => some instruction.x
  | _ => machine.awaiting

/-- The machine once the operation is through, its program counter not yet moved. -/
def after : Machine :=
  { machine with
    registers := machine.registersAfter instruction
    index := machine.indexAfter instruction
    stack := machine.stackAfter instruction
    memory := machine.memoryAfter instruction
    display := machine.displayAfter instruction
    keypad := machine.keypadAfter instruction
    timers := machine.timersAfter instruction
    random := machine.randomAfter instruction
    awaiting := machine.awaitingAfter instruction }

/-- A block noted as stored, byte by byte from an address on. -/
def storedNotes (address : Int) : List UInt8 → List Effect
  | [] => []
  | byte :: rest => .stored address byte :: storedNotes (address + 1) rest

/-- The effects on memory and display. -/
def notes : List Effect :=
  match instruction.operation with
  | .clearDisplay => [.displayCleared]
  | .drawSprite => [.displayDrawn (machine.sprite instruction).1]
  | _ => storedNotes machine.index (machine.stored instruction)

end Machine

end Chip8
