/-
This file executes instructions.

Each operation looks at everything that could fail before it changes anything:
the address it would jump to, the room on the call stack, the memory it is about
to touch. It reads its operands from the fields of the instruction and answers
with where the program counter goes next; the cycle that runs it moves the
program counter once the operation is through.

Operations that set the flag work it out from their operands first and write
`VF` last, so the flag wins when `VF` is an operand itself.
-/

import Chip8.Machine.Effect
import Chip8.Machine.Part

namespace Chip8.Machine

/-- What an operation leaves to the cycle that runs it. -/
structure Completion where
  /-- Where the program counter goes. -/
  next : Int
  /-- Effects on memory and display. -/
  notes : List Effect

/-! ### Where to go next -/

/-- Refuses an address the program counter may not rest on. -/
def checkProgramCounter (address : Int) : Except Trap Unit :=
  if Layout.InProgram address then .ok () else .error (.fault (.outOfProgram address))

/-- On to the instruction that follows. -/
def advance (notes : List Effect) : Routine Machine Completion := do
  return ⟨(← get).programCounter + 2, notes⟩

def jumpTo (address : Int) : Routine Machine Completion := do
  demand (checkProgramCounter address)
  return ⟨address, []⟩

/-- Passes over the instruction that follows, if the condition holds. -/
def skipWhen (condition : Bool) : Routine Machine Completion := do
  if condition then jumpTo ((← get).programCounter + 4) else advance []

/-! ### Registers and index -/

def readRegister (number : Int) : Routine Machine UInt8 := do
  demand ((← get).registers.read number)

def storeRegister (number : Int) (byte : UInt8) : Routine Machine Unit :=
  onRegisters fun registers => registers.store number byte

def setFlag (byte : UInt8) : Routine Machine Unit :=
  modify fun machine => { machine with registers := machine.registers.set Registers.flag byte }

def setIndex (address : Int) : Routine Machine Unit :=
  modify fun machine => { machine with index := address }

/-- Moves the index on; it rests at its top instead of wrapping. -/
def moveIndex (distance : Int) : Routine Machine Unit :=
  modify fun machine => { machine with index := min (machine.index + distance) Layout.indexTop }

/-- Stores one byte in memory and notes it. -/
def storeByte (address : Int) (byte : UInt8) : Routine Machine Effect := do
  onMemory fun memory => memory.store address byte
  return .stored address byte

/-! ### Calls and jumps -/

def call (target : Int) : Routine Machine Completion := do
  demand (checkProgramCounter target)
  let machine ← get
  let stack ← demand (machine.stack.push (machine.programCounter + 2))
  set { machine with stack := stack }
  return ⟨target, []⟩

def returnFromCall : Routine Machine Completion := do
  demand (checkProgramCounter (← demand (← get).stack.peek))
  let machine ← get
  let (address, stack) ← demand machine.stack.pop
  set { machine with stack := stack }
  return ⟨address, []⟩

def jumpOffset (x target : Int) : Routine Machine Completion := do
  let offset ← readRegister (if (← get).dialect.offsetsByAddress then x else 0)
  jumpTo (offset.toNat + target)

/-! ### Skips -/

def skipOnByte (wanted : Bool) (x byte : Int) : Routine Machine Completion := do
  let value ← readRegister x
  skipWhen (((value.toNat : Int) == byte) == wanted)

def skipOnRegister (wanted : Bool) (x y : Int) : Routine Machine Completion := do
  let first ← readRegister x
  let second ← readRegister y
  skipWhen ((first == second) == wanted)

def skipOnKey (wanted : Bool) (x : Int) : Routine Machine Completion := do
  let key ← readRegister x
  skipWhen ((← get).keypad.isHeld key.toNat == wanted)

/-! ### Arithmetic -/

def loadByte (x value : Int) : Routine Machine Completion := do
  onRegisters fun registers => registers.write x value
  advance []

/-- Adds without touching the flag. -/
def addByte (x value : Int) : Routine Machine Completion := do
  storeRegister x ((← readRegister x) + Byte.low value)
  advance []

def copyRegister (x y : Int) : Routine Machine Completion := do
  storeRegister x (← readRegister y)
  advance []

def bitwise (combine : UInt8 → UInt8 → UInt8) (x y : Int) : Routine Machine Completion := do
  let first ← readRegister x
  let second ← readRegister y
  storeRegister x (combine first second)
  if (← get).dialect.clearsFlag then setFlag 0
  advance []

/-- Stores a result in a register and then its flag in `VF`. -/
def storeFlagged (x : Int) (result : UInt8) (flag : Bool) : Routine Machine Completion := do
  storeRegister x result
  setFlag flag.toUInt8
  advance []

/-- The flag is the carry. -/
def addRegister (x y : Int) : Routine Machine Completion := do
  let first ← readRegister x
  let second ← readRegister y
  storeFlagged x (first + second) (255 < first.toNat + second.toNat)

/-- Stores a difference; the flag is set when nothing was borrowed. -/
def subtract (x minuend subtrahend : Int) : Routine Machine Completion := do
  let first ← readRegister minuend
  let second ← readRegister subtrahend
  storeFlagged x (first - second) (second.toNat ≤ first.toNat)

def shiftOperand (x y : Int) : Routine Machine UInt8 := do
  readRegister (if (← get).dialect.shiftsInPlace then x else y)

/-- The flag is the bit shifted out. -/
def shiftRight (x y : Int) : Routine Machine Completion := do
  let value ← shiftOperand x y
  storeFlagged x (value >>> 1) (value.toNat.testBit 0)

/-- The flag is the bit shifted out. -/
def shiftLeft (x y : Int) : Routine Machine Completion := do
  let value ← shiftOperand x y
  storeFlagged x (value <<< 1) (value.toNat.testBit 7)

/-- Masks a random byte; the byte is drawn before the register is looked up. -/
def randomByte (x mask : Int) : Routine Machine Completion := do
  let machine ← get
  let (byte, random) := machine.random.next
  set { machine with random := random }
  storeRegister x (byte &&& Byte.low mask)
  advance []

/-! ### Display, keypad and timers -/

/-- Draws the sprite of `rows` bytes at the index; the flag tells of a hit. The sprite is read
first, so a bad index fails before any pixel changes. -/
def drawSprite (x y rows : Int) : Routine Machine Completion := do
  let machine ← get
  let sprite ← demand (machine.memory.readBlock machine.index rows)
  let column ← readRegister x
  let row ← readRegister y
  let hit ← onDisplay (Display.draw column.toNat row.toNat sprite)
  setFlag hit.toUInt8
  advance [.displayDrawn hit]

/-- Begins to wait for a key. The latch is cleared so that only a later press counts, and the
program counter stays. -/
def awaitKey (x : Int) : Routine Machine Completion := do
  modify fun machine => { machine with
    keypad := machine.keypad.clearLatch
    awaiting := some x }
  return ⟨(← get).programCounter, []⟩

def readDelay (x : Int) : Routine Machine Completion := do
  storeRegister x (← get).timers.delay
  advance []

def setDelay (x : Int) : Routine Machine Completion := do
  let value ← readRegister x
  modify fun machine => { machine with timers := machine.timers.setDelay value.toNat }
  advance []

def setSound (x : Int) : Routine Machine Completion := do
  let value ← readRegister x
  modify fun machine => { machine with timers := machine.timers.setSound value.toNat }
  advance []

/-! ### Index and memory -/

def addIndex (x : Int) : Routine Machine Completion := do
  moveIndex (← readRegister x).toNat
  advance []

/-- Points the index at the glyph of a register's low nibble. -/
def pointAtGlyph (x : Int) : Routine Machine Completion := do
  let digit := (← readRegister x).toNat % 16
  setIndex (Layout.glyphStart + Layout.glyphSize * digit)
  advance []

/-- Stores a register's three decimal digits at the index, hundreds first. -/
def storeDecimal (x : Int) : Routine Machine Completion := do
  let value ← readRegister x
  let machine ← get
  let base := machine.index
  demand (machine.memory.check base 3)
  let hundreds ← storeByte base (value / 100)
  let tens ← storeByte (base + 1) (value / 10 % 10)
  let units ← storeByte (base + 2) (value % 10)
  advance [hundreds, tens, units]

/-- Stores registers one after the other at successive addresses. -/
def storeEach (base : Int) : List Nat → Routine Machine (List Effect)
  | [] => return []
  | number :: rest => do
      let note ← storeByte (base + number) (← readRegister number)
      return note :: (← storeEach base rest)

/-- Moves the index past the registers `V0` to `Vx`, where the dialect does so. -/
def passRegisters (x : Int) : Routine Machine Unit := do
  if (← get).dialect.movesIndex then moveIndex (x + 1)

/-- Stores `V0` to `Vx` at the index. -/
def storeRegisters (x : Int) : Routine Machine Completion := do
  let machine ← get
  demand (machine.memory.check machine.index (x + 1))
  let notes ← storeEach machine.index (List.range (x + 1).toNat)
  passRegisters x
  advance notes

/-- Loads `V0` to `Vx` from the index. -/
def loadRegisters (x : Int) : Routine Machine Completion := do
  let machine ← get
  let block ← demand (machine.memory.readBlock machine.index (x + 1))
  onRegisters fun registers => registers.loadLeading (x + 1) block
  passRegisters x
  advance []

/-! ### All operations -/

/-- Carries out an instruction, short of moving the program counter. -/
def perform (instruction : Instruction) : Routine Machine Completion :=
  let x := instruction.x
  let y := instruction.y
  match instruction.operation with
  | .clearDisplay => do
      onDisplay Display.clear
      advance [.displayCleared]
  | .returnFromCall => returnFromCall
  | .machineCode => advance []
  | .jump => jumpTo instruction.nnn
  | .call => call instruction.nnn
  | .skipIfByte => skipOnByte true x instruction.kk
  | .skipUnlessByte => skipOnByte false x instruction.kk
  | .skipIfEqual => skipOnRegister true x y
  | .loadByte => loadByte x instruction.kk
  | .addByte => addByte x instruction.kk
  | .copyRegister => copyRegister x y
  | .bitOr => bitwise (· ||| ·) x y
  | .bitAnd => bitwise (· &&& ·) x y
  | .bitXor => bitwise (· ^^^ ·) x y
  | .addRegister => addRegister x y
  | .subtract => subtract x x y
  | .shiftRight => shiftRight x y
  | .subtractFrom => subtract x y x
  | .shiftLeft => shiftLeft x y
  | .skipUnlessEqual => skipOnRegister false x y
  | .loadIndex => do
      setIndex instruction.nnn
      advance []
  | .jumpOffset => jumpOffset x instruction.nnn
  | .randomByte => randomByte x instruction.kk
  | .drawSprite => drawSprite x y instruction.n
  | .skipIfHeld => skipOnKey true x
  | .skipUnlessHeld => skipOnKey false x
  | .readDelay => readDelay x
  | .awaitKey => awaitKey x
  | .setDelay => setDelay x
  | .setSound => setSound x
  | .addIndex => addIndex x
  | .pointAtGlyph => pointAtGlyph x
  | .storeDecimal => storeDecimal x
  | .storeRegisters => storeRegisters x
  | .loadRegisters => loadRegisters x

end Chip8.Machine
