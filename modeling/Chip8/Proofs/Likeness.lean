/-
This file proves that an instruction does the same to machines that are alike.

Instructions look at few parts of a machine. From the random source they draw
single bytes; of memory they learn where it ends and, if they load, one block at
the index; and they change a machine only by putting something into a part, by
drawing, and by storing single bytes. So whatever else two machines differ in,
and in whatever way, as long as they show the same there and being alike outlasts
these changes, an instruction gives the same result on both and leaves machines
that are alike.

What it takes is written down once, as a likeness; an operation is then gone
through routine by routine, and nothing is said of what the machines differ in.
-/

import Chip8.Machine.Execute
import Chip8.Proofs.Storage

namespace Chip8

/-- The parts of a machine that instructions look at, memory and random source aside. -/
structure Parts where
  registers : Registers
  index : Int
  programCounter : Int
  stack : CallStack
  display : Display
  keypad : Keypad
  timers : Timers
  dialect : Dialect
  awaiting : Option Int

namespace Machine

def parts (machine : Machine) : Parts where
  registers := machine.registers
  index := machine.index
  programCounter := machine.programCounter
  stack := machine.stack
  display := machine.display
  keypad := machine.keypad
  timers := machine.timers
  dialect := machine.dialect
  awaiting := machine.awaiting

def withParts (machine : Machine) (parts : Parts) : Machine :=
  { machine with
    registers := parts.registers
    index := parts.index
    programCounter := parts.programCounter
    stack := parts.stack
    display := parts.display
    keypad := parts.keypad
    timers := parts.timers
    dialect := parts.dialect
    awaiting := parts.awaiting }

/-- The machine with a byte stored in its memory. -/
def storing (machine : Machine) (address : Int) (byte : UInt8) : Machine :=
  { machine with memory := machine.memory.place address [byte] }

/-- The machine with a byte drawn from its random source. -/
def drawing (machine : Machine) : Machine :=
  { machine with random := machine.random.next.2 }

/-- The bytes that an instruction loads from memory. -/
def loaded (machine : Machine) (instruction : Instruction) : List UInt8 :=
  match instruction.operation with
  | .drawSprite => machine.memory.slice machine.index (machine.index + instruction.n)
  | .loadRegisters => machine.memory.slice machine.index (machine.index + (instruction.x + 1))
  | _ => []

end Machine

/-- A way of being alike that instructions cannot break. -/
structure Likeness where
  Alike : Machine → Machine → Prop
  parts : ∀ {machine other}, Alike machine other → other.parts = machine.parts
  size : ∀ {machine other}, Alike machine other → other.memory.size = machine.memory.size
  byte : ∀ {machine other}, Alike machine other →
    other.random.next.1 = machine.random.next.1
  changed : ∀ {machine other}, Alike machine other → ∀ parts,
    Alike (machine.withParts parts) (other.withParts parts)
  stored : ∀ {machine other}, Alike machine other → ∀ address byte,
    machine.memory.missing? address 1 = none →
      Alike (machine.storing address byte) (other.storing address byte)
  drawn : ∀ {machine other}, Alike machine other → Alike machine.drawing other.drawing

namespace Likeness

variable {α β : Type} {likeness : Likeness} {machine other : Machine}
  {routine : Routine Machine α} {next : α → Routine Machine β}

/-- Two results are the same and leave machines that are alike. -/
inductive Meets (likeness : Likeness) :
    EStateM.Result Trap Machine α → EStateM.Result Trap Machine α → Prop
  | ok (value : α) {after after' : Machine} (alike : likeness.Alike after after') :
      Meets likeness (.ok value after) (.ok value after')
  | error (trap : Trap) {after after' : Machine} (alike : likeness.Alike after after') :
      Meets likeness (.error trap after) (.error trap after')

/-- A routine does the same to machines that are alike. -/
def Keeps (likeness : Likeness) (routine : Routine Machine α) : Prop :=
  ∀ machine other, likeness.Alike machine other →
    likeness.Meets (routine machine) (routine other)

/-! ### How routines are put together -/

theorem keeps_pure (value : α) : likeness.Keeps (pure value) :=
  fun _ _ alike => .ok value alike

theorem keeps_demand (result : Except Trap α) : likeness.Keeps (demand result) := by
  intro machine other alike
  cases result with
  | ok value => exact .ok value alike
  | error trap => exact .error trap alike

theorem Meets.bind (first : likeness.Meets (routine machine) (routine other))
    (rest : ∀ value, likeness.Keeps (next value)) :
    likeness.Meets ((routine >>= next) machine) ((routine >>= next) other) := by
  rw [Routine.bind_apply, Routine.bind_apply]
  generalize routine machine = result, routine other = result' at first
  cases first with
  | ok value alike => exact rest value _ _ alike
  | error trap alike => exact .error trap alike

theorem Keeps.bind (first : likeness.Keeps routine) (rest : ∀ value, likeness.Keeps (next value)) :
    likeness.Keeps (routine >>= next) :=
  fun machine other alike => (first machine other alike).bind rest

/-- A look at the parts. -/
theorem keeps_look (seeing : Parts → Routine Machine α)
    (rest : ∀ parts, likeness.Keeps (seeing parts)) :
    likeness.Keeps (get >>= fun machine => seeing machine.parts) := by
  intro machine other alike
  show likeness.Meets (seeing machine.parts machine) (seeing other.parts other)
  rw [likeness.parts alike]
  exact rest machine.parts machine other alike

/-- A change that goes by the parts. -/
theorem changed_alike (alike : likeness.Alike machine other) (change : Parts → Parts) :
    likeness.Alike (machine.withParts (change machine.parts))
      (other.withParts (change other.parts)) := by
  rw [likeness.parts alike]
  exact likeness.changed alike _

theorem keeps_change (change : Parts → Parts) :
    likeness.Keeps (modify fun machine => machine.withParts (change machine.parts)) := by
  intro machine other alike
  exact .ok PUnit.unit (changed_alike alike change)

theorem keeps_ite {condition : Bool} {routine' : Routine Machine α}
    (holds : likeness.Keeps routine) (fails : likeness.Keeps routine') :
    likeness.Keeps (if condition then routine else routine') := by
  cases condition
  · exact fails
  · exact holds

/-! ### Parts of the machine -/

section

open Machine

theorem keeps_readRegister (number : Int) : likeness.Keeps (readRegister number) :=
  keeps_look (fun parts => demand (parts.registers.read number)) fun _ => keeps_demand _

theorem keeps_onRegisters (action : Registers → Except Trap Registers) :
    likeness.Keeps (onRegisters action) :=
  keeps_look (fun parts => demand (action parts.registers) >>= fun registers =>
      modify fun machine => { machine with registers := registers }) fun _ =>
    (keeps_demand _).bind fun registers =>
      keeps_change fun parts => { parts with registers := registers }

theorem keeps_storeRegister (number : Int) (byte : UInt8) :
    likeness.Keeps (storeRegister number byte) :=
  keeps_onRegisters _

theorem keeps_setFlag (byte : UInt8) : likeness.Keeps (setFlag byte) :=
  keeps_change fun parts => { parts with registers := parts.registers.set Registers.flag byte }

theorem keeps_setIndex (address : Int) : likeness.Keeps (setIndex address) :=
  keeps_change fun parts => { parts with index := address }

theorem keeps_moveIndex (distance : Int) : likeness.Keeps (moveIndex distance) :=
  keeps_change fun parts => { parts with index := min (parts.index + distance) Layout.indexTop }

theorem keeps_onDisplay (routine : Routine Display α) : likeness.Keeps (onDisplay routine) := by
  intro machine other alike
  have same : other.display = machine.display := congrArg Parts.display (likeness.parts alike)
  simp only [onDisplay, Routine.onPart, same]
  cases routine machine.display with
  | ok value display =>
    exact .ok value (changed_alike alike fun parts => { parts with display := display })
  | error trap display =>
    exact .error trap (changed_alike alike fun parts => { parts with display := display })

theorem keeps_advance (notes : List Effect) : likeness.Keeps (advance notes) :=
  keeps_look (fun parts => pure (Completion.mk (parts.programCounter + 2) notes))
    fun _ => keeps_pure _

/-! ### Memory -/

theorem check_alike (alike : likeness.Alike machine other) (location count : Int) :
    other.memory.check location count = machine.memory.check location count := by
  unfold Memory.check
  rw [likeness.size alike]

theorem index_alike (alike : likeness.Alike machine other) : other.index = machine.index :=
  congrArg Parts.index (likeness.parts alike)

theorem keeps_storeByte (address : Int) (byte : UInt8) :
    likeness.Keeps (storeByte address byte) := by
  intro machine other alike
  have same := check_alike alike address 1
  simp only [storeByte, onMemory, Routine.bind_apply, Routine.get_apply, Routine.demand_apply,
    Memory.store, same]
  cases missing : machine.memory.missing? address 1 with
  | none =>
    rw [Memory.check_of_present missing]
    exact .ok _ (likeness.stored alike address byte missing)
  | some place =>
    rw [Memory.check_of_missing missing]
    exact .error _ alike

/-- What follows once a number of bytes are known to lie at the index. -/
theorem keeps_checked (count : Int) (rest : Int → Routine Machine α)
    (keeps : ∀ index, likeness.Keeps (rest index)) :
    likeness.Keeps (get >>= fun machine =>
      demand (machine.memory.check machine.index count) >>= fun _ => rest machine.index) := by
  intro machine other alike
  have goesOn := (keeps_demand (machine.memory.check machine.index count)).bind fun _ =>
    keeps machine.index
  show likeness.Meets _
    ((demand (other.memory.check other.index count) >>= fun _ => rest other.index) other)
  rw [index_alike alike, check_alike alike]
  exact goesOn machine other alike

/-- What follows once a block has been read at the index, if the same block lies there. -/
theorem meets_loading (alike : likeness.Alike machine other) (count : Int)
    (same : other.memory.slice other.index (other.index + count) =
      machine.memory.slice machine.index (machine.index + count))
    {rest : List UInt8 → Routine Machine α} (keeps : ∀ block, likeness.Keeps (rest block)) :
    likeness.Meets
      ((get >>= fun machine => demand (machine.memory.readBlock machine.index count) >>= rest)
        machine)
      ((get >>= fun machine => demand (machine.memory.readBlock machine.index count) >>= rest)
        other) := by
  have goesOn := (keeps_demand (machine.memory.readBlock machine.index count)).bind keeps
  have read : other.memory.readBlock other.index count =
      machine.memory.readBlock machine.index count := by
    unfold Memory.readBlock
    rw [same, index_alike alike, check_alike alike]
  show likeness.Meets _ ((demand (other.memory.readBlock other.index count) >>= rest) other)
  rw [read]
  exact goesOn machine other alike

/-! ### Operations -/

theorem keeps_jumpTo (address : Int) : likeness.Keeps (jumpTo address) :=
  (keeps_demand _).bind fun _ => keeps_pure _

theorem keeps_skipWhen (condition : Bool) : likeness.Keeps (skipWhen condition) :=
  keeps_ite (keeps_look (fun parts => jumpTo (parts.programCounter + 4)) fun _ => keeps_jumpTo _)
    (keeps_advance _)

theorem keeps_call (target : Int) : likeness.Keeps (call target) := by
  refine (keeps_demand _).bind fun _ machine other alike => ?_
  have stack : other.stack = machine.stack := congrArg Parts.stack (likeness.parts alike)
  have here : other.programCounter = machine.programCounter :=
    congrArg Parts.programCounter (likeness.parts alike)
  have push : other.stack.push (other.programCounter + 2) =
      machine.stack.push (machine.programCounter + 2) := by rw [stack, here]
  simp only [Routine.bind_apply, Routine.get_apply, Routine.demand_apply, push]
  cases machine.stack.push (machine.programCounter + 2) with
  | ok stack => exact .ok _ (changed_alike alike fun parts => { parts with stack := stack })
  | error trap => exact .error trap alike

theorem keeps_returnFromCall : likeness.Keeps returnFromCall := by
  refine keeps_look (fun parts => demand parts.stack.peek >>= fun address =>
      demand (checkProgramCounter address) >>= fun _ => get >>= fun machine =>
        demand machine.stack.pop >>= fun popped =>
          set { machine with stack := popped.2 } >>= fun _ =>
            pure (Completion.mk popped.1 [])) fun _ =>
    (keeps_demand _).bind fun _ => (keeps_demand _).bind fun _ machine other alike => ?_
  have stack : other.stack = machine.stack := congrArg Parts.stack (likeness.parts alike)
  simp only [Routine.bind_apply, Routine.get_apply, Routine.demand_apply, stack]
  rcases machine.stack.pop with trap | ⟨address, stack⟩
  · exact .error trap alike
  · exact .ok _ (changed_alike alike fun parts => { parts with stack := stack })

theorem keeps_jumpOffset (x target : Int) : likeness.Keeps (jumpOffset x target) :=
  keeps_look (fun parts => readRegister (if parts.dialect.offsetsByAddress then x else 0) >>=
      fun offset => jumpTo (offset.toNat + target)) fun _ =>
    (keeps_readRegister _).bind fun _ => keeps_jumpTo _

theorem keeps_skipOnByte (wanted : Bool) (x byte : Int) :
    likeness.Keeps (skipOnByte wanted x byte) :=
  (keeps_readRegister _).bind fun _ => keeps_skipWhen _

theorem keeps_skipOnRegister (wanted : Bool) (x y : Int) :
    likeness.Keeps (skipOnRegister wanted x y) :=
  (keeps_readRegister _).bind fun _ => (keeps_readRegister _).bind fun _ => keeps_skipWhen _

theorem keeps_skipOnKey (wanted : Bool) (x : Int) : likeness.Keeps (skipOnKey wanted x) :=
  (keeps_readRegister _).bind fun key =>
    keeps_look (fun parts => skipWhen (parts.keypad.isHeld key.toNat == wanted)) fun _ =>
      keeps_skipWhen _

theorem keeps_loadByte (x value : Int) : likeness.Keeps (loadByte x value) :=
  (keeps_onRegisters _).bind fun _ => keeps_advance _

theorem keeps_addByte (x value : Int) : likeness.Keeps (addByte x value) :=
  (keeps_readRegister _).bind fun _ => (keeps_storeRegister _ _).bind fun _ => keeps_advance _

theorem keeps_copyRegister (x y : Int) : likeness.Keeps (copyRegister x y) :=
  (keeps_readRegister _).bind fun _ => (keeps_storeRegister _ _).bind fun _ => keeps_advance _

theorem keeps_bitwise (combine : UInt8 → UInt8 → UInt8) (x y : Int) :
    likeness.Keeps (bitwise combine x y) :=
  (keeps_readRegister _).bind fun _ => (keeps_readRegister _).bind fun _ =>
    (keeps_storeRegister _ _).bind fun _ =>
      keeps_look (fun parts => do
        if parts.dialect.clearsFlag then setFlag 0
        advance []) fun _ =>
          keeps_ite ((keeps_setFlag _).bind fun _ => keeps_advance _) (keeps_advance _)

theorem keeps_storeFlagged (x : Int) (result : UInt8) (flag : Bool) :
    likeness.Keeps (storeFlagged x result flag) :=
  (keeps_storeRegister _ _).bind fun _ => (keeps_setFlag _).bind fun _ => keeps_advance _

theorem keeps_addRegister (x y : Int) : likeness.Keeps (addRegister x y) :=
  (keeps_readRegister _).bind fun _ => (keeps_readRegister _).bind fun _ =>
    keeps_storeFlagged _ _ _

theorem keeps_subtract (x minuend subtrahend : Int) :
    likeness.Keeps (subtract x minuend subtrahend) :=
  (keeps_readRegister _).bind fun _ => (keeps_readRegister _).bind fun _ =>
    keeps_storeFlagged _ _ _

theorem keeps_shiftOperand (x y : Int) : likeness.Keeps (shiftOperand x y) :=
  keeps_look (fun parts => readRegister (if parts.dialect.shiftsInPlace then x else y)) fun _ =>
    keeps_readRegister _

theorem keeps_shiftRight (x y : Int) : likeness.Keeps (shiftRight x y) :=
  (keeps_shiftOperand _ _).bind fun _ => keeps_storeFlagged _ _ _

theorem keeps_shiftLeft (x y : Int) : likeness.Keeps (shiftLeft x y) :=
  (keeps_shiftOperand _ _).bind fun _ => keeps_storeFlagged _ _ _

/-- The same byte is drawn from either source. -/
theorem keeps_randomByte (x mask : Int) : likeness.Keeps (randomByte x mask) := by
  intro machine other alike
  have goesOn : likeness.Keeps (storeRegister x (machine.random.next.1 &&& Byte.low mask) >>=
      fun _ => advance []) := (keeps_storeRegister _ _).bind fun _ => keeps_advance _
  show likeness.Meets _ ((storeRegister x (other.random.next.1 &&& Byte.low mask) >>=
    fun _ => advance []) other.drawing)
  rw [likeness.byte alike]
  exact goesOn machine.drawing other.drawing (likeness.drawn alike)

theorem keeps_awaitKey (x : Int) : likeness.Keeps (awaitKey x) :=
  (keeps_change fun parts =>
      { parts with keypad := parts.keypad.clearLatch, awaiting := some x }).bind fun _ =>
    keeps_look (fun parts => pure (Completion.mk parts.programCounter [])) fun _ => keeps_pure _

theorem keeps_readDelay (x : Int) : likeness.Keeps (readDelay x) :=
  keeps_look (fun parts => storeRegister x parts.timers.delay >>= fun _ => advance []) fun _ =>
    (keeps_storeRegister _ _).bind fun _ => keeps_advance _

theorem keeps_setDelay (x : Int) : likeness.Keeps (setDelay x) :=
  (keeps_readRegister _).bind fun value =>
    (keeps_change fun parts =>
      { parts with timers := parts.timers.setDelay value.toNat }).bind fun _ => keeps_advance _

theorem keeps_setSound (x : Int) : likeness.Keeps (setSound x) :=
  (keeps_readRegister _).bind fun value =>
    (keeps_change fun parts =>
      { parts with timers := parts.timers.setSound value.toNat }).bind fun _ => keeps_advance _

theorem keeps_addIndex (x : Int) : likeness.Keeps (addIndex x) :=
  (keeps_readRegister _).bind fun _ => (keeps_moveIndex _).bind fun _ => keeps_advance _

theorem keeps_pointAtGlyph (x : Int) : likeness.Keeps (pointAtGlyph x) :=
  (keeps_readRegister _).bind fun _ => (keeps_setIndex _).bind fun _ => keeps_advance _

theorem keeps_storeDecimal (x : Int) : likeness.Keeps (storeDecimal x) :=
  (keeps_readRegister _).bind fun value => keeps_checked 3
    (fun base => do
      let hundreds ← storeByte base (value / 100)
      let tens ← storeByte (base + 1) (value / 10 % 10)
      let units ← storeByte (base + 2) (value % 10)
      advance [hundreds, tens, units])
    fun _ => (keeps_storeByte _ _).bind fun _ => (keeps_storeByte _ _).bind fun _ =>
      (keeps_storeByte _ _).bind fun _ => keeps_advance _

theorem keeps_storeEach (base : Int) (numbers : List Nat) :
    likeness.Keeps (storeEach base numbers) := by
  induction numbers with
  | nil => exact keeps_pure _
  | cons number rest inductionHypothesis =>
    exact (keeps_readRegister _).bind fun _ => (keeps_storeByte _ _).bind fun _ =>
      inductionHypothesis.bind fun _ => keeps_pure _

theorem keeps_passRegisters (x : Int) : likeness.Keeps (passRegisters x) :=
  keeps_look (fun parts => if parts.dialect.movesIndex then moveIndex (x + 1) else pure ⟨⟩)
    fun _ => keeps_ite (keeps_moveIndex _) (keeps_pure _)

theorem keeps_storeRegisters (x : Int) : likeness.Keeps (storeRegisters x) :=
  keeps_checked (x + 1)
    (fun base => do
      let notes ← storeEach base (List.range (x + 1).toNat)
      passRegisters x
      advance notes)
    fun _ => (keeps_storeEach _ _).bind fun _ => (keeps_passRegisters _).bind fun _ =>
      keeps_advance _

theorem meets_drawSprite (alike : likeness.Alike machine other) (x y rows : Int)
    (same : other.memory.slice other.index (other.index + rows) =
      machine.memory.slice machine.index (machine.index + rows)) :
    likeness.Meets (drawSprite x y rows machine) (drawSprite x y rows other) :=
  meets_loading alike rows same fun _ => (keeps_readRegister _).bind fun _ =>
    (keeps_readRegister _).bind fun _ => (keeps_onDisplay _).bind fun _ =>
      (keeps_setFlag _).bind fun _ => keeps_advance _

theorem meets_loadRegisters (alike : likeness.Alike machine other) (x : Int)
    (same : other.memory.slice other.index (other.index + (x + 1)) =
      machine.memory.slice machine.index (machine.index + (x + 1))) :
    likeness.Meets (loadRegisters x machine) (loadRegisters x other) :=
  meets_loading alike (x + 1) same fun _ => (keeps_onRegisters _).bind fun _ =>
    (keeps_passRegisters _).bind fun _ => keeps_advance _

/-- An instruction does the same to machines that are alike, if it loads the same. -/
theorem meets_perform (alike : likeness.Alike machine other) (instruction : Instruction)
    (same : other.loaded instruction = machine.loaded instruction) :
    likeness.Meets (perform instruction machine) (perform instruction other) := by
  obtain ⟨operation, opcode, x, y, n, kk, nnn⟩ := instruction
  have keeps {routine : Routine Machine Completion} (keeps : likeness.Keeps routine) :
      likeness.Meets (routine machine) (routine other) := keeps machine other alike
  cases operation with
  | clearDisplay => exact keeps ((keeps_onDisplay _).bind fun _ => keeps_advance _)
  | returnFromCall => exact keeps keeps_returnFromCall
  | machineCode => exact keeps (keeps_advance _)
  | jump => exact keeps (keeps_jumpTo _)
  | call => exact keeps (keeps_call _)
  | skipIfByte | skipUnlessByte => exact keeps (keeps_skipOnByte _ _ _)
  | skipIfEqual | skipUnlessEqual => exact keeps (keeps_skipOnRegister _ _ _)
  | loadByte => exact keeps (keeps_loadByte _ _)
  | addByte => exact keeps (keeps_addByte _ _)
  | copyRegister => exact keeps (keeps_copyRegister _ _)
  | bitOr | bitAnd | bitXor => exact keeps (keeps_bitwise _ _ _)
  | addRegister => exact keeps (keeps_addRegister _ _)
  | subtract | subtractFrom => exact keeps (keeps_subtract _ _ _)
  | shiftRight => exact keeps (keeps_shiftRight _ _)
  | shiftLeft => exact keeps (keeps_shiftLeft _ _)
  | loadIndex => exact keeps ((keeps_setIndex _).bind fun _ => keeps_advance _)
  | jumpOffset => exact keeps (keeps_jumpOffset _ _)
  | randomByte => exact keeps (keeps_randomByte _ _)
  | drawSprite => exact meets_drawSprite alike x y n same
  | skipIfHeld | skipUnlessHeld => exact keeps (keeps_skipOnKey _ _)
  | readDelay => exact keeps (keeps_readDelay _)
  | awaitKey => exact keeps (keeps_awaitKey _)
  | setDelay => exact keeps (keeps_setDelay _)
  | setSound => exact keeps (keeps_setSound _)
  | addIndex => exact keeps (keeps_addIndex _)
  | pointAtGlyph => exact keeps (keeps_pointAtGlyph _)
  | storeDecimal => exact keeps (keeps_storeDecimal _)
  | storeRegisters => exact keeps (keeps_storeRegisters _)
  | loadRegisters => exact meets_loadRegisters alike x same

end

end Likeness

end Chip8
