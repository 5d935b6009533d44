/-
This file proves that the machine carries out an instruction exactly as the
instruction means.

There are three ways it can come out. Nothing stands in the way: then the
machine is left as the instruction means, part by part. A fault stands in the
way: then the machine is refused with that fault and is left untouched. Or the
operands do not fit: a register that does not exist, a value that is no byte, a
block of the wrong length; that happens to no instruction read from a word. Only
in the last way can something be left half done, and then only in memory, whose
size stays what it is, or in the random source.
-/

import Chip8.Proofs.Meaning

namespace Chip8

/-- A refusal of operands that no instruction read from a word has. -/
def Trap.isMisuse : Trap → Bool
  | .noSuchRegister _ | .notAByte | .lengthMismatch => true
  | _ => false

namespace Machine

/-- What can come of an instruction: the value and the machine it means, a halt at the fault
that stands in the way, or a refusal of its operands. -/
inductive Outcome {α : Type} (machine : Machine) (instruction : Instruction)
    (obstacle : Option Fault) (value : α) (after : Machine) (halted : Fault → Machine) :
    EStateM.Result Trap Machine α → Prop
  | done (clear : obstacle = none) :
      Outcome machine instruction obstacle value after halted (.ok value after)
  | faulted (fault : Fault) (blocked : obstacle = some fault) :
      Outcome machine instruction obstacle value after halted (.error (.fault fault) (halted fault))
  | misused (trap : Trap) (memory : Memory) (random : RandomSource)
      (misuse : trap.isMisuse = true) (size : memory.size = machine.memory.size)
      (unfit : ¬ instruction.InRange) :
      Outcome machine instruction obstacle value after halted
        (.error trap { machine with memory := memory, random := random })

section

variable {machine : Machine} {instruction : Instruction}

/-! ### Looking up and storing -/

theorem readRegister_of_names {number : Int} (named : Registers.Names number) :
    readRegister number machine = .ok (machine.registers.value number) machine := by
  simp only [readRegister, Routine.bind_apply, Routine.get_apply, Routine.demand_apply,
    Registers.read_of_names _ named]

theorem readRegister_of_not_names {number : Int} (unnamed : ¬ Registers.Names number) :
    readRegister number machine = .error (.noSuchRegister number) machine := by
  simp only [readRegister, Routine.bind_apply, Routine.get_apply, Routine.demand_apply,
    Registers.read_of_not_names _ unnamed]

theorem storeRegister_of_names {number : Int} (named : Registers.Names number) (byte : UInt8) :
    storeRegister number byte machine =
      .ok () { machine with registers := machine.registers.assign number byte } := by
  simp only [storeRegister, onRegisters, Routine.bind_apply, Routine.get_apply,
    Routine.demand_apply, Registers.store_of_names _ named, Routine.modify_apply]

theorem storeRegister_of_not_names {number : Int} (unnamed : ¬ Registers.Names number)
    (byte : UInt8) :
    storeRegister number byte machine = .error (.noSuchRegister number) machine := by
  simp only [storeRegister, onRegisters, Routine.bind_apply, Routine.get_apply,
    Routine.demand_apply, Registers.store_of_not_names _ unnamed]

theorem checkProgramCounter_eq (address : Int) :
    checkProgramCounter address =
      match leaving? address with
      | some fault => .error (.fault fault)
      | none => .ok () := by
  unfold checkProgramCounter leaving?
  by_cases inside : Layout.InProgram address
  · rw [if_pos inside, if_pos inside]
  · rw [if_neg inside, if_neg inside]

theorem check_eq_missing? (count : Int) :
    machine.memory.check machine.index count =
      match machine.missing? count with
      | some fault => .error (.fault fault)
      | none => .ok () := by
  unfold missing?
  cases found : machine.memory.missing? machine.index count with
  | none => exact Memory.check_of_present found
  | some address => exact Memory.check_of_missing found

theorem readBlock_eq_missing? (count : Int) :
    machine.memory.readBlock machine.index count =
      match machine.missing? count with
      | some fault => .error (.fault fault)
      | none => .ok (machine.memory.slice machine.index (machine.index + count)) := by
  unfold missing?
  cases found : machine.memory.missing? machine.index count with
  | none => exact Memory.readBlock_of_present found
  | some address => exact Memory.readBlock_of_missing found

theorem memory_present {count : Int} (present : machine.missing? count = none) :
    machine.memory.missing? machine.index count = none := by
  unfold missing? at present
  exact Option.map_eq_none_iff.mp present

section

variable {α β : Type} {obstacle : Option Fault} {value : α} {after : Machine}
  {halted : Fault → Machine}

theorem Outcome.eq_ok {result : EStateM.Result Trap Machine α}
    (outcome : Outcome machine instruction obstacle value after halted result)
    (range : instruction.InRange) (clear : obstacle = none) : result = .ok value after := by
  cases outcome with
  | done => rfl
  | faulted fault blocked =>
    rw [clear] at blocked
    cases blocked
  | misused _ _ _ _ _ unfit => exact absurd range unfit

theorem Outcome.eq_error {result : EStateM.Result Trap Machine α}
    (outcome : Outcome machine instruction obstacle value after halted result)
    (range : instruction.InRange) {fault : Fault} (blocked : obstacle = some fault) :
    result = .error (.fault fault) (halted fault) := by
  cases outcome with
  | done clear =>
    rw [blocked] at clear
    cases clear
  | faulted other first =>
    rw [blocked] at first
    cases first
    rfl
  | misused _ _ _ _ _ unfit => exact absurd range unfit

/-- An operation refused for its operands before it changed anything. -/
theorem Outcome.unchanged (trap : Trap) (misuse : trap.isMisuse = true)
    (unfit : ¬ instruction.InRange) :
    Outcome machine instruction obstacle value after halted (.error trap machine) :=
  .misused trap machine.memory machine.random misuse rfl unfit

/-- An operation that begins by reading a register. -/
theorem Outcome.ofRead {number : Int} {next : UInt8 → Routine Machine α}
    (known : instruction.InRange → Registers.Names number)
    (rest : Registers.Names number → Outcome machine instruction obstacle value after halted
      (next (machine.registers.value number) machine)) :
    Outcome machine instruction obstacle value after halted
      ((readRegister number >>= next) machine) := by
  rw [Routine.bind_apply]
  by_cases named : Registers.Names number
  · rw [readRegister_of_names named]
    exact rest named
  · rw [readRegister_of_not_names named]
    exact .unchanged _ rfl fun range => named (known range)

/-- An operation that begins by storing a register. -/
theorem Outcome.ofStore {number : Int} {byte : UInt8} {next : Unit → Routine Machine α}
    (known : instruction.InRange → Registers.Names number)
    (rest : Outcome machine instruction obstacle value after halted
      (next () { machine with registers := machine.registers.assign number byte })) :
    Outcome machine instruction obstacle value after halted
      ((storeRegister number byte >>= next) machine) := by
  rw [Routine.bind_apply]
  by_cases named : Registers.Names number
  · rw [storeRegister_of_names named]
    exact rest
  · rw [storeRegister_of_not_names named]
    exact .unchanged _ rfl fun range => named (known range)

end

/-- What carrying out an operation comes to. -/
abbrev Performed (machine : Machine) (instruction : Instruction) (obstacle : Option Fault)
    (completion : Completion) (after : Machine) : EStateM.Result Trap Machine Completion → Prop :=
  Outcome machine instruction obstacle completion after fun _ => machine

/-! ### Jumps, calls and skips -/

theorem jumpTo_performed (address : Int) :
    Performed machine instruction (leaving? address) ⟨address, []⟩ machine
      (jumpTo address machine) := by
  unfold jumpTo
  rw [Routine.bind_apply, Routine.demand_apply, checkProgramCounter_eq]
  cases left : leaving? address with
  | none => exact .done rfl
  | some fault => exact .faulted fault rfl

theorem skipWhen_performed (condition : Bool) :
    Performed machine instruction
      (if condition then leaving? (machine.programCounter + 4) else none)
      ⟨machine.programCounter + (if condition then 4 else 2), []⟩ machine
      (skipWhen condition machine) := by
  cases condition with
  | false => exact .done rfl
  | true => exact jumpTo_performed (machine.programCounter + 4)

theorem call_performed (target : Int) :
    Performed machine instruction
      ((leaving? target).or
        (if machine.stack.isFull then some (.stackOverflow machine.stack.depth) else none))
      ⟨target, []⟩
      { machine with stack :=
        { machine.stack with entries := machine.stack.entries ++ [machine.programCounter + 2] } }
      (call target machine) := by
  unfold call
  rw [Routine.bind_apply, Routine.demand_apply, checkProgramCounter_eq]
  cases left : leaving? target with
  | some fault => exact .faulted fault rfl
  | none =>
    simp only [Routine.bind_apply, Routine.get_apply, Routine.demand_apply, CallStack.push]
    by_cases full : machine.stack.isFull = true
    · rw [if_pos full, if_pos full]
      exact .faulted _ rfl
    · rw [if_neg full, if_neg full]
      exact .done rfl

theorem returnFromCall_performed :
    Performed machine instruction
      (match machine.stack.entries.getLast? with
        | some address => leaving? address
        | none => some .stackUnderflow)
      ⟨machine.stack.entries.getLastD 0, []⟩
      { machine with stack :=
        { machine.stack with entries := machine.stack.entries.dropLast } }
      (returnFromCall machine) := by
  unfold returnFromCall
  rw [List.getLastD_eq_getLast?]
  cases newest : machine.stack.entries.getLast? with
  | none =>
    have peek : machine.stack.peek = .error (.fault .stackUnderflow) := by
      rw [CallStack.peek, newest]
      rfl
    simp only [Routine.bind_apply, Routine.get_apply, Routine.demand_apply, peek]
    exact .faulted _ rfl
  | some address =>
    have peek : machine.stack.peek = .ok address := by
      rw [CallStack.peek, newest]
      rfl
    have pop : machine.stack.pop =
        .ok (address, { machine.stack with entries := machine.stack.entries.dropLast }) := by
      rw [CallStack.pop, peek]
      rfl
    simp only [Routine.bind_apply, Routine.get_apply, Routine.demand_apply, peek,
      checkProgramCounter_eq]
    cases left : leaving? address with
    | some fault => exact .faulted fault rfl
    | none =>
      simp only [pop]
      exact .done rfl

theorem jumpOffset_performed (x address : Int)
    (known : instruction.InRange → Registers.Names x) :
    let target := (machine.registers.value
      (if machine.dialect.offsetsByAddress then x else 0)).toNat + address
    Performed machine instruction (leaving? target) ⟨target, []⟩ machine
      (jumpOffset x address machine) := by
  unfold jumpOffset
  rw [Routine.bind_apply, Routine.get_apply]
  refine .ofRead (fun range => ?_) fun _ => jumpTo_performed _
  by_cases offsets : machine.dialect.offsetsByAddress = true
  · rw [if_pos offsets]
    exact known range
  · rw [if_neg offsets]
    exact Registers.names_of_lt (by decide) (by decide)

theorem skipOnByte_performed {condition : Bool} (wanted : Bool) (x byte : Int)
    (known : instruction.InRange → Registers.Names x)
    (meets : ((((machine.registers.value x).toNat : Int) == byte) == wanted) = condition) :
    Performed machine instruction
      (if condition then leaving? (machine.programCounter + 4) else none)
      ⟨machine.programCounter + (if condition then 4 else 2), []⟩ machine
      (skipOnByte wanted x byte machine) := by
  refine .ofRead known fun _ => ?_
  rw [meets]
  exact skipWhen_performed condition

theorem skipOnRegister_performed {condition : Bool} (wanted : Bool) (x y : Int)
    (knownX : instruction.InRange → Registers.Names x)
    (knownY : instruction.InRange → Registers.Names y)
    (meets : ((machine.registers.value x == machine.registers.value y) == wanted) = condition) :
    Performed machine instruction
      (if condition then leaving? (machine.programCounter + 4) else none)
      ⟨machine.programCounter + (if condition then 4 else 2), []⟩ machine
      (skipOnRegister wanted x y machine) := by
  refine .ofRead knownX fun _ => .ofRead knownY fun _ => ?_
  rw [meets]
  exact skipWhen_performed condition

theorem skipOnKey_performed {condition : Bool} (wanted : Bool) (x : Int)
    (known : instruction.InRange → Registers.Names x)
    (meets :
      (machine.keypad.isHeld (machine.registers.value x).toNat == wanted) = condition) :
    Performed machine instruction
      (if condition then leaving? (machine.programCounter + 4) else none)
      ⟨machine.programCounter + (if condition then 4 else 2), []⟩ machine
      (skipOnKey wanted x machine) := by
  refine .ofRead known fun _ => ?_
  rw [Routine.bind_apply, Routine.get_apply]
  dsimp only
  rw [meets]
  exact skipWhen_performed condition

/-! ### Arithmetic -/

theorem loadByte_performed (x value : Int) (known : instruction.InRange → Registers.Names x)
    (fits : instruction.InRange → Byte.ofInt? value ≠ none) :
    Performed machine instruction none ⟨machine.programCounter + 2, []⟩
      { machine with registers := machine.registers.assign x (Byte.low value) }
      (loadByte x value machine) := by
  unfold loadByte onRegisters
  simp only [Routine.bind_apply, Routine.get_apply, Routine.demand_apply]
  by_cases named : Registers.Names x
  · rw [Registers.write_of_names _ named]
    cases byte : Byte.ofInt? value with
    | none => exact .unchanged _ rfl fun range => fits range byte
    | some low =>
      rw [← Byte.eq_low_of_ofInt? byte]
      exact .done rfl
  · rw [Registers.write_of_not_names _ named]
    exact .unchanged _ rfl fun range => named (known range)

theorem addByte_performed (x value : Int) (known : instruction.InRange → Registers.Names x) :
    Performed machine instruction none ⟨machine.programCounter + 2, []⟩
      { machine with registers :=
        machine.registers.assign x (machine.registers.value x + Byte.low value) }
      (addByte x value machine) :=
  .ofRead known fun named => .ofStore (fun _ => named) (.done rfl)

theorem copyRegister_performed (x y : Int) (knownX : instruction.InRange → Registers.Names x)
    (knownY : instruction.InRange → Registers.Names y) :
    Performed machine instruction none ⟨machine.programCounter + 2, []⟩
      { machine with registers := machine.registers.assign x (machine.registers.value y) }
      (copyRegister x y machine) :=
  .ofRead knownY fun _ => .ofStore knownX (.done rfl)

theorem bitwise_performed (combine : UInt8 → UInt8 → UInt8) (x y : Int)
    (knownX : instruction.InRange → Registers.Names x)
    (knownY : instruction.InRange → Registers.Names y) :
    let combined := machine.registers.assign x
      (combine (machine.registers.value x) (machine.registers.value y))
    Performed machine instruction none ⟨machine.programCounter + 2, []⟩
      { machine with registers :=
        if machine.dialect.clearsFlag then combined.set Registers.flag 0 else combined }
      (bitwise combine x y machine) := by
  refine .ofRead knownX fun named => .ofRead knownY fun _ => .ofStore (fun _ => named) ?_
  simp only [Routine.bind_apply, Routine.get_apply]
  by_cases clears : machine.dialect.clearsFlag = true
  · rw [if_pos clears, if_pos clears]
    exact .done rfl
  · rw [if_neg clears, if_neg clears]
    exact .done rfl

theorem storeFlagged_performed (x : Int) (result : UInt8) (flag : Bool)
    (known : instruction.InRange → Registers.Names x) :
    Performed machine instruction none ⟨machine.programCounter + 2, []⟩
      { machine with registers :=
        (machine.registers.assign x result).set Registers.flag flag.toUInt8 }
      (storeFlagged x result flag machine) :=
  .ofStore known (.done rfl)

theorem addRegister_performed (x y : Int) (knownX : instruction.InRange → Registers.Names x)
    (knownY : instruction.InRange → Registers.Names y) :
    let first := machine.registers.value x
    let second := machine.registers.value y
    let carry := decide (255 < first.toNat + second.toNat)
    Performed machine instruction none ⟨machine.programCounter + 2, []⟩
      { machine with registers :=
        (machine.registers.assign x (first + second)).set Registers.flag carry.toUInt8 }
      (addRegister x y machine) :=
  .ofRead knownX fun named => .ofRead knownY fun _ => storeFlagged_performed _ _ _ fun _ => named

theorem subtract_performed (x minuend subtrahend : Int)
    (knownX : instruction.InRange → Registers.Names x)
    (knownMinuend : instruction.InRange → Registers.Names minuend)
    (knownSubtrahend : instruction.InRange → Registers.Names subtrahend) :
    let first := machine.registers.value minuend
    let second := machine.registers.value subtrahend
    let noBorrow := decide (second.toNat ≤ first.toNat)
    Performed machine instruction none ⟨machine.programCounter + 2, []⟩
      { machine with registers :=
        (machine.registers.assign x (first - second)).set Registers.flag noBorrow.toUInt8 }
      (subtract x minuend subtrahend machine) :=
  .ofRead knownMinuend fun _ => .ofRead knownSubtrahend fun _ => storeFlagged_performed _ _ _ knownX

/-- An operation that begins with the operand of a shift. -/
theorem Outcome.ofShift {x y : Int} {next : UInt8 → Routine Machine Completion}
    {obstacle : Option Fault} {completion : Completion} {after : Machine}
    (knownX : instruction.InRange → Registers.Names x)
    (knownY : instruction.InRange → Registers.Names y)
    (rest : Performed machine instruction obstacle completion after
      (next (machine.registers.value (if machine.dialect.shiftsInPlace then x else y)) machine)) :
    Performed machine instruction obstacle completion after
      ((shiftOperand x y >>= next) machine) := by
  have known : instruction.InRange →
      Registers.Names (if machine.dialect.shiftsInPlace then x else y) := by
    intro range
    cases machine.dialect.shiftsInPlace with
    | false => exact knownY range
    | true => exact knownX range
  exact .ofRead known fun _ => rest

theorem randomByte_performed (x mask : Int) (known : instruction.InRange → Registers.Names x) :
    Performed machine instruction none ⟨machine.programCounter + 2, []⟩
      { machine with
        registers := machine.registers.assign x (machine.random.next.1 &&& Byte.low mask)
        random := machine.random.next.2 }
      (randomByte x mask machine) := by
  unfold randomByte
  simp only [Routine.bind_apply, Routine.get_apply, Routine.set_apply]
  by_cases named : Registers.Names x
  · rw [storeRegister_of_names named]
    exact .done rfl
  · rw [storeRegister_of_not_names named]
    exact .misused _ machine.memory machine.random.next.2 rfl rfl
      fun range => named (known range)

/-! ### Display and timers -/

theorem onDisplay_apply {α : Type} {routine : Routine Display α} {value : α} {after : Display}
    (run : routine machine.display = .ok value after) :
    onDisplay routine machine = .ok value { machine with display := after } := by
  simp only [onDisplay, Routine.onPart, run]

theorem drawSprite_performed (proper : machine.display.Proper) (x y rows : Int)
    (knownX : instruction.InRange → Registers.Names x)
    (knownY : instruction.InRange → Registers.Names y) :
    let drawn := machine.display.drawn (machine.registers.value x).toNat
      (machine.registers.value y).toNat
      (machine.memory.slice machine.index (machine.index + rows))
    Performed machine instruction (machine.missing? rows)
      ⟨machine.programCounter + 2, [.displayDrawn drawn.1]⟩
      { machine with
        registers := machine.registers.set Registers.flag drawn.1.toUInt8
        display := drawn.2 }
      (drawSprite x y rows machine) := by
  show Performed machine instruction _ _ _
    ((demand (machine.memory.readBlock machine.index rows) >>= _) machine)
  rw [Routine.bind_apply, Routine.demand_apply, readBlock_eq_missing?]
  cases found : machine.missing? rows with
  | some fault => exact .faulted fault rfl
  | none =>
    refine .ofRead knownX fun _ => .ofRead knownY fun _ => ?_
    rw [Routine.bind_apply, onDisplay_apply (proper.draw_apply _ _ _).1]
    exact .done rfl

theorem readDelay_performed (x : Int) (known : instruction.InRange → Registers.Names x) :
    Performed machine instruction none ⟨machine.programCounter + 2, []⟩
      { machine with registers := machine.registers.assign x machine.timers.delay }
      (readDelay x machine) := by
  unfold readDelay
  rw [Routine.bind_apply, Routine.get_apply]
  exact .ofStore known (.done rfl)

/-! ### Index and memory -/

theorem passRegisters_apply (x : Int) :
    passRegisters x machine =
      .ok () { machine with index :=
        if machine.dialect.movesIndex then min (machine.index + (x + 1)) Layout.indexTop
        else machine.index } := by
  unfold passRegisters
  simp only [Routine.bind_apply, Routine.get_apply]
  by_cases moves : machine.dialect.movesIndex = true
  · rw [if_pos moves, if_pos moves]
    rfl
  · rw [if_neg moves, if_neg moves]
    rfl

theorem storeByte_apply {address : Int} (byte : UInt8)
    (present : machine.memory.missing? address 1 = none) :
    storeByte address byte machine =
      .ok (.stored address byte)
        { machine with memory := machine.memory.place address [byte] } := by
  simp only [storeByte, onMemory, Routine.bind_apply, Routine.get_apply, Routine.demand_apply,
    Memory.store_of_present byte present, Routine.modify_apply, Routine.pure_apply]

theorem storeDecimal_performed (x : Int) (known : instruction.InRange → Registers.Names x) :
    let digits := decimals (machine.registers.value x)
    Performed machine instruction (machine.missing? 3)
      ⟨machine.programCounter + 2, storedNotes machine.index digits⟩
      { machine with memory := machine.memory.place machine.index digits }
      (storeDecimal x machine) := by
  refine .ofRead known fun _ => ?_
  show Performed machine instruction _ _ _
    ((demand (machine.memory.check machine.index 3) >>= _) machine)
  rw [Routine.bind_apply, Routine.demand_apply, check_eq_missing?]
  cases found : machine.missing? 3 with
  | some fault => exact .faulted fault rfl
  | none =>
    obtain ⟨nonneg, inside⟩ := Memory.missing?_eq_none_iff.mp (memory_present found)
    have next : machine.index + 1 + 1 = machine.index + 2 := by omega
    simp only [decimals, storedNotes]
    rw [Memory.place_cons _ nonneg, Memory.place_cons _ (by omega), next]
    simp only [Routine.bind_apply]
    rw [storeByte_apply _ (Memory.missing?_eq_none_iff.mpr (by omega))]
    dsimp only
    rw [storeByte_apply _ (Memory.missing?_eq_none_iff.mpr
      (by simp only [Memory.size_place]; omega))]
    dsimp only
    rw [storeByte_apply _ (Memory.missing?_eq_none_iff.mpr
      (by simp only [Memory.size_place]; omega))]
    exact .done rfl

/-- Registers stored one after the other leave their block, unless one of them does not exist. -/
theorem storeEach_cases (machine : Machine) (base : Int) (start count : Nat) (nonneg : 0 ≤ base)
    (inside : 0 < count → base + start + count ≤ machine.memory.size) :
    storeEach base (List.range' start count) machine =
        .ok (storedNotes (base + start) (machine.registers.block start count))
          { machine with
            memory := machine.memory.place (base + start) (machine.registers.block start count) } ∨
      ∃ (number : Nat) (memory : Memory), number < start + count ∧
        ¬ Registers.Names number ∧ memory.size = machine.memory.size ∧
        storeEach base (List.range' start count) machine =
          .error (.noSuchRegister number) { machine with memory := memory } := by
  induction count generalizing start machine with
  | zero => exact .inl rfl
  | succ count inductionHypothesis =>
    have room := inside (Nat.succ_pos count)
    rw [List.range'_succ, storeEach, Routine.bind_apply]
    by_cases named : Registers.Names start
    · have present : machine.memory.missing? (base + start) 1 = none :=
        Memory.missing?_eq_none_iff.mpr (by omega)
      have next : base + start + 1 = base + (start + 1 : Nat) := by omega
      have laid := Memory.place_cons machine.memory (show 0 ≤ base + (start : Int) by omega)
        (machine.registers.value start) (machine.registers.block (start + 1) count)
      rw [readRegister_of_names named]
      simp only [Routine.bind_apply]
      rw [storeByte_apply _ present, Registers.block_succ, laid, storedNotes, next]
      dsimp only
      rcases inductionHypothesis { machine with
          memory := machine.memory.place (base + start) [machine.registers.value start] }
          (start + 1) (fun _ => by simp only [Memory.size_place]; omega) with
        stored | ⟨number, memory, bound, unnamed, size, refused⟩
      · rw [stored]
        exact .inl rfl
      · rw [refused]
        exact .inr ⟨number, memory, by omega, unnamed, size.trans (Memory.size_place _ _ _), rfl⟩
    · rw [readRegister_of_not_names named]
      exact .inr ⟨start, machine.memory, by omega, named, rfl, rfl⟩

theorem storeRegisters_performed (known : instruction.InRange → instruction.x < 16) :
    let x := instruction.x
    let block := machine.registers.block 0 (x + 1).toNat
    Performed machine instruction (machine.missing? (x + 1))
      ⟨machine.programCounter + 2, storedNotes machine.index block⟩
      { machine with
        index := if machine.dialect.movesIndex then min (machine.index + (x + 1)) Layout.indexTop
          else machine.index
        memory := machine.memory.place machine.index block }
      (storeRegisters x machine) := by
  unfold storeRegisters
  simp only [Routine.bind_apply, Routine.get_apply, Routine.demand_apply, check_eq_missing?]
  cases found : machine.missing? (instruction.x + 1) with
  | some fault => exact .faulted fault rfl
  | none =>
    obtain ⟨nonneg, inside⟩ := Memory.missing?_eq_none_iff.mp (memory_present found)
    dsimp only
    rw [List.range_eq_range']
    rcases storeEach_cases machine machine.index 0 (instruction.x + 1).toNat nonneg (by omega) with
      stored | ⟨number, memory, bound, unnamed, size, refused⟩
    · rw [Int.natCast_zero, Int.add_zero] at stored
      rw [stored]
      dsimp only
      rw [passRegisters_apply]
      exact .done rfl
    · rw [refused]
      refine .misused _ memory machine.random rfl size fun range => ?_
      have small := known range
      exact unnamed (Registers.names_of_lt (by omega) (by omega))

theorem loadRegisters_performed
    (known : instruction.InRange → 0 ≤ instruction.x ∧ instruction.x < 16) :
    let x := instruction.x
    Performed machine instruction (machine.missing? (x + 1)) ⟨machine.programCounter + 2, []⟩
      { machine with
        registers := machine.registers.place 0
          (machine.memory.slice machine.index (machine.index + (x + 1)))
        index := if machine.dialect.movesIndex then min (machine.index + (x + 1)) Layout.indexTop
          else machine.index }
      (loadRegisters x machine) := by
  unfold loadRegisters onRegisters
  simp only [Routine.bind_apply, Routine.get_apply, Routine.demand_apply, readBlock_eq_missing?]
  cases found : machine.missing? (instruction.x + 1) with
  | some fault => exact .faulted fault rfl
  | none =>
    dsimp only
    rw [Registers.loadLeading]
    by_cases fits : (machine.memory.slice machine.index
        (machine.index + (instruction.x + 1))).length = Registers.leading (instruction.x + 1)
    · rw [if_pos fits]
      simp only [Routine.modify_apply, passRegisters_apply]
      exact .done rfl
    · rw [if_neg fits]
      refine .unchanged _ rfl fun range => fits ?_
      obtain ⟨nonneg, small⟩ := known range
      rw [Memory.length_slice (by omega) (memory_present found),
        show instruction.x + 1 = ((instruction.x + 1).toNat : Int) by omega,
        Registers.leading_of_le _ (by omega), Int.toNat_natCast]

/-! ### All operations -/

/-- Every operation is carried out as it is meant. Only drawing needs a proper display. -/
theorem perform_outcome (instruction : Instruction)
    (proper : instruction.operation = .drawSprite → machine.display.Proper) :
    Performed machine instruction (machine.hindrance? instruction)
      ⟨machine.destination instruction, machine.notes instruction⟩ (machine.after instruction)
      (perform instruction machine) := by
  obtain ⟨operation, opcode, x, y, n, kk, nnn⟩ := instruction
  have namesX : Instruction.InRange ⟨operation, opcode, x, y, n, kk, nnn⟩ → Registers.Names x :=
    Instruction.InRange.names_x
  have namesY : Instruction.InRange ⟨operation, opcode, x, y, n, kk, nnn⟩ → Registers.Names y :=
    Instruction.InRange.names_y
  cases operation with
  | clearDisplay =>
    show Performed machine _ _ _ _ ((onDisplay Display.clear >>= _) machine)
    rw [Routine.bind_apply, onDisplay_apply (Display.clear_apply _)]
    exact .done rfl
  | returnFromCall => exact returnFromCall_performed
  | machineCode => exact .done rfl
  | jump => exact jumpTo_performed nnn
  | call => exact call_performed nnn
  | skipIfByte => exact skipOnByte_performed true x kk namesX (beq_true _)
  | skipUnlessByte => exact skipOnByte_performed false x kk namesX (beq_false _)
  | skipIfEqual => exact skipOnRegister_performed true x y namesX namesY (beq_true _)
  | loadByte =>
    refine loadByte_performed x kk namesX fun range missing => ?_
    have bounds : 0 ≤ kk ∧ kk < 0x100 := range.kk
    have unfit := Byte.ofInt?_eq_none_iff.mp missing
    omega
  | addByte => exact addByte_performed x kk namesX
  | copyRegister => exact copyRegister_performed x y namesX namesY
  | bitOr => exact bitwise_performed (· ||| ·) x y namesX namesY
  | bitAnd => exact bitwise_performed (· &&& ·) x y namesX namesY
  | bitXor => exact bitwise_performed (· ^^^ ·) x y namesX namesY
  | addRegister => exact addRegister_performed x y namesX namesY
  | subtract => exact subtract_performed x x y namesX namesX namesY
  | shiftRight => exact .ofShift namesX namesY (storeFlagged_performed _ _ _ namesX)
  | subtractFrom => exact subtract_performed x y x namesX namesY namesX
  | shiftLeft => exact .ofShift namesX namesY (storeFlagged_performed _ _ _ namesX)
  | skipUnlessEqual => exact skipOnRegister_performed false x y namesX namesY (beq_false _)
  | loadIndex => exact .done rfl
  | jumpOffset => exact jumpOffset_performed x nnn namesX
  | randomByte => exact randomByte_performed x kk namesX
  | drawSprite => exact drawSprite_performed (proper rfl) x y n namesX namesY
  | skipIfHeld => exact skipOnKey_performed true x namesX (beq_true _)
  | skipUnlessHeld => exact skipOnKey_performed false x namesX (beq_false _)
  | readDelay => exact readDelay_performed x namesX
  | awaitKey => exact .done rfl
  | setDelay => exact .ofRead namesX fun _ => .done rfl
  | setSound => exact .ofRead namesX fun _ => .done rfl
  | addIndex => exact .ofRead namesX fun _ => .done rfl
  | pointAtGlyph => exact .ofRead namesX fun _ => .done rfl
  | storeDecimal => exact storeDecimal_performed x namesX
  | storeRegisters => exact storeRegisters_performed fun range => range.x.2
  | loadRegisters => exact loadRegisters_performed fun range => range.x

end

end Machine

end Chip8
