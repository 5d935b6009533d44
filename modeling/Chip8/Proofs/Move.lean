/-
This file says what can happen to a machine, whatever its owner asks of it.

Every action comes to a series of moves, and there are few of them. A cycle
carries an instruction out, halts, is refused for its operands, or waits, with
or without a key. Around the cycles the owner ticks the timers, writes to
memory, presses keys, accounts a frame, collects the picture and resets. What
holds of a machine because every move keeps it is so proved once for all
actions, in whatever order they come.

Two moves depend on what the owner chooses: the instruction handed in and the
address a reset starts from. Both choices are open to a restriction.
Instructions that are fetched, or decoded from a word, always have operands in
range.
-/

import Mathlib.Logic.Relation
import Chip8.Machine.Action
import Chip8.Proofs.Cycle

namespace Chip8

/-- The state a routine leaves, whether it was refused or not. -/
def Routine.leaves {σ α : Type} (routine : Routine σ α) (state : σ) : σ :=
  match routine state with
  | .ok _ after => after
  | .error _ after => after

/-- An action that hands in only instructions of one kind, and resets only to addresses of one
kind. -/
def Action.Within (fit : Instruction → Prop) (start : Int → Prop) : Action → Prop
  | .execute instruction _ => fit instruction
  | .reset address => start address
  | _ => True

theorem Action.within_true (action : Action) :
    action.Within (fun _ => True) (fun _ => True) := by
  cases action <;> trivial

/-- An action that hands in only instructions with operands in range, and resets only to places
where the program counter may rest. -/
abbrev Action.Ordinary : Action → Prop :=
  Action.Within Instruction.InRange Layout.InProgram

/-- The pace of a machine that asks for no clock speed. -/
def Pace.standard : Pace :=
  ⟨Double.ofInt 360 / framesPerSecond, 0⟩

theorem Pace.ofSpeed_standard : ofSpeed ClockSpeed.standard = .ok standard := rfl

namespace Machine

/-- The machine after a reset to an address. -/
def restarted (machine : Machine) (address : Int) : Machine :=
  { machine with
    registers := Registers.zero
    index := 0
    programCounter := address
    stack := machine.stack.clear
    memory := (Memory.blank machine.memory.size).place Layout.glyphStart Layout.glyphs
    display := machine.display.cleared
    keypad := machine.keypad.clearLatch
    timers := Timers.stopped
    pace := machine.pace.restart
    opcode := 0
    instruction := none
    awaiting := none
    fault := none
    cycles := 0 }

/-- One thing that can happen to a machine. -/
inductive Move (fit : Instruction → Prop) (start : Int → Prop) (machine : Machine) :
    Machine → Prop
  | retired (instruction : Instruction) (fits : fit instruction) (running : machine.fault = none)
      (idle : machine.awaiting = none) (clear : machine.obstacle? instruction = none) :
      Move fit start machine (machine.retired instruction)
  | halted (opcode : Int) (held : Option Instruction) (fault : Fault)
      (running : machine.fault = none) (idle : machine.awaiting = none) :
      Move fit start machine ({ machine with opcode := opcode, instruction := held }.halted fault)
  | misused (instruction : Instruction) (memory : Memory) (random : RandomSource)
      (fits : fit instruction) (unfit : ¬ instruction.InRange)
      (idle : machine.awaiting = none) (size : memory.size = machine.memory.size) :
      Move fit start machine
        { machine.holding instruction with memory := memory, random := random }
  | waited : Move fit start machine machine.waited
  | woken (register : Int) (key : Fin 16) (waiting : machine.awaiting = some register) :
      Move fit start machine (machine.woken register key)
  | timed (timers : Timers) : Move fit start machine { machine with timers := timers }
  | written (memory : Memory) (size : memory.size = machine.memory.size) :
      Move fit start machine { machine with memory := memory }
  | keyed (keypad : Keypad) : Move fit start machine { machine with keypad := keypad }
  | paced (pace : Pace) : Move fit start machine { machine with pace := pace }
  | collected : Move fit start machine { machine with display := machine.display.collect.2 }
  | restarted (address : Int) (starts : start address) :
      Move fit start machine (machine.restarted address)

/-- What a series of moves leads to. -/
abbrev Moves (fit : Instruction → Prop) (start : Int → Prop) : Machine → Machine → Prop :=
  Relation.ReflTransGen (Move fit start)

/-! ### What every move keeps -/

/-- A machine of the dimensions it was built with. -/
structure Intact (machine : Machine) : Prop where
  memory : machine.memory.size = Layout.memorySize
  width : machine.display.width = Layout.displayWidth
  height : machine.display.height = Layout.displayHeight
  proper : machine.display.Proper

variable {machine after : Machine} {instruction : Instruction} {trace : Bool}
  {fit : Instruction → Prop} {start : Int → Prop}

/-- Wherever the program counter may rest, there is a word to fetch. -/
theorem Intact.readable (intact : machine.Intact)
    (inside : Layout.InProgram machine.programCounter) : machine.unreadable? = none := by
  obtain ⟨bottom, top⟩ := inside
  have size := intact.memory
  refine Option.map_eq_none_iff.mpr (Memory.missing?_eq_none_iff.mpr ?_)
  unfold Layout.programStart Layout.programTop Layout.memorySize at *
  omega

theorem Intact.of_alike (intact : machine.Intact) (size : after.memory.size = machine.memory.size)
    (alike : machine.display.Alike after.display) : after.Intact where
  memory := size.trans intact.memory
  width := alike.width.trans intact.width
  height := alike.height.trans intact.height
  proper := alike.proper intact.proper

theorem alike_displayAfter (proper : machine.display.Proper) (instruction : Instruction) :
    machine.display.Alike (machine.displayAfter instruction) := by
  unfold displayAfter
  split
  · exact machine.display.alike_cleared
  · exact (proper.draw_apply _ _ _).2.1
  · exact .refl machine.display

theorem depth_stackAfter : (machine.stackAfter instruction).depth = machine.stack.depth := by
  unfold stackAfter
  split <;> rfl

theorem Intact.restarted (intact : machine.Intact) (address : Int) :
    (machine.restarted address).Intact :=
  intact.of_alike ((Memory.size_place _ _ _).trans (Memory.size_blank _))
    machine.display.alike_cleared

theorem Move.intact (move : Move fit start machine after) (intact : machine.Intact) :
    after.Intact := by
  cases move with
  | retired instruction =>
    exact intact.of_alike (Memory.size_place _ _ _) (alike_displayAfter intact.proper instruction)
  | misused _ _ _ _ _ _ size => exact intact.of_alike size (.refl _)
  | written _ size => exact intact.of_alike size (.refl _)
  | collected => exact intact.of_alike rfl machine.display.alike_collect
  | restarted address => exact intact.restarted address
  | halted | waited | woken | timed | keyed | paced => exact intact.of_alike rfl (.refl _)

/-- What every move keeps, a series of them keeps. -/
theorem Moves.keeps {motive : Machine → Prop} (moves : Moves fit start machine after)
    (kept : ∀ {machine after}, Move fit start machine after → motive machine → motive after)
    (holds : motive machine) : motive after := by
  induction moves with
  | refl => exact holds
  | tail _ move inductionHypothesis => exact kept move inductionHypothesis

theorem Moves.intact (moves : Moves fit start machine after) (intact : machine.Intact) :
    after.Intact :=
  moves.keeps Move.intact intact

/-! ### Every action is a series of moves -/

theorem answering_snd {α : Type} (reply : α → Reply) (routine : Routine Machine α) :
    (machine.answering reply routine).2 = routine.leaves machine := by
  unfold answering Routine.leaves
  cases routine machine <;> rfl

/-- Only operands in range are ever fetched. -/
theorem inRange_of_next (next : machine.next = .ok instruction) : instruction.InRange := by
  unfold Machine.next at next
  split at next
  · cases next
  · exact Instruction.inRange_of_decode next

/-- What a cycle makes of a machine, whether it is refused or not. -/
inductive Cycled (fit : Instruction → Prop) (machine : Machine) : Machine → Prop
  | stayed : Cycled fit machine machine
  | retired (instruction : Instruction) (fits : fit instruction) (running : machine.fault = none)
      (idle : machine.awaiting = none) (clear : machine.obstacle? instruction = none) :
      Cycled fit machine (machine.retired instruction)
  | halted (opcode : Int) (held : Option Instruction) (fault : Fault)
      (running : machine.fault = none) (idle : machine.awaiting = none) :
      Cycled fit machine ({ machine with opcode := opcode, instruction := held }.halted fault)
  | misused (instruction : Instruction) (memory : Memory) (random : RandomSource)
      (fits : fit instruction) (unfit : ¬ instruction.InRange)
      (idle : machine.awaiting = none) (size : memory.size = machine.memory.size) :
      Cycled fit machine { machine.holding instruction with memory := memory, random := random }
  | waited : Cycled fit machine machine.waited
  | woken (register : Int) (key : Fin 16) (waiting : machine.awaiting = some register) :
      Cycled fit machine (machine.woken register key)

theorem Cycled.moves (cycled : machine.Cycled fit after) : Moves fit start machine after := by
  cases cycled with
  | stayed => exact .refl
  | retired instruction fits running idle clear =>
    exact .single (.retired instruction fits running idle clear)
  | halted opcode held fault running idle => exact .single (.halted opcode held fault running idle)
  | misused instruction memory random fits unfit idle size =>
    exact .single (.misused instruction memory random fits unfit idle size)
  | waited => exact .single .waited
  | woken register key waiting => exact .single (.woken register key waiting)

theorem execute_cycled (intact : machine.Intact) (fits : fit instruction) :
    machine.Cycled fit ((execute instruction trace).leaves machine) := by
  unfold Routine.leaves
  cases waiting : machine.awaiting with
  | some register =>
    rw [execute_of_waiting waiting]
    exact .stayed
  | none =>
    cases running : machine.fault with
    | some fault =>
      rw [execute_of_idle waiting, guarded_of_halted _ running]
      exact .stayed
    | none =>
      have outcome := execute_outcome instruction trace (fun _ => intact.proper) running waiting
      generalize execute instruction trace machine = result at outcome
      cases outcome with
      | done clear => exact .retired instruction fits running waiting clear
      | faulted fault => exact .halted _ _ fault running waiting
      | misused _ memory random _ size unfit =>
        exact .misused instruction memory random fits unfit waiting size

theorem step_cycled (intact : machine.Intact)
    (inRange : ∀ instruction : Instruction, instruction.InRange → fit instruction) :
    machine.Cycled fit ((step trace).leaves machine) := by
  cases running : machine.fault with
  | some fault =>
    rw [Routine.leaves, step, guarded_of_halted _ running]
    exact .stayed
  | none =>
    cases waiting : machine.awaiting with
    | none =>
      cases next : machine.next with
      | ok instruction =>
        have same : (step trace).leaves machine = (execute instruction trace).leaves machine := by
          rw [Routine.leaves, step_of_next running waiting next, Routine.leaves]
        rw [same]
        exact execute_cycled intact (inRange instruction (inRange_of_next next))
      | error fault =>
        rw [Routine.leaves, step_of_absent running waiting next]
        exact .halted _ _ fault running waiting
    | some register =>
      cases latched : machine.keypad.latch with
      | none =>
        rw [Routine.leaves, step_of_unlatched running waiting latched]
        exact .waited
      | some key =>
        by_cases named : Registers.Names register
        · rw [Routine.leaves, step_of_latched running waiting latched named]
          exact .woken register key waiting
        · rw [Routine.leaves, step_of_unnamed running waiting latched named]
          exact .stayed

theorem execute_moves (intact : machine.Intact) (fits : fit instruction) :
    Moves fit start machine ((execute instruction trace).leaves machine) :=
  (execute_cycled intact fits).moves

theorem step_moves (intact : machine.Intact)
    (inRange : ∀ instruction : Instruction, instruction.InRange → fit instruction) :
    Moves fit start machine ((step trace).leaves machine) :=
  (step_cycled intact inRange).moves

theorem executeWord_moves (intact : machine.Intact)
    (inRange : ∀ instruction : Instruction, instruction.InRange → fit instruction) (opcode : Int) :
    Moves fit start machine ((executeWord opcode trace).leaves machine) := by
  unfold Routine.leaves executeWord
  simp only [Routine.bind_apply, Routine.get_apply, Routine.demand_apply]
  cases decoded : Instruction.decode opcode machine.programCounter with
  | error fault => exact .refl
  | ok instruction =>
    exact execute_moves intact (inRange instruction (Instruction.inRange_of_decode decoded))

theorem machine_advance (listening : Bool) (run : Run) :
    (run.advance listening).machine = (step listening).leaves run.machine := by
  unfold Run.advance Routine.leaves
  cases step listening run.machine <;> rfl

/-- What every cycle keeps, a run of them keeps. -/
theorem cycles_keep {motive : Machine → Prop} {listening : Bool}
    (stepped : ∀ machine, motive machine → motive ((step listening).leaves machine)) (count : Nat)
    (run : Run) (holds : motive run.machine) :
    motive (Run.cycles listening count run).machine := by
  induction count generalizing run with
  | zero => exact holds
  | succ count inductionHypothesis =>
    rw [Run.cycles]
    split
    · exact holds
    · refine inductionHypothesis (run.advance listening) ?_
      rw [machine_advance]
      exact stepped run.machine holds

/-- What accounting, every cycle and every tick keep, a frame keeps. -/
theorem runFrame_keeps {motive : Machine → Prop} {listening : Bool}
    (paced : ∀ machine pace, motive machine → motive { machine with pace := pace })
    (stepped : ∀ machine, motive machine → motive ((step listening).leaves machine))
    (ticked : ∀ machine, motive machine → motive machine.tickTimers) (holds : motive machine) :
    motive (machine.runFrame listening).2.machine := by
  unfold runFrame
  rcases machine.pace.due with ⟨trap | owed, pace⟩
  · exact paced machine pace holds
  · have cycled := cycles_keep stepped owed (Run.start { machine with pace := pace })
      (paced machine pace holds)
    dsimp only
    split
    · exact cycled
    · exact ticked _ cycled

theorem runFrame_moves (intact : machine.Intact) (listening : Bool)
    (inRange : ∀ instruction : Instruction, instruction.InRange → fit instruction) :
    Moves fit start machine (machine.runFrame listening).2.machine := by
  refine runFrame_keeps (motive := Moves fit start machine) ?_ ?_ ?_ .refl
  · exact fun _ pace moves => moves.tail (.paced pace)
  · exact fun _ moves => moves.trans (step_moves (moves.intact intact) inRange)
  · exact fun _ moves => moves.tail (.timed _)

/-- A reset is never refused to a machine of the right dimensions. -/
theorem reset_apply (intact : machine.Intact) (address : Int) :
    reset address machine = .ok () (machine.restarted address) := by
  have room : (Memory.blank machine.memory.size).missing? Layout.glyphStart
      Layout.glyphs.length = none := by
    rw [Memory.missing?_eq_none_iff, Memory.size_blank, intact.memory]
    decide
  have glyphs : (Memory.blank machine.memory.size).loadGlyphs =
      .ok ((Memory.blank machine.memory.size).place Layout.glyphStart Layout.glyphs) := by
    rw [Memory.loadGlyphs, Memory.writeBlock, Memory.check_of_present room]
    rfl
  unfold reset onMemory
  simp only [Routine.bind_apply, Routine.get_apply, Routine.demand_apply, Routine.modify_apply,
    Memory.clear_eq_ok, glyphs]
  rw [onDisplay_apply (Display.clear_apply _)]
  rfl

theorem completed_reset (intact : machine.Intact) (address : Int) :
    (reset address).completed machine = .ok (machine.restarted address) := by
  rw [Routine.completed, reset_apply intact]

theorem onMemory_moves (change : Memory → Except Trap Memory)
    (keeps : ∀ memory, change machine.memory = .ok memory → memory.size = machine.memory.size) :
    Moves fit start machine ((onMemory change).leaves machine) := by
  unfold Routine.leaves onMemory
  simp only [Routine.bind_apply, Routine.get_apply, Routine.demand_apply]
  cases changed : change machine.memory with
  | error trap => exact .refl
  | ok memory => exact .single (.written memory (keeps memory changed))

/-- Every action is a series of moves. -/
theorem act_moves (intact : machine.Intact)
    (inRange : ∀ instruction : Instruction, instruction.InRange → fit instruction)
    (action : Action) (within : action.Within fit start) :
    Moves fit start machine (machine.act action).2 := by
  cases action with
  | step trace =>
    rw [act, answering_snd]
    exact step_moves intact inRange
  | execute instruction trace =>
    rw [act, answering_snd]
    exact execute_moves intact within
  | executeWord opcode trace =>
    rw [act, answering_snd]
    exact executeWord_moves intact inRange opcode
  | runFrame listening => exact runFrame_moves intact listening inRange
  | tickTimers => exact .single (.timed _)
  | reset address =>
    rw [act, obeying, answering_snd, Routine.leaves, reset_apply intact]
    exact .single (.restarted address within)
  | loadRom rom =>
    rw [act, obeying, answering_snd]
    exact onMemory_moves _ fun _ => Memory.size_of_loadRom
  | poke address block =>
    rw [act, obeying, answering_snd]
    exact onMemory_moves _ fun _ => Memory.size_of_writeBlock
  | setKey key down =>
    rw [act, obeying, answering_snd, Routine.leaves, onKeypad]
    simp only [Routine.bind_apply, Routine.get_apply, Routine.demand_apply]
    cases machine.keypad.setKey key down with
    | error trap => exact .refl
    | ok keypad => exact .single (.keyed keypad)
  | releaseKeys => exact .single (.keyed _)
  | collectPicture => exact .single .collected

/-- A run of actions is a series of moves. -/
theorem actAll_moves (intact : machine.Intact)
    (inRange : ∀ instruction : Instruction, instruction.InRange → fit instruction)
    (actions : List Action) (within : ∀ action ∈ actions, action.Within fit start) :
    Moves fit start machine (machine.actAll actions) := by
  induction actions generalizing machine with
  | nil => exact .refl
  | cons action rest inductionHypothesis =>
    have first : Moves fit start machine (machine.act action).2 :=
      act_moves intact inRange action (within action List.mem_cons_self)
    exact first.trans (inductionHypothesis (first.intact intact)
      fun other member => within other (List.mem_cons_of_mem _ member))

/-- Nothing that is asked of a machine changes its dimensions. -/
theorem Intact.actAll (intact : machine.Intact) (actions : List Action) :
    (machine.actAll actions).Intact := by
  have moves : Moves (fun _ => True) (fun _ => True) machine (machine.actAll actions) :=
    actAll_moves intact (fun _ _ => trivial) actions fun action _ => action.within_true
  exact moves.intact intact

/-! ### New machines -/

theorem intact_unset (pace : Pace) (dialect : Dialect) (bytes : Nat → UInt8) :
    (unset pace dialect bytes).Intact where
  memory := Memory.size_blank _
  width := rfl
  height := rfl
  proper := Display.proper_blank (by decide) (by decide)

/-- A new machine with a program. -/
def booted (pace : Pace) (dialect : Dialect) (bytes : Nat → UInt8) (rom : List UInt8) : Machine :=
  let machine := (unset pace dialect bytes).restarted Layout.programStart
  { machine with memory := machine.memory.place Layout.programStart rom }

theorem with_rom_booted (pace : Pace) (dialect : Dialect) (bytes : Nat → UInt8)
    (rom : List UInt8) :
    { booted pace dialect bytes [] with
        memory := (booted pace dialect bytes []).memory.place Layout.programStart rom } =
      booted pace dialect bytes rom := by
  simp only [booted, Memory.place_nil]

theorem intact_booted (pace : Pace) (dialect : Dialect) (bytes : Nat → UInt8)
    (rom : List UInt8) : (booted pace dialect bytes rom).Intact := by
  refine (intact_unset pace dialect bytes).of_alike ?_ (Display.alike_cleared _)
  rw [booted, Memory.size_place, restarted, Memory.size_place, Memory.size_blank]

/-- A new machine finds the first word of its program. -/
theorem word_booted (pace : Pace) (dialect : Dialect) (bytes : Nat → UInt8) (high low : UInt8)
    (rest : List UInt8) (fits : (high :: low :: rest).length ≤ 0xE00) :
    (booted pace dialect bytes (high :: low :: rest)).word = Byte.word high low := by
  have size := (intact_booted pace dialect bytes []).memory
  rw [← with_rom_booted]
  have inside : Layout.programStart + (high :: low :: rest).length ≤
      (booted pace dialect bytes []).memory.size := by
    rw [size]
    unfold Layout.programStart Layout.memorySize
    omega
  have laid := Memory.byteAt_place (booted pace dialect bytes []).memory (high :: low :: rest)
    (show (0 : Int) ≤ Layout.programStart by decide) inside
  have first := laid Layout.programStart
  have second := laid (Layout.programStart + 1)
  rw [if_pos (by simp only [List.length_cons]; omega)] at first second
  rw [word]
  show Byte.word
    (((booted pace dialect bytes []).memory.place Layout.programStart
      (high :: low :: rest)).byteAt Layout.programStart)
    (((booted pace dialect bytes []).memory.place Layout.programStart
      (high :: low :: rest)).byteAt (Layout.programStart + 1)) = _
  rw [first, second]
  rfl

/-- A new machine starts with the first instruction of its program. -/
theorem next_booted (pace : Pace) (dialect : Dialect) (bytes : Nat → UInt8) (high low : UInt8)
    (rest : List UInt8) (fits : (high :: low :: rest).length ≤ 0xE00) :
    (booted pace dialect bytes (high :: low :: rest)).next =
      Instruction.decode (Byte.word high low) Layout.programStart := by
  have inside : Layout.InProgram Layout.programStart := by decide
  rw [next, (intact_booted pace dialect bytes _).readable inside,
    word_booted pace dialect bytes high low rest fits]
  rfl

theorem completed_loadRom (machine : Machine) (rom : List UInt8) :
    (loadRom rom).completed machine =
      (machine.memory.loadRom rom).map fun memory => { machine with memory := memory } := by
  simp only [Routine.completed, loadRom, onMemory, Routine.bind_apply, Routine.get_apply,
    Routine.demand_apply]
  cases machine.memory.loadRom rom <;> rfl

theorem create_of_pace {pace : Pace} {speed : Option ClockSpeed}
    (paced : Pace.ofSpeed (speed.getD ClockSpeed.standard) = .ok pace) (dialect : Dialect)
    (bytes : Nat → UInt8) :
    create speed dialect bytes = .ok (booted pace dialect bytes []) := by
  simp only [create, paced, bind, Except.bind, booted, Memory.place_nil]
  exact completed_reset (intact_unset pace dialect bytes) _

/-- A new machine is built from a clock speed that has a pace and a program that fits. -/
theorem boot_eq_ok_iff {rom : Option (List UInt8)} {speed : Option ClockSpeed} {dialect : Dialect}
    {bytes : Nat → UInt8} :
    boot rom speed dialect bytes = .ok machine ↔
      ∃ pace, Pace.ofSpeed (speed.getD ClockSpeed.standard) = .ok pace ∧
        (rom.getD []).length ≤ 0xE00 ∧ machine = booted pace dialect bytes (rom.getD []) := by
  unfold boot
  cases paced : Pace.ofSpeed (speed.getD ClockSpeed.standard) with
  | error trap =>
    rw [create, paced]
    constructor
    · intro built
      cases built
    · rintro ⟨_, other, -⟩
      cases other
  | ok pace =>
    have size := (intact_booted pace dialect bytes []).memory
    rw [create_of_pace paced]
    cases rom with
    | none =>
      constructor
      · intro built
        cases built
        exact ⟨pace, rfl, Nat.zero_le _, rfl⟩
      · rintro ⟨_, same, -, rfl⟩
        cases same
        rfl
    | some rom =>
      have room : (Layout.memorySize : Int) - Layout.programStart = 0xE00 := by decide
      simp only [bind, Except.bind, completed_loadRom, Memory.loadRom_eq, Memory.room, size, room]
      by_cases fits : rom.length ≤ 0xE00
      · rw [if_pos (show (rom.length : Int) ≤ 0xE00 by omega), Except.map, with_rom_booted]
        constructor
        · intro built
          cases built
          exact ⟨pace, rfl, fits, rfl⟩
        · rintro ⟨_, same, -, rfl⟩
          cases same
          rfl
      · rw [if_neg (show ¬ (rom.length : Int) ≤ 0xE00 by omega)]
        constructor
        · intro built
          cases built
        · rintro ⟨_, -, within, -⟩
          exact absurd within fits

/-- Whatever was asked of it since, a machine has the dimensions it was built with. -/
theorem intact_of_boot {rom : Option (List UInt8)} {speed : Option ClockSpeed} {dialect : Dialect}
    {bytes : Nat → UInt8} (built : boot rom speed dialect bytes = .ok machine)
    (actions : List Action) : (machine.actAll actions).Intact := by
  obtain ⟨pace, -, -, rfl⟩ := boot_eq_ok_iff.mp built
  exact (intact_booted pace dialect bytes _).actAll actions

theorem boot_standard (rom : List UInt8) (fits : rom.length ≤ 0xE00) (dialect : Dialect)
    (bytes : Nat → UInt8) :
    boot (some rom) none dialect bytes = .ok (booted Pace.standard dialect bytes rom) :=
  boot_eq_ok_iff.mpr ⟨Pace.standard, Pace.ofSpeed_standard, fits, rfl⟩

theorem boot_blank (dialect : Dialect) (bytes : Nat → UInt8) :
    boot none none dialect bytes = .ok (booted Pace.standard dialect bytes []) :=
  boot_eq_ok_iff.mpr ⟨Pace.standard, Pace.ofSpeed_standard, Nat.zero_le _, rfl⟩

end Machine

end Chip8
