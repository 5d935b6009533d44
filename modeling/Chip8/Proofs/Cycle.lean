/-
This file proves what one cycle comes to.

A cycle of a machine that waits looks at the latch of the keypad and at nothing
else. Any other cycle carries out an instruction, and whether that instruction
was handed in or fetched makes no difference once it is there. Getting it can
fail in two ways: no word lies at the program counter, or the word is no
instruction. From then on what keeps the instruction from being carried out
decides: with nothing in the way the machine is left as the instruction means,
its program counter moved and the cycle counted.
-/

import Chip8.Machine.Cycle
import Chip8.Proofs.Execution

namespace Chip8.Machine

/-! ### The next instruction -/

/-- The word at the program counter, high byte first. -/
def word (machine : Machine) : Int :=
  Byte.word (machine.memory.byteAt machine.programCounter)
    (machine.memory.byteAt (machine.programCounter + 1))

/-- The fault of a program counter at which no word lies. -/
def unreadable? (machine : Machine) : Option Fault :=
  (machine.memory.missing? machine.programCounter 2).map .outOfMemory

/-- The instruction at the program counter, or what is wrong there. -/
def next (machine : Machine) : Except Fault Instruction :=
  match machine.unreadable? with
  | some fault => .error fault
  | none => Instruction.decode machine.word machine.programCounter

/-- The machine after a look at its program counter: it holds no instruction, and the word found
there, if one lies there. -/
def fetched (machine : Machine) : Machine :=
  { machine with
    instruction := none
    opcode := if machine.unreadable?.isSome then machine.opcode else machine.word }

variable {machine : Machine} {instruction : Instruction} {trace : Bool}

theorem fetch_of_readable (machine : Machine) (readable : machine.unreadable? = none) :
    fetch machine = .ok machine.word machine := by
  have present := Option.map_eq_none_iff.mp readable
  have block : machine.memory.readBlock machine.programCounter 2 =
      .ok [machine.memory.byteAt machine.programCounter,
        machine.memory.byteAt (machine.programCounter + 1)] := by
    rw [Memory.readBlock_of_present present, Memory.slice_eq_map (by decide) present]
    simp [List.range_succ]
  simp only [fetch, Routine.bind_apply, Routine.get_apply, Routine.demand_apply, block]
  rfl

theorem fetch_of_unreadable (machine : Machine) {fault : Fault}
    (unreadable : machine.unreadable? = some fault) :
    fetch machine = .error (.fault fault) machine := by
  obtain ⟨address, missing, rfl⟩ := Option.map_eq_some_iff.mp unreadable
  simp only [fetch, Routine.bind_apply, Routine.get_apply, Routine.demand_apply,
    Memory.readBlock_of_missing missing]

/-- A word can be fetched only where one lies, and it is that word. -/
theorem word_of_fetch {word : Int} (found : fetch machine = .ok word machine) :
    machine.unreadable? = none ∧ machine.word = word := by
  cases readable : machine.unreadable? with
  | some fault =>
    rw [fetch_of_unreadable machine readable] at found
    cases found
  | none =>
    rw [fetch_of_readable machine readable] at found
    cases found
    exact ⟨rfl, rfl⟩

theorem fetchInstruction_apply :
    fetchInstruction machine =
      match machine.next with
      | .ok instruction => .ok instruction machine.fetched
      | .error fault => .error (.fault fault) machine.fetched := by
  unfold fetchInstruction next
  simp only [Routine.bind_apply, Routine.modify_apply]
  cases readable : machine.unreadable? with
  | some fault =>
    rw [fetch_of_unreadable { machine with instruction := none } readable, fetched, readable]
    rfl
  | none =>
    have found : fetch { machine with instruction := none } =
        .ok machine.word { machine with instruction := none } := fetch_of_readable _ readable
    rw [found, fetched, readable]
    simp only [Routine.get_apply, Routine.demand_apply]
    cases Instruction.decode machine.word machine.programCounter <;> rfl

/-! ### Carrying an instruction out -/

/-- The machine with an instruction in hand. -/
def holding (machine : Machine) (instruction : Instruction) : Machine :=
  { machine with instruction := some instruction, opcode := instruction.opcode }

/-- The machine after a cycle that carried an instruction out. -/
def retired (machine : Machine) (instruction : Instruction) : Machine :=
  { (machine.holding instruction).after instruction with
    programCounter := machine.destination instruction
    cycles := machine.cycles + 1 }

/-- The machine halted by a fault. -/
def halted (machine : Machine) (fault : Fault) : Machine :=
  { machine with fault := some fault }

/-- The report of a cycle that led from one machine to another. -/
def reportOf (machine after : Machine) (notes : List Effect) (trace : Bool) : CycleReport where
  programCounter := machine.programCounter
  opcode := after.opcode
  mnemonic := after.mnemonic
  effects := if trace then Effect.between machine.visible after.visible notes else []
  waiting := after.awaiting.isSome

theorem retire_outcome (instruction : Instruction)
    (proper : instruction.operation = .drawSprite → machine.display.Proper) :
    Performed (machine.holding instruction) instruction (machine.obstacle? instruction)
      ⟨machine.destination instruction, machine.notes instruction⟩
      ((machine.holding instruction).after instruction) (retire instruction machine) := by
  have performed : Performed (machine.holding instruction) instruction
      (machine.hindrance? instruction)
      ⟨machine.destination instruction, machine.notes instruction⟩
      ((machine.holding instruction).after instruction)
      (perform instruction (machine.holding instruction)) :=
    perform_outcome instruction proper
  unfold retire obstacle?
  rw [Routine.bind_apply, Routine.modify_apply]
  cases branches : instruction.operation.branches with
  | true => exact performed
  | false =>
    show Performed _ _ ((leaving? (machine.programCounter + 2)).or _) _ _
      ((demand (checkProgramCounter (machine.programCounter + 2)) >>= fun _ =>
        perform instruction) (machine.holding instruction))
    rw [Routine.bind_apply, Routine.demand_apply, checkProgramCounter_eq]
    cases left : leaving? (machine.programCounter + 2) with
    | some fault => exact .faulted fault rfl
    | none => exact performed

/-- What a cycle does before it moves the program counter. -/
def working (machine : Machine) (given : Option Instruction) :
    EStateM.Result Trap Machine Completion :=
  match machine.awaiting, given with
  | some register, _ => pollKey register machine
  | none, some instruction => retire instruction machine
  | none, none =>
      match fetchInstruction machine with
      | .ok instruction after => retire instruction after
      | .error trap after => .error trap after

theorem cycle_apply (given : Option Instruction) :
    cycle given trace machine =
      match machine.working given with
      | .ok completion after =>
          let moved := { after with
            programCounter := completion.next
            cycles := after.cycles + 1 }
          .ok (machine.reportOf moved completion.notes trace) moved
      | .error trap after => .error trap after := by
  unfold cycle working
  simp only [Routine.bind_apply, Routine.get_apply]
  rcases machine.awaiting with _ | register
  · rcases given with _ | instruction
    · simp only [Routine.bind_apply]
      cases fetchInstruction machine with
      | error => rfl
      | ok instruction after =>
        dsimp only
        cases retire instruction after <;> rfl
    · simp only [Routine.bind_apply]
      cases retire instruction machine <;> rfl
  · simp only [Routine.bind_apply]
    cases pollKey register machine <;> rfl

/-- One cycle, of the instruction handed in or else of the next one of the program. -/
def attempt (given : Option Instruction) (trace : Bool) : Routine Machine CycleReport :=
  match given with
  | some instruction => execute instruction trace
  | none => step trace

/-! ### Cycles that do not wait -/

theorem guarded_of_running {α : Type} (routine : Routine Machine α)
    (running : machine.fault = none) :
    guarded routine machine =
      match routine machine with
      | .error (.fault fault) after => .error (.fault fault) (after.halted fault)
      | result => result := by
  simp only [guarded, running]
  rfl

theorem guarded_of_halted {α : Type} (routine : Routine Machine α) {fault : Fault}
    (stopped : machine.fault = some fault) :
    guarded routine machine = .error (.halted fault) machine := by
  simp only [guarded, stopped]

theorem execute_of_idle (idle : machine.awaiting = none) :
    execute instruction trace machine = guarded (cycle (some instruction) trace) machine := by
  simp only [execute, Routine.bind_apply, Routine.get_apply, idle]
  rfl

theorem execute_of_running (instruction : Instruction) (running : machine.fault = none)
    (idle : machine.awaiting = none) :
    execute instruction trace machine =
      match retire instruction machine with
      | .ok completion after =>
          let moved := { after with
            programCounter := completion.next
            cycles := after.cycles + 1 }
          .ok (machine.reportOf moved completion.notes trace) moved
      | .error (.fault fault) after => .error (.fault fault) (after.halted fault)
      | .error trap after => .error trap after := by
  have work : machine.working (some instruction) = retire instruction machine := by
    simp only [working, idle]
  rw [execute_of_idle idle, guarded_of_running _ running, cycle_apply, work]
  cases retire instruction machine with
  | ok => rfl
  | error trap => cases trap <;> rfl

/-- An instruction handed to a machine that runs and does not wait. -/
theorem execute_outcome (instruction : Instruction) (trace : Bool)
    (proper : instruction.operation = .drawSprite → machine.display.Proper)
    (running : machine.fault = none) (idle : machine.awaiting = none) :
    Outcome (machine.holding instruction) instruction (machine.obstacle? instruction)
      (machine.reportOf (machine.retired instruction) (machine.notes instruction) trace)
      (machine.retired instruction) (machine.holding instruction).halted
      (execute instruction trace machine) := by
  have outcome := retire_outcome instruction proper
  rw [execute_of_running instruction running idle]
  generalize retire instruction machine = result at outcome
  cases outcome with
  | done clear => exact .done clear
  | faulted fault blocked => exact .faulted fault blocked
  | misused trap memory random misuse size unfit =>
    cases trap <;> first | exact .misused _ memory random misuse size unfit | cases misuse

/-- An instruction that was carried out has been performed while it was held. -/
theorem perform_of_retire_ok {after : Machine} {completion : Completion}
    (ran : retire instruction machine = .ok completion after) :
    perform instruction (machine.holding instruction) = .ok completion after := by
  obtain ⟨_, _, ⟨⟩, checking⟩ := Routine.of_bind_ok ran
  split at checking
  · obtain ⟨_, _, ⟨⟩, checking⟩ := Routine.of_bind_ok checking
    obtain ⟨_, _, checked, performed⟩ := Routine.of_bind_ok checking
    cases (Routine.of_demand_ok checked).2
    exact performed
  · exact checking

/-- What an instruction left that was handed in and not refused. -/
theorem retire_of_execute_ok (running : machine.fault = none) (idle : machine.awaiting = none)
    {after : Machine} {report : CycleReport}
    (ran : execute instruction trace machine = .ok report after) :
    ∃ completion left, retire instruction machine = .ok completion left ∧
      after = { left with programCounter := completion.next, cycles := left.cycles + 1 } := by
  rw [execute_of_running instruction running idle] at ran
  cases retired : retire instruction machine with
  | error trap left =>
    rw [retired] at ran
    cases trap <;> cases ran
  | ok completion left =>
    rw [retired] at ran
    cases ran
    exact ⟨completion, left, rfl, rfl⟩

/-- An instruction that is fetched is carried out as if it had been handed in. -/
theorem step_of_next (running : machine.fault = none) (idle : machine.awaiting = none)
    (next : machine.next = .ok instruction) :
    step trace machine = execute instruction trace machine := by
  have work : machine.working none = machine.working (some instruction) := by
    simp only [working, idle, fetchInstruction_apply, next]
    rfl
  rw [execute_of_idle idle, step, guarded_of_running _ running, guarded_of_running _ running,
    cycle_apply, cycle_apply, work]

/-- Without an instruction at the program counter the machine halts. -/
theorem step_of_absent (running : machine.fault = none) (idle : machine.awaiting = none)
    {fault : Fault} (absent : machine.next = .error fault) :
    step trace machine = .error (.fault fault) (machine.fetched.halted fault) := by
  have work : machine.working none = .error (.fault fault) machine.fetched := by
    simp only [working, idle, fetchInstruction_apply, absent]
  rw [step, guarded_of_running _ running, cycle_apply, work]

/-! ### Cycles that wait -/

/-- The machine after a cycle that went on waiting. -/
def waited (machine : Machine) : Machine :=
  { machine with cycles := machine.cycles + 1 }

/-- The machine after a cycle that took a key and ended the wait. -/
def woken (machine : Machine) (register : Int) (key : Fin 16) : Machine :=
  { machine with
    registers := machine.registers.assign register (UInt8.ofNat key.val)
    programCounter := machine.programCounter + 2
    awaiting := none
    cycles := machine.cycles + 1 }

theorem step_of_unlatched (running : machine.fault = none) {register : Int}
    (waiting : machine.awaiting = some register) (unlatched : machine.keypad.latch = none) :
    step trace machine = .ok (machine.reportOf machine.waited [] trace) machine.waited := by
  have work : machine.working none = .ok ⟨machine.programCounter, []⟩ machine := by
    simp only [working, waiting, pollKey, Routine.bind_apply, Routine.get_apply, unlatched]
    rfl
  rw [step, guarded_of_running _ running, cycle_apply, work]
  rfl

theorem step_of_latched (running : machine.fault = none) {register : Int} {key : Fin 16}
    (waiting : machine.awaiting = some register) (latched : machine.keypad.latch = some key)
    (named : Registers.Names register) :
    step trace machine =
      .ok (machine.reportOf (machine.woken register key) [] trace)
        (machine.woken register key) := by
  have work : machine.working none = .ok ⟨machine.programCounter + 2, []⟩
      { machine with
        registers := machine.registers.assign register (UInt8.ofNat key.val)
        awaiting := none } := by
    simp only [working, waiting, pollKey, Routine.bind_apply, Routine.get_apply, latched,
      storeRegister_of_names named]
    rfl
  rw [step, guarded_of_running _ running, cycle_apply, work]
  rfl

theorem step_of_unnamed (running : machine.fault = none) {register : Int} {key : Fin 16}
    (waiting : machine.awaiting = some register) (latched : machine.keypad.latch = some key)
    (unnamed : ¬ Registers.Names register) :
    step trace machine = .error (.noSuchRegister register) machine := by
  have work : machine.working none = .error (.noSuchRegister register) machine := by
    simp only [working, waiting, pollKey, Routine.bind_apply, Routine.get_apply, latched,
      storeRegister_of_not_names unnamed]
  rw [step, guarded_of_running _ running, cycle_apply, work]

/-- A machine that waits takes no instruction. -/
theorem execute_of_waiting {register : Int} (waiting : machine.awaiting = some register)
    (instruction : Instruction) :
    execute instruction trace machine = .error .awaitingKey machine := by
  simp only [execute, Routine.bind_apply, Routine.get_apply, waiting]
  rfl

end Chip8.Machine
