/-
This file says what a cycle that succeeds has done.

There are three ways to succeed. A machine that does not wait has carried out an
instruction, the one handed in or else the one at its program counter, with
nothing in its way. A machine that waits has found no key and waits on, or has
found one, stored it and moved past the wait. What is claimed of cycles that
succeed is settled by going through the three, and for most of it the parts of
the machine that an instruction leaves alone need not be looked at again.

Of memory an instruction changes a block at the index, whose length can be read
off the instruction.
-/

import Chip8.Proofs.KeyWait

namespace Chip8

/-- How many bytes an instruction stores at the index. -/
def Instruction.storedCount (instruction : Instruction) : Int :=
  match instruction.operation with
  | .storeDecimal => 3
  | .storeRegisters => instruction.x + 1
  | _ => 0

namespace Machine

/-- The cycle carries an instruction out: the machine does not wait, and the instruction is the
one handed in or else the one at the program counter. -/
structure Carries (machine : Machine) (given : Option Instruction) (instruction : Instruction) :
    Prop where
  idle : machine.awaiting = none
  takes : machine.Takes given instruction

/-- The operands of an instruction fit, as they do of any that was read from a word. Asked are the
two operations whose success would not show it otherwise. -/
structure Fits (machine : Machine) (instruction : Instruction) : Prop where
  /-- The bytes at the index fill the registers they are loaded into. -/
  block : instruction.operation = .loadRegisters →
    (machine.memory.slice machine.index (machine.index + (instruction.x + 1))).length =
      Registers.leading (instruction.x + 1)
  /-- There is a register for the random byte. -/
  register : instruction.operation = .randomByte → Registers.Names instruction.x

/-- What a cycle that succeeds comes to: the effects it notes, and the machine it leaves. -/
inductive Succeeded (machine : Machine) (given : Option Instruction) :
    List Effect → Machine → Prop
  | retired (instruction : Instruction) (carries : machine.Carries given instruction)
      (clear : machine.obstacle? instruction = none) (fits : machine.Fits instruction) :
      Succeeded machine given (machine.notes instruction) (machine.retired instruction)
  | waited (register : Int) (waiting : machine.awaiting = some register)
      (unlatched : machine.keypad.latch = none) : Succeeded machine given [] machine.waited
  | woken (register : Int) (key : Fin 16) (waiting : machine.awaiting = some register)
      (latched : machine.keypad.latch = some key) (named : Registers.Names register) :
      Succeeded machine given [] (machine.woken register key)

variable {machine after : Machine} {given : Option Instruction} {instruction : Instruction}
  {trace : Bool} {report : CycleReport}

/-! ### Which instruction is carried out -/

theorem takes_of_next (next : machine.next = .ok instruction) :
    machine.Takes none instruction := by
  unfold Machine.next at next
  split at next
  · cases next
  · next readable =>
    exact .inr ⟨rfl, machine.word, fetch_of_readable machine readable, next⟩

theorem next_of_takes (takes : machine.Takes none instruction) :
    machine.next = .ok instruction := by
  rcases takes with absurdity | ⟨-, word, found, decoded⟩
  · cases absurdity
  · obtain ⟨readable, rfl⟩ := word_of_fetch found
    rw [next, readable]
    exact decoded

/-- A cycle carries out one instruction. -/
theorem Carries.unique {other : Instruction} (first : machine.Carries given instruction)
    (second : machine.Carries given other) : instruction = other := by
  cases given with
  | some handed =>
    rcases first.takes with same | ⟨absurdity, -⟩
    · rcases second.takes with also | ⟨absurdity, -⟩
      · exact Option.some.inj (same.symm.trans also)
      · cases absurdity
    · cases absurdity
  | none =>
    have same := (next_of_takes first.takes).symm.trans (next_of_takes second.takes)
    cases same
    rfl

/-- Handed in or fetched, the instruction is carried out in the same way. -/
theorem attempt_of_carries (running : machine.fault = none)
    (carries : machine.Carries given instruction) :
    attempt given trace machine = execute instruction trace machine := by
  cases given with
  | some handed =>
    rcases carries.takes with same | ⟨absurdity, -⟩
    · cases same
      rfl
    · cases absurdity
  | none => exact step_of_next running carries.idle (next_of_takes carries.takes)

/-- A machine that waits carries no instruction out. -/
theorem not_carries_of_waiting {register : Int} (waiting : machine.awaiting = some register) :
    ¬ machine.Carries given instruction := by
  intro carries
  rw [carries.idle] at waiting
  cases waiting

/-! ### How a cycle succeeds -/

/-- A load that is not refused has found a block of the right length. -/
theorem length_of_loadRegisters_ok {x : Int} {completion : Completion}
    (ran : loadRegisters x machine = .ok completion after) :
    (machine.memory.slice machine.index (machine.index + (x + 1))).length =
      Registers.leading (x + 1) := by
  obtain ⟨_, _, ⟨⟩, loading⟩ := Routine.of_bind_ok ran
  obtain ⟨block, _, reading, filling⟩ := Routine.of_bind_ok loading
  obtain ⟨read, rfl⟩ := Routine.of_demand_ok reading
  obtain ⟨_, _, filled, -⟩ := Routine.of_bind_ok filling
  obtain ⟨_, _, ⟨⟩, filled⟩ := Routine.of_bind_ok filled
  obtain ⟨_, _, checked, -⟩ := Routine.of_bind_ok filled
  obtain ⟨fits, -⟩ := Routine.of_demand_ok checked
  cases Memory.slice_of_readBlock read
  unfold Registers.loadLeading at fits
  split at fits
  · next length => exact length
  · cases fits

/-- A random byte that is not refused has found its register. -/
theorem names_of_randomByte_ok {x mask : Int} {completion : Completion}
    (ran : randomByte x mask machine = .ok completion after) : Registers.Names x := by
  obtain ⟨_, _, ⟨⟩, drawing⟩ := Routine.of_bind_ok ran
  obtain ⟨_, _, ⟨⟩, storing⟩ := Routine.of_bind_ok drawing
  obtain ⟨_, _, stored, -⟩ := Routine.of_bind_ok storing
  by_contra unnamed
  rw [storeRegister_of_not_names unnamed] at stored
  cases stored

theorem fits_of_execute (running : machine.fault = none) (idle : machine.awaiting = none)
    (ran : execute instruction trace machine = .ok report after) : machine.Fits instruction := by
  obtain ⟨completion, left, retired, -⟩ := retire_of_execute_ok running idle ran
  have performed := perform_of_retire_ok retired
  obtain ⟨operation, opcode, x, y, n, kk, nnn⟩ := instruction
  refine ⟨fun loads => ?_, fun draws => ?_⟩
  · cases loads
    have length := length_of_loadRegisters_ok performed
    exact length
  · cases draws
    have named := names_of_randomByte_ok performed
    exact named

theorem succeeded_of_execute (proper : machine.display.Proper) (running : machine.fault = none)
    (idle : machine.awaiting = none) (takes : machine.Takes given instruction)
    (ran : execute instruction trace machine = .ok report after) :
    ∃ notes, machine.Succeeded given notes after ∧
      report = machine.reportOf after notes trace := by
  have fits := fits_of_execute running idle ran
  have outcome := execute_outcome instruction trace (fun _ => proper) running idle
  rw [ran] at outcome
  cases outcome with
  | done clear => exact ⟨_, .retired instruction ⟨idle, takes⟩ clear fits, rfl⟩

/-- A cycle that succeeds has done one of three things, and its report is the report of that. -/
theorem succeeded_of_attempt (proper : machine.display.Proper)
    (ran : attempt given trace machine = .ok report after) :
    ∃ notes, machine.Succeeded given notes after ∧
      report = machine.reportOf after notes trace := by
  cases waiting : machine.awaiting with
  | none =>
    cases running : machine.fault with
    | some fault =>
      cases given with
      | some instruction =>
        rw [attempt, execute_of_idle waiting, guarded_of_halted _ running] at ran
        cases ran
      | none =>
        rw [attempt, step, guarded_of_halted _ running] at ran
        cases ran
    | none =>
      cases given with
      | some instruction =>
        exact succeeded_of_execute proper running waiting (.inl rfl) ran
      | none =>
        cases next : machine.next with
        | error fault =>
          rw [attempt, step_of_absent running waiting next] at ran
          cases ran
        | ok instruction =>
          rw [attempt, step_of_next running waiting next] at ran
          exact succeeded_of_execute proper running waiting (takes_of_next next) ran
  | some register =>
    cases given with
    | some instruction =>
      rw [attempt, execute_of_waiting waiting] at ran
      cases ran
    | none =>
      cases running : machine.fault with
      | some fault =>
        rw [attempt, step, guarded_of_halted _ running] at ran
        cases ran
      | none =>
        cases latched : machine.keypad.latch with
        | none =>
          rw [attempt, step_of_unlatched running waiting latched] at ran
          cases ran
          exact ⟨[], .waited register waiting latched, rfl⟩
        | some key =>
          by_cases named : Registers.Names register
          · rw [attempt, step_of_latched running waiting latched named] at ran
            cases ran
            exact ⟨[], .woken register key waiting latched named, rfl⟩
          · rw [attempt, step_of_unnamed running waiting latched named] at ran
            cases ran

/-! ### What is stored -/

theorem length_stored (machine : Machine) (instruction : Instruction) :
    (machine.stored instruction).length = instruction.storedCount.toNat := by
  obtain ⟨operation, opcode, x, y, n, kk, nnn⟩ := instruction
  cases operation with
  | storeRegisters =>
    show ((List.range' 0 (x + 1).toNat).map _).length = _
    rw [List.length_map, List.length_range']
    rfl
  | _ => rfl

/-- An instruction with nothing in its way stores inside memory. -/
theorem stored_inside (clear : machine.obstacle? instruction = none)
    (stores : 0 < instruction.storedCount) :
    0 ≤ machine.index ∧ machine.index + instruction.storedCount ≤ machine.memory.size := by
  obtain ⟨-, unhindered⟩ := Option.or_eq_none_iff.mp clear
  obtain ⟨operation, opcode, x, y, n, kk, nnn⟩ := instruction
  unfold hindrance? at unhindered
  cases operation with
  | storeDecimal | storeRegisters =>
    exact Memory.missing?_eq_none_iff.mp (memory_present unhindered)
  | _ => exact absurd stores (Int.lt_irrefl 0)

theorem byteAt_memoryAfter (clear : machine.obstacle? instruction = none) (address : Int) :
    (machine.memoryAfter instruction).byteAt address =
      if machine.index ≤ address ∧ address < machine.index + instruction.storedCount then
        (machine.stored instruction).getD (address - machine.index).toNat 0
      else machine.memory.byteAt address := by
  have length := length_stored machine instruction
  by_cases stores : 0 < instruction.storedCount
  · obtain ⟨nonneg, inside⟩ := stored_inside clear stores
    have same : ((machine.stored instruction).length : Int) = instruction.storedCount := by omega
    rw [memoryAfter, Memory.byteAt_place _ _ nonneg (by omega), same]
  · have nothing : machine.stored instruction = [] := List.eq_nil_of_length_eq_zero (by omega)
    rw [if_neg (by omega), memoryAfter, nothing, Memory.place_nil]

end Machine

end Chip8
