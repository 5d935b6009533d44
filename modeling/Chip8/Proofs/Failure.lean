/-
This file proves exactly when a cycle fails, with which fault, and where the
program counter goes when it does not.

The failures of an instruction are written down as one list of cases, tried in
order, in plain arithmetic and with the operations of each case by name: the
fall-through is tried before the operands, the target of a call before the room
on the stack. A machine that is well-formed fails exactly in these cases. It
makes the list shorter than what the machine checks: the index is never
negative, so no access lies below memory, and no return address lies below the
program.
-/

import Mathlib.Logic.Basic
import Chip8.Proofs.WellFormed

namespace Chip8.Machine

/-- How many bytes at the index an instruction touches, if it touches any place in memory. -/
def touched? (instruction : Instruction) : Option Int :=
  match instruction.operation with
  | .drawSprite => some instruction.n
  | .storeDecimal => some 3
  | .storeRegisters | .loadRegisters => some (instruction.x + 1)
  | _ => none

/-- The fault of an instruction, from the first case that applies. -/
def failure? (machine : Machine) (instruction : Instruction) : Option Fault :=
  let operation := instruction.operation
  let target := machine.target instruction
  let returned := machine.stack.entries.getLastD 0
  if operation ∉ [.returnFromCall, .jump, .call, .jumpOffset] ∧
      0xFFD < machine.programCounter + 2 then
    some (.outOfProgram (machine.programCounter + 2))
  else if machine.skips instruction = true ∧ 0xFFD < machine.programCounter + 4 then
    some (.outOfProgram (machine.programCounter + 4))
  else if operation ∈ [.jump, .call, .jumpOffset] ∧ ¬ (0x200 ≤ target ∧ target ≤ 0xFFD) then
    some (.outOfProgram target)
  else if operation = .call ∧ machine.stack.length = 16 then
    some (.stackOverflow 16)
  else if operation = .returnFromCall ∧ machine.stack.entries = [] then
    some .stackUnderflow
  else if operation = .returnFromCall ∧ 0xFFD < returned then
    some (.outOfProgram returned)
  else
    match touched? instruction with
    | some count =>
        if 0x1000 < machine.index + count then some (.outOfMemory (max machine.index 0x1000))
        else none
    | none => none

variable {machine after : Machine} {instruction : Instruction} {trace : Bool}

/-- The operations that need no instruction after them. -/
theorem branches_eq_false_iff (operation : Operation) :
    operation.branches = false ↔ operation ∉ [.returnFromCall, .jump, .call, .jumpOffset] := by
  cases operation <;> decide

theorem leaving?_eq (address : Int) :
    leaving? address =
      if ¬ (0x200 ≤ address ∧ address ≤ 0xFFD) then some (.outOfProgram address) else none :=
  (ite_not ..).symm

theorem leaving?_of_above {address : Int} (bottom : 0x200 ≤ address) :
    leaving? address = if 0xFFD < address then some (.outOfProgram address) else none := by
  rw [leaving?_eq]
  by_cases above : 0xFFD < address
  · rw [if_pos above, if_pos fun inside => absurd inside.2 (Int.not_le.mpr above)]
  · rw [if_neg above, if_neg (not_not_intro ⟨bottom, Int.not_lt.mp above⟩)]

theorem missing?_of_wellFormed (wellFormed : machine.WellFormed) (count : Int) :
    machine.missing? count =
      if 0x1000 < machine.index + count then some (.outOfMemory (max machine.index 0x1000))
      else none := by
  have size := wellFormed.memory
  unfold missing? Memory.missing?
  rw [if_neg (Int.not_lt.mpr wellFormed.index.1), size]
  show Option.map _ (if (0x1000 : Int) < _ then _ else _) = _
  by_cases beyond : 0x1000 < machine.index + count
  · rw [if_pos beyond, if_pos beyond]
    rfl
  · rw [if_neg beyond, if_neg beyond]
    rfl

theorem isFull_of_wellFormed (wellFormed : machine.WellFormed) :
    machine.stack.isFull = true ↔ machine.stack.length = 16 := by
  have bound := wellFormed.length
  unfold CallStack.isFull
  rw [wellFormed.depth, decide_eq_true_eq]
  unfold Layout.stackDepth at *
  omega

/-- A return address is never below the program, so only one above it stands in the way. -/
theorem hindrance?_of_return (wellFormed : machine.WellFormed)
    (operation : instruction.operation = .returnFromCall) :
    machine.hindrance? instruction =
      if machine.stack.entries = [] then some .stackUnderflow
      else if 0xFFD < machine.stack.entries.getLastD 0 then
        some (.outOfProgram (machine.stack.entries.getLastD 0))
      else none := by
  unfold hindrance?
  rw [operation]
  dsimp only
  rw [List.getLastD_eq_getLast?]
  cases newest : machine.stack.entries.getLast? with
  | none => rw [if_pos (List.getLast?_eq_none_iff.mp newest)]
  | some address =>
    have nonempty : machine.stack.entries ≠ [] := by
      intro empty
      rw [empty] at newest
      cases newest
    have bottom := (wellFormed.returns address (List.mem_of_getLast? newest)).1
    rw [if_neg nonempty, Option.getD_some]
    exact leaving?_of_above (by omega)

/-- The list of failures is complete and in order. -/
theorem failure?_eq_obstacle? (wellFormed : machine.WellFormed) (instruction : Instruction) :
    machine.failure? instruction = machine.obstacle? instruction := by
  obtain ⟨start, top⟩ := wellFormed.programCounter
  have falling : leaving? (machine.programCounter + 2) =
      if 0xFFD < machine.programCounter + 2 then
        some (.outOfProgram (machine.programCounter + 2)) else none :=
    leaving?_of_above (by unfold Layout.programStart at start; omega)
  have passing : leaving? (machine.programCounter + 4) =
      if 0xFFD < machine.programCounter + 4 then
        some (.outOfProgram (machine.programCounter + 4)) else none :=
    leaving?_of_above (by unfold Layout.programStart at start; omega)
  have through : (if instruction.operation.branches then none
      else leaving? (machine.programCounter + 2)) =
      if instruction.operation ∉ [.returnFromCall, .jump, .call, .jumpOffset] ∧
          0xFFD < machine.programCounter + 2 then
        some (.outOfProgram (machine.programCounter + 2)) else none := by
    rw [falling]
    simp only [← branches_eq_false_iff]
    cases instruction.operation.branches <;> simp
  unfold failure? obstacle?
  rw [through]
  dsimp only
  by_cases beyond : instruction.operation ∉ [.returnFromCall, .jump, .call, .jumpOffset] ∧
      0xFFD < machine.programCounter + 2
  · rw [if_pos beyond, if_pos beyond]
    rfl
  · rw [if_neg beyond, if_neg beyond, Option.none_or]
    have missing := missing?_of_wellFormed wellFormed
    have full := isFull_of_wellFormed wellFormed
    have depth : machine.stack.depth = 16 := wellFormed.depth
    have returning := @hindrance?_of_return machine instruction wellFormed
    obtain ⟨operation, opcode, x, y, n, kk, nnn⟩ := instruction
    cases operation with
    | returnFromCall =>
      rw [returning rfl]
      simp [touched?, skips]
    | jump | jumpOffset =>
      simp [touched?, skips, hindrance?, leaving?_eq]
    | call =>
      simp [touched?, skips, hindrance?, leaving?_eq, full, depth]
      split <;> rfl
    | skipIfByte | skipUnlessByte | skipIfEqual | skipUnlessEqual | skipIfHeld | skipUnlessHeld =>
      simp [touched?, hindrance?, passing, ite_and]
    | drawSprite | storeDecimal | storeRegisters | loadRegisters =>
      simp [touched?, skips, hindrance?, missing]
    | _ => simp [touched?, skips, hindrance?]

/-! ### Cycles -/

/-- What one cycle of a machine that is not halted comes to: while it waits it is never refused,
and otherwise the word at the program counter decides. -/
theorem WellFormed.step_cases (wellFormed : machine.WellFormed) (running : machine.fault = none)
    (trace : Bool) :
    (machine.awaiting.isSome → ∃ report after, step trace machine = .ok report after) ∧
      (machine.awaiting = none →
        match Instruction.decode machine.word machine.programCounter with
        | .error _ =>
            ∃ after, step trace machine =
              .error (.fault (.unknownOpcode machine.word machine.programCounter)) after
        | .ok instruction =>
            match machine.failure? instruction with
            | some fault => ∃ after, step trace machine = .error (.fault fault) after
            | none => ∃ report after, step trace machine = .ok report after ∧
                after.programCounter = machine.destination instruction) := by
  constructor
  · intro waiting
    obtain ⟨register, waiting⟩ := Option.isSome_iff_exists.mp waiting
    obtain ⟨start, top⟩ := (wellFormed.waits register waiting).inRange
    cases latched : machine.keypad.latch with
    | none => exact ⟨_, _, step_of_unlatched running waiting latched⟩
    | some key =>
      exact ⟨_, _, step_of_latched running waiting latched (Registers.names_of_lt start top)⟩
  · intro idle
    have next : machine.next = Instruction.decode machine.word machine.programCounter := by
      rw [Machine.next, wellFormed.readable wellFormed.programCounter]
    cases decoded : Instruction.decode machine.word machine.programCounter with
    | error fault =>
      rw [decoded] at next
      rw [← Instruction.fault_of_decode decoded]
      exact ⟨_, step_of_absent running idle next⟩
    | ok instruction =>
      rw [decoded] at next
      have range := Instruction.inRange_of_decode decoded
      have outcome := execute_outcome instruction trace (fun _ => wellFormed.proper) running idle
      rw [← step_of_next running idle next, ← failure?_eq_obstacle? wellFormed] at outcome
      dsimp only
      cases failure : machine.failure? instruction with
      | some fault => exact ⟨_, outcome.eq_error range failure⟩
      | none => exact ⟨_, _, outcome.eq_ok range failure, rfl⟩

/-- One cycle of any machine that was reached and is not halted. A wait is never refused.
Otherwise a word is fetched; it fails to decode, or the first failure that applies to its
instruction is the fault of the cycle, or the cycle succeeds and moves the program counter where
the instruction leads. -/
theorem step_fails_exactly {rom : Option (List UInt8)} {speed : Option ClockSpeed}
    {dialect : Dialect} {bytes : Nat → UInt8} {new : Machine}
    (built : boot rom speed dialect bytes = .ok new) (actions : List Action)
    (ordinary : ∀ action ∈ actions, action.Ordinary) (reached : machine = new.actAll actions)
    (running : machine.fault = none) (trace : Bool) :
    (machine.awaiting.isSome → ∃ report after, step trace machine = .ok report after) ∧
      (machine.awaiting = none →
        ∃ word, fetch machine = .ok word machine ∧
          word = 0x100 * ((machine.memory.byteAt machine.programCounter).toNat : Int) +
            (machine.memory.byteAt (machine.programCounter + 1)).toNat ∧
          match Instruction.decode word machine.programCounter with
          | .error _ =>
              ∃ after, step trace machine =
                .error (.fault (.unknownOpcode word machine.programCounter)) after
          | .ok instruction =>
              match machine.failure? instruction with
              | some fault => ∃ after, step trace machine = .error (.fault fault) after
              | none => ∃ report after, step trace machine = .ok report after ∧
                  after.programCounter = machine.destination instruction) := by
  have wellFormed : machine.WellFormed := reached ▸ wellFormed_of_boot built actions ordinary
  obtain ⟨waiting, idling⟩ := wellFormed.step_cases running trace
  refine ⟨waiting, fun idle => ⟨machine.word, ?_, rfl, idling idle⟩⟩
  exact fetch_of_readable machine (wellFormed.readable wellFormed.programCounter)

/-- A program that returns without a call. -/
theorem step_fails_exactly_return :
    ∃ machine after, boot (some [0x00, 0xEE]) none (Dialect.ofChoices none none none none)
        (fun _ => 0) = .ok machine ∧
      step true machine = .error (.fault .stackUnderflow) after := by
  have built := boot_standard [0x00, 0xEE] (by decide)
    (Dialect.ofChoices none none none none) fun _ => 0
  obtain ⟨-, idling⟩ := step_fails_exactly built [] (by simp) rfl rfl true
  obtain ⟨word, found, -, outcome⟩ := idling rfl
  obtain ⟨-, rfl⟩ := word_of_fetch found
  rw [actAll, List.foldl_nil, word_booted _ _ _ _ _ _ (by decide)] at outcome
  obtain ⟨after, failed⟩ := outcome
  exact ⟨_, after, built, failed⟩

end Chip8.Machine
