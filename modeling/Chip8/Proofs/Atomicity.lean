/-
This file proves that a cycle that fails has not happened.

Whatever was asked of a machine before, hand-made instructions and resets to any
address among it, a cycle that ends in a machine error leaves registers, index,
program counter, stack, timers, memory, display, keypad, counters and random
source as they were. It halts the machine and keeps what is needed to tell what
failed: the word that was fetched, and the instruction it spells. A word that
spells none leaves a placeholder in the place of the mnemonic, and no
instruction is written like that placeholder.

A picture of a machine shows every part that reports tell of, and there is one
picture of each machine.

Nothing is assumed of the instruction. Where the operands of one that was put
together by hand do not fit, the refusal is no machine error, and this file says
nothing of it.
-/

import Chip8.Machine.Snapshot
import Chip8.Proofs.Move

namespace Chip8

/-- A refusal that counts as an error of the machine: an error of the program, or the reminder
of an earlier one. -/
def Trap.isMachineError : Trap → Bool
  | .fault _ | .halted _ => true
  | _ => false

theorem Trap.isMisuse_of_isMachineError (trap : Trap) (error : trap.isMachineError = true) :
    trap.isMisuse = false := by
  cases trap with
  | fault | halted => rfl
  | _ => cases error

/-- No instruction is written like the placeholder for one that could not be decoded. -/
theorem Instruction.mnemonic_ne_placeholder (instruction : Instruction) :
    instruction.mnemonic ≠ "???" := by
  intro same
  have heads := congrArg (fun text => text.toList.head?) same
  unfold mnemonic at heads
  dsimp only at heads
  -- Every mnemonic begins with a letter, whatever its operands are.
  split at heads <;> simp [String.toList_append] at heads

namespace Machine

/-- A picture that shows a machine in every part that reports tell of. -/
structure Depicted (machine : Machine) (picture : Snapshot) : Prop where
  registers : picture.registers = machine.registers
  index : picture.index = machine.index
  programCounter : picture.programCounter = machine.programCounter
  stack : picture.stack = machine.stack.entries
  delay : picture.delay = machine.timers.delay.toNat
  sound : picture.sound = machine.timers.sound.toNat
  opcode : picture.opcode = machine.opcode
  mnemonic : picture.mnemonic = machine.mnemonic
  waiting : picture.waiting = machine.awaiting.isSome
  cycles : picture.cycles = machine.cycles

/-- The machine but for what a cycle that fails may leave: the fault, and what was being carried
out. -/
def Untouched (before after : Machine) (fault : Fault) : Prop :=
  after = { before with
    fault := some fault
    opcode := after.opcode
    instruction := after.instruction }

/-- A picture that shows which instruction failed, and where. -/
structure Shows (before : Machine) (given : Option Instruction) (picture : Snapshot) : Prop where
  programCounter : picture.programCounter = before.programCounter
  handed : ∀ instruction, given = some instruction →
    picture.opcode = instruction.opcode ∧ picture.mnemonic = instruction.mnemonic
  fetched : given = none → ∀ word, fetch before = .ok word before →
    picture.opcode = word ∧
      ∀ instruction, Instruction.decode word before.programCounter = .ok instruction →
        picture.mnemonic = instruction.mnemonic
  placeholder : ∀ word, fetch before = .ok word before →
    (picture.mnemonic = "???" ↔
      given = none ∧ ∃ fault, Instruction.decode word before.programCounter = .error fault)

variable {machine after : Machine} {given : Option Instruction} {trace : Bool}

theorem depicted_snapshot (machine : Machine) : machine.Depicted machine.snapshot :=
  ⟨rfl, rfl, rfl, rfl, rfl, rfl, rfl, rfl, rfl, rfl⟩

/-- There is no other picture of a machine. -/
theorem Depicted.eq_snapshot {picture : Snapshot} (depicted : machine.Depicted picture) :
    picture = machine.snapshot := by
  obtain ⟨_, _, _, _, _, _, _, _, _, _⟩ := picture
  obtain ⟨rfl, rfl, rfl, rfl, rfl, rfl, rfl, rfl, rfl, rfl⟩ := depicted
  rfl

/-- A word that can be fetched is the one that is decoded and shown. -/
theorem next_of_fetch {word : Int} (found : fetch machine = .ok word machine) :
    machine.next = Instruction.decode word machine.programCounter ∧
      machine.fetched.opcode = word := by
  obtain ⟨readable, rfl⟩ := word_of_fetch found
  exact ⟨by rw [next, readable], by rw [fetched, readable]; rfl⟩

/-- A machine halted over an instruction it holds shows that instruction. -/
theorem shows_holding (instruction : Instruction) (fault : Fault)
    (source : given = some instruction ∨ given = none ∧ machine.next = .ok instruction) :
    machine.Shows given ((machine.holding instruction).halted fault).snapshot where
  programCounter := rfl
  handed other handed := by
    rcases source with rfl | ⟨rfl, -⟩
    · cases handed
      exact ⟨rfl, rfl⟩
    · cases handed
  fetched absent word found := by
    rcases source with rfl | ⟨-, next⟩
    · cases absent
    · rw [(next_of_fetch found).1] at next
      refine ⟨Instruction.opcode_of_decode next, fun other decoded => ?_⟩
      rw [next] at decoded
      cases decoded
      rfl
  placeholder word found := by
    constructor
    · intro placeholder
      exact absurd placeholder instruction.mnemonic_ne_placeholder
    · rintro ⟨rfl, fault, refused⟩
      rcases source with absurdity | ⟨-, next⟩
      · cases absurdity
      · rw [(next_of_fetch found).1, refused] at next
        cases next

/-- A machine halted over what it could not fetch or decode shows the word, if there is one, and
the placeholder. -/
theorem shows_fetched {cause fault : Fault} (absent : machine.next = .error cause) :
    machine.Shows none (machine.fetched.halted fault).snapshot where
  programCounter := rfl
  handed _ handed := by cases handed
  fetched _ word found := by
    obtain ⟨next, opcode⟩ := next_of_fetch found
    refine ⟨opcode, fun instruction decoded => ?_⟩
    rw [next, decoded] at absent
    cases absent
  placeholder word found := by
    rw [(next_of_fetch found).1] at absent
    exact ⟨fun _ => ⟨rfl, cause, absent⟩, fun _ => rfl⟩

/-! ### Failed cycles -/

/-- A cycle that fails leaves the machine untouched, but for what shows the failure. -/
theorem untouched_of_failed (proper : machine.display.Proper) (running : machine.fault = none)
    (idle : machine.awaiting = none) {trap : Trap}
    (failed : attempt given trace machine = .error trap after)
    (error : trap.isMachineError = true) :
    ∃ fault, trap = .fault fault ∧ machine.Untouched after fault ∧
      machine.Shows given after.snapshot := by
  have handing (instruction : Instruction)
      (source : given = some instruction ∨ given = none ∧ machine.next = .ok instruction)
      (executed : execute instruction trace machine = .error trap after) :
      ∃ fault, trap = .fault fault ∧ machine.Untouched after fault ∧
        machine.Shows given after.snapshot := by
    have outcome := execute_outcome instruction trace (fun _ => proper) running idle
    rw [executed] at outcome
    cases outcome with
    | faulted fault => exact ⟨fault, rfl, rfl, shows_holding instruction fault source⟩
    | misused _ memory random misuse =>
      rw [trap.isMisuse_of_isMachineError error] at misuse
      cases misuse
  cases given with
  | some instruction => exact handing instruction (.inl rfl) failed
  | none =>
    cases next : machine.next with
    | ok instruction =>
      exact handing instruction (.inr ⟨rfl, next⟩)
        ((step_of_next running idle next).symm.trans failed)
    | error fault =>
      rw [attempt, step_of_absent running idle next] at failed
      cases failed
      exact ⟨fault, rfl, rfl, shows_fetched next⟩

/-- Whatever was asked of a machine before, hand-made instructions and resets to any address
included: a cycle that fails leaves everything as it was but the fault and what shows the failure,
and wherever the program counter may rest there is a word that it shows. -/
theorem failed_cycle_atomic {rom : Option (List UInt8)} {speed : Option ClockSpeed}
    {dialect : Dialect} {bytes : Nat → UInt8} {new : Machine}
    (built : boot rom speed dialect bytes = .ok new) (actions : List Action)
    (reached : machine = new.actAll actions) (running : machine.fault = none)
    (idle : machine.awaiting = none) (given : Option Instruction) (trace : Bool) {trap : Trap}
    (failed : attempt given trace machine = .error trap after)
    (error : trap.isMachineError = true) :
    ∃ fault, trap = .fault fault ∧ machine.Untouched after fault ∧
      machine.Shows given after.snapshot ∧
      (Layout.InProgram machine.programCounter → ∃ word, fetch machine = .ok word machine) := by
  have intact : machine.Intact := reached ▸ intact_of_boot built actions
  obtain ⟨fault, same, untouched, shows⟩ :=
    untouched_of_failed intact.proper running idle failed error
  exact ⟨fault, same, untouched, shows, fun inside =>
    ⟨machine.word, fetch_of_readable machine (intact.readable inside)⟩⟩

/-- A return handed to a new machine, which has no call to return from. -/
theorem failed_cycle_atomic_return :
    let returning := Instruction.ofFields .returnFromCall 0x00EE
    ∃ machine after fault, boot (some [0x12, 0x00]) none
        (Dialect.ofChoices none none none none) (fun _ => 0) = .ok machine ∧
      attempt (some returning) true machine = .error (.fault fault) after ∧
      machine.Untouched after fault ∧ machine.Shows (some returning) after.snapshot := by
  intro returning
  have built := boot_standard [0x12, 0x00] (by decide)
    (Dialect.ofChoices none none none none) fun _ => 0
  have proper := (intact_booted Pace.standard (Dialect.ofChoices none none none none)
    (fun _ => 0) [0x12, 0x00]).proper
  have range : returning.InRange := Instruction.inRange_ofFields _ _
  have failed := (execute_outcome returning true (fun _ => proper) rfl rfl).eq_error range rfl
  obtain ⟨fault, same, untouched, shows, -⟩ :=
    failed_cycle_atomic built [] rfl rfl rfl (some returning) true failed rfl
  rw [same] at failed
  exact ⟨_, _, fault, built, failed, untouched, shows⟩

end Machine

end Chip8
