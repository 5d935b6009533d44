/-
This file proves that the report of a cycle accounts for the cycle, no more and
no less.

A report is put together from two sources: the parts that are compared before
and after the cycle, and the notes that some operations make of memory and
display. That nothing falls between the two is a fact about the operations. The
bytes noted are the block an instruction stores, with the values that memory
holds afterwards, and the display changes only where that is noted. The stack
changes by one place at most, so telling the newest place is enough. Going
through the lines of a report therefore takes everything it tells of from what
it was to what it is, and whatever it does not name is as it was.
-/

import Chip8.Machine.Snapshot
import Chip8.Proofs.Brackets
import Chip8.Proofs.Lines

namespace Chip8.Machine

open Effect

/-- The parts of the machine that a report tells of with their values. -/
def ledger (machine : Machine) : Ledger where
  registers := machine.registers
  index := machine.index
  programCounter := machine.programCounter
  stack := machine.stack.entries
  timers := machine.timers
  memory := machine.memory

/-- What effects have to say of memory and display. -/
structure Notes (before : Machine) (given : Option Instruction) (after : Machine)
    (effects : List Effect) : Prop where
  stored : ∀ address byte, .stored address byte ∈ effects ↔
    (∃ instruction, before.Carries given instruction ∧
      before.index ≤ address ∧ address < before.index + instruction.storedCount) ∧
      after.memory.byteAt address = byte
  /-- Every byte that is not named is as it was. -/
  unstored : ∀ address, (∀ byte, .stored address byte ∉ effects) →
    after.memory.byteAt address = before.memory.byteAt address
  cleared : .displayCleared ∈ effects ↔
    ∃ instruction, before.Carries given instruction ∧ instruction.operation = .clearDisplay
  drawn : ∀ hit, .displayDrawn hit ∈ effects ↔
    ∃ instruction, before.Carries given instruction ∧ instruction.operation = .drawSprite ∧
      hit = (after.registers.get Registers.flag != 0)
  undrawn : .displayCleared ∉ effects → (∀ hit, .displayDrawn hit ∉ effects) →
    after.display = before.display

/-- The effects of a cycle are exactly the change it made. -/
structure Accounts (before : Machine) (given : Option Instruction) (after : Machine)
    (effects : List Effect) : Prop
    extends Compares before.ledger.toVisible after.ledger.toVisible effects,
      Notes before given after effects where
  ordered : effects.Pairwise Precedes
  /-- A stack that changed has its line. -/
  restacked : after.stack.entries ≠ before.stack.entries →
    ∃ address, .pushed address ∈ effects ∨ .popped address ∈ effects
  replays : replayAll before.ledger effects = after.ledger

variable {machine after : Machine} {given : Option Instruction} {instruction : Instruction}
  {notes : List Effect} {report : CycleReport}

/-! ### What an instruction notes -/

theorem mem_storedNotes {address : Int} {block : List UInt8} {effect : Effect} :
    effect ∈ storedNotes address block ↔
      ∃ offset < block.length, effect = .stored (address + offset) (block.getD offset 0) := by
  induction block generalizing address with
  | nil => simp [storedNotes]
  | cons byte rest inductionHypothesis =>
    rw [storedNotes, List.mem_cons, inductionHypothesis]
    constructor
    · rintro (rfl | ⟨offset, small, rfl⟩)
      · exact ⟨0, Nat.zero_lt_succ _, by simp⟩
      · refine ⟨offset + 1, Nat.succ_lt_succ small, ?_⟩
        rw [List.getD_cons_succ, Int.natCast_add, Int.natCast_one, Int.add_assoc,
          Int.add_comm (offset : Int) 1]
    · rintro ⟨_ | offset, small, rfl⟩
      · exact .inl (by simp)
      · refine .inr ⟨offset, Nat.lt_of_succ_lt_succ small, ?_⟩
        rw [List.getD_cons_succ, Int.natCast_add, Int.natCast_one, Int.add_assoc,
          Int.add_comm (offset : Int) 1]

theorem spans_storedNotes (address : Int) (block : List UInt8) :
    Spans 5 6 (storedNotes address block) where
  ordered := by
    induction block generalizing address with
    | nil => exact .nil
    | cons byte rest inductionHypothesis =>
      refine List.pairwise_cons.mpr ⟨fun effect member => ?_, inductionHypothesis (address + 1)⟩
      obtain ⟨offset, -, rfl⟩ := mem_storedNotes.mp member
      exact .inr ⟨rfl, show address < address + 1 + offset by omega⟩
  within effect member := by
    obtain ⟨_, -, rfl⟩ := mem_storedNotes.mp member
    exact ⟨Nat.le_refl 5, Nat.lt_succ_self 5⟩

theorem replayAll_storedNotes (visible : Visible) (memory : Memory) {address : Int}
    (block : List UInt8) (nonneg : 0 ≤ address) :
    replayAll ⟨visible, memory⟩ (storedNotes address block) =
      ⟨visible, memory.place address block⟩ := by
  induction block generalizing memory address with
  | nil => rfl
  | cons byte rest inductionHypothesis =>
    rw [Memory.place_cons memory nonneg]
    exact inductionHypothesis (memory.place address [byte]) (by omega)

theorem spans_notes (machine : Machine) (instruction : Instruction) :
    Spans 5 7 (machine.notes instruction) := by
  have display (effect : Effect) (part : effect.part = 6) : Spans 5 7 [effect] :=
    (spans_singleton effect).mono (by omega) (by omega)
  unfold Machine.notes
  split
  · exact display .displayCleared rfl
  · exact display (.displayDrawn _) rfl
  · exact (spans_storedNotes _ _).mono (by decide) (by decide)

theorem replayAll_notes (clear : machine.obstacle? instruction = none) (visible : Visible) :
    replayAll ⟨visible, machine.memory⟩ (machine.notes instruction) =
      ⟨visible, machine.memoryAfter instruction⟩ := by
  have storing : replayAll ⟨visible, machine.memory⟩
      (storedNotes machine.index (machine.stored instruction)) =
        ⟨visible, machine.memoryAfter instruction⟩ := by
    by_cases stores : 0 < instruction.storedCount
    · exact replayAll_storedNotes visible machine.memory _ (stored_inside clear stores).1
    · have length := length_stored machine instruction
      have nothing : machine.stored instruction = [] := List.eq_nil_of_length_eq_zero (by omega)
      rw [memoryAfter, nothing]
      rfl
  obtain ⟨operation, opcode, x, y, n, kk, nnn⟩ := instruction
  cases operation with
  | clearDisplay | drawSprite => rfl
  | _ => exact storing

theorem mem_notes_stored (clear : machine.obstacle? instruction = none) {address : Int}
    {byte : UInt8} :
    .stored address byte ∈ machine.notes instruction ↔
      (machine.index ≤ address ∧ address < machine.index + instruction.storedCount) ∧
        (machine.memoryAfter instruction).byteAt address = byte := by
  have storing : .stored address byte ∈
        storedNotes machine.index (machine.stored instruction) ↔
      (machine.index ≤ address ∧ address < machine.index + instruction.storedCount) ∧
        (machine.memoryAfter instruction).byteAt address = byte := by
    have length := length_stored machine instruction
    rw [mem_storedNotes]
    constructor
    · rintro ⟨offset, small, same⟩
      obtain ⟨rfl, rfl⟩ := Effect.stored.inj same
      have inside : machine.index ≤ machine.index + offset ∧
          machine.index + offset < machine.index + instruction.storedCount := by omega
      rw [byteAt_memoryAfter clear, if_pos inside,
        show machine.index + offset - machine.index = offset by omega, Int.toNat_natCast]
      exact ⟨inside, rfl⟩
    · rintro ⟨inside, rfl⟩
      refine ⟨(address - machine.index).toNat, by omega, ?_⟩
      rw [byteAt_memoryAfter clear, if_pos inside,
        show machine.index + (address - machine.index).toNat = address by omega]
  obtain ⟨operation, opcode, x, y, n, kk, nnn⟩ := instruction
  cases operation with
  | clearDisplay | drawSprite =>
    refine ⟨fun member => ?_, fun ⟨⟨above, below⟩, _⟩ => ?_⟩
    · cases List.mem_singleton.mp member
    · exact absurd (Int.lt_of_le_of_lt above below) (by simp [Instruction.storedCount])
  | _ => exact storing

theorem mem_notes_cleared :
    .displayCleared ∈ machine.notes instruction ↔ instruction.operation = .clearDisplay := by
  unfold Machine.notes
  split
  · next operation => simp [operation]
  · next operation => simp [operation]
  · next other _ => exact iff_of_false (by simp [mem_storedNotes]) other

theorem mem_notes_drawn {hit : Bool} :
    .displayDrawn hit ∈ machine.notes instruction ↔
      instruction.operation = .drawSprite ∧ hit = (machine.sprite instruction).1 := by
  unfold Machine.notes
  split
  · next operation => simp [operation]
  · next operation => simp [operation]
  · next _ other => exact iff_of_false (by simp [mem_storedNotes]) fun drawn => other drawn.1

/-! ### What a cycle notes -/

/-- A fact about the instruction that a cycle carries out. -/
theorem Carries.exists_iff {property : Instruction → Prop}
    (carries : machine.Carries given instruction) :
    (∃ other, machine.Carries given other ∧ property other) ↔ property instruction := by
  constructor
  · rintro ⟨other, carried, holds⟩
    cases carries.unique carried
    exact holds
  · exact fun holds => ⟨instruction, carries, holds⟩

theorem notes_retired (carries : machine.Carries given instruction)
    (clear : machine.obstacle? instruction = none) :
    Notes machine given (machine.retired instruction) (machine.notes instruction) where
  stored address byte := by
    rw [carries.exists_iff, mem_notes_stored clear]
    rfl
  unstored address unnamed := by
    show (machine.memoryAfter instruction).byteAt address = _
    rw [byteAt_memoryAfter clear, if_neg]
    exact fun inside => unnamed _ ((mem_notes_stored clear).mpr ⟨inside, rfl⟩)
  cleared := by rw [carries.exists_iff, mem_notes_cleared]
  drawn hit := by
    rw [carries.exists_iff, mem_notes_drawn]
    refine and_congr_right fun draws => ?_
    have flag : (machine.retired instruction).registers.get Registers.flag =
        (machine.sprite instruction).1.toUInt8 := by
      show (machine.registersAfter instruction).get Registers.flag = _
      rw [registersAfter, draws]
      exact Registers.get_set_self _ _ _
    rw [flag]
    cases (machine.sprite instruction).1 <;> rfl
  undrawn uncleared undrawn := by
    rw [mem_notes_cleared] at uncleared
    have still : instruction.operation ≠ .drawSprite := fun draws =>
      undrawn _ (mem_notes_drawn.mpr ⟨draws, rfl⟩)
    show machine.displayAfter instruction = _
    unfold displayAfter
    split <;> first | contradiction | rfl

theorem not_exists_carries {property : Instruction → Prop} {register : Int}
    (waiting : machine.awaiting = some register) :
    ¬ ∃ instruction, machine.Carries given instruction ∧ property instruction := by
  rintro ⟨_, carries, -⟩
  exact not_carries_of_waiting waiting carries

/-- A cycle that waits notes nothing, as there is nothing to note. -/
theorem notes_of_waiting {register : Int} (waiting : machine.awaiting = some register)
    (memory : after.memory = machine.memory) (display : after.display = machine.display) :
    Notes machine given after [] where
  stored _ _ := iff_of_false List.not_mem_nil fun told => not_exists_carries waiting told.1
  unstored address _ := by rw [memory]
  cleared := iff_of_false List.not_mem_nil (not_exists_carries waiting)
  drawn _ := iff_of_false List.not_mem_nil (not_exists_carries waiting)
  undrawn _ _ := display

theorem Succeeded.noted (succeeded : machine.Succeeded given notes after) :
    Notes machine given after notes := by
  cases succeeded with
  | retired instruction carries clear => exact notes_retired carries clear
  | waited register waiting => exact notes_of_waiting waiting rfl rfl
  | woken register key waiting => exact notes_of_waiting waiting rfl rfl

theorem Succeeded.spans (succeeded : machine.Succeeded given notes after) : Spans 5 7 notes := by
  cases succeeded with
  | retired instruction => exact spans_notes machine instruction
  | waited | woken => exact spans_nil

theorem Succeeded.replays (succeeded : machine.Succeeded given notes after) (visible : Visible) :
    replayAll ⟨visible, machine.memory⟩ notes = ⟨visible, after.memory⟩ := by
  cases succeeded with
  | retired instruction _ clear => exact replayAll_notes clear visible
  | waited | woken => rfl

theorem Stacks.adjacent (stacked : machine.Stacks given after) :
    Adjacent machine.stack.entries after.stack.entries := by
  cases stacked with
  | called _ _ _ pushed => exact pushed ▸ .pushed _
  | returned _ _ _ popped => exact .popped _ popped
  | kept _ same => exact same ▸ .same

/-! ### The report -/

/-- What is said of memory and display is said by the notes alone. -/
theorem Notes.between (noted : Notes machine given after notes)
    (adjacent : Adjacent machine.stack.entries after.stack.entries) :
    Notes machine given after (Effect.between machine.visible after.visible notes) := by
  have stored (address : Int) (byte : UInt8) :
      .stored address byte ∈ Effect.between machine.visible after.visible notes ↔
        .stored address byte ∈ notes :=
    mem_between_of_noted adjacent ⟨by simp [part], by simp [part]⟩
  have cleared : .displayCleared ∈ Effect.between machine.visible after.visible notes ↔
      .displayCleared ∈ notes :=
    mem_between_of_noted adjacent ⟨by simp [part], by simp [part]⟩
  have drawn (hit : Bool) :
      .displayDrawn hit ∈ Effect.between machine.visible after.visible notes ↔
        .displayDrawn hit ∈ notes :=
    mem_between_of_noted adjacent ⟨by simp [part], by simp [part]⟩
  refine ⟨?_, ?_, ?_, ?_, ?_⟩
  · simpa only [stored] using noted.stored
  · simpa only [stored] using noted.unstored
  · simpa only [cleared] using noted.cleared
  · simpa only [drawn] using noted.drawn
  · simpa only [cleared, drawn] using noted.undrawn

theorem Succeeded.accounts (succeeded : machine.Succeeded given notes after) :
    machine.Accounts given after (Effect.between machine.visible after.visible notes) := by
  have adjacent := succeeded.stacked.adjacent
  have compares : Compares machine.visible after.visible _ :=
    compares_between adjacent succeeded.spans
  refine ⟨compares, succeeded.noted.between adjacent, (spans_between succeeded.spans).ordered, ?_,
    replayAll_between adjacent succeeded.replays⟩
  intro changed
  cases succeeded.stacked with
  | called _ _ _ pushed => exact ⟨_, .inl ((compares.pushed _).mpr pushed)⟩
  | returned _ _ _ popped => exact ⟨_, .inr ((compares.popped _).mpr popped)⟩
  | kept _ same => exact absurd same changed

/-- A cycle after which the machine waits has done nothing to report. -/
theorem Succeeded.silent (succeeded : machine.Succeeded given notes after)
    (waiting : after.awaiting.isSome = true) :
    Effect.between machine.visible after.visible notes = [] := by
  cases succeeded with
  | retired instruction carries =>
    obtain ⟨register, awaits⟩ := Option.isSome_iff_exists.mp waiting
    obtain ⟨operation, -⟩ := awaitingAfter_eq_some carries.idle awaits
    obtain ⟨_, opcode, x, y, n, kk, nnn⟩ := instruction
    cases operation
    exact between_same machine.visible
  | waited => exact between_same machine.visible
  | woken => cases waiting

/-- Whatever was asked of a machine before, hand-made instructions included: the report of a cycle
that succeeds and is traced has exactly the change for its effects, no two reports look alike that
are not, and the rest of it is what a snapshot shows after the cycle. -/
theorem effects_account {rom : Option (List UInt8)} {speed : Option ClockSpeed}
    {dialect : Dialect} {bytes : Nat → UInt8} {new : Machine}
    (built : boot rom speed dialect bytes = .ok new) (actions : List Action)
    (reached : machine = new.actAll actions)
    (ran : attempt given true machine = .ok report after) :
    machine.Accounts given after report.effects ∧
      (∀ effects : List Effect, effects.map text = report.effects.map text →
        effects = report.effects) ∧
      report.programCounter = machine.programCounter ∧
      report.opcode = after.snapshot.opcode ∧ report.mnemonic = after.snapshot.mnemonic ∧
      report.waiting = after.snapshot.waiting ∧ after.Depicted after.snapshot ∧
      (report.waiting = true → report.effects = []) := by
  have intact : machine.Intact := reached ▸ intact_of_boot built actions
  obtain ⟨notes, succeeded, rfl⟩ := succeeded_of_attempt intact.proper ran
  exact ⟨succeeded.accounts, fun _ same => List.map_injective_iff.mpr text_injective same,
    rfl, rfl, rfl, rfl, depicted_snapshot after, succeeded.silent⟩

/-- A call, handed to a new machine. -/
theorem effects_account_call :
    let dialect := Dialect.ofChoices none none none none
    let instruction := Instruction.ofFields .call 0x2300
    ∃ new report after, boot (some [0x12, 0x00]) none dialect (fun _ => 0) = .ok new ∧
      execute instruction true new = .ok report after ∧
      report.effects = [.pushed 0x202, .programCounter 0x200 0x300] ∧
      new.Accounts (some instruction) after report.effects := by
  intro dialect instruction
  let new := booted Pace.standard dialect (fun _ => 0) [0x12, 0x00]
  have built := boot_standard [0x12, 0x00] (by decide) dialect fun _ => 0
  have intact : new.Intact := intact_booted _ _ _ _
  have range : instruction.InRange := Instruction.inRange_ofFields _ _
  have ran := (execute_outcome instruction true (fun _ => intact.proper) rfl rfl).eq_ok range rfl
  have told : (new.reportOf (new.retired instruction) (new.notes instruction) true).effects =
      [.pushed 0x202, .programCounter 0x200 0x300] := by decide +kernel
  have handed : attempt (some instruction) true new = _ := ran
  exact ⟨_, _, _, built, ran, told, (effects_account built [] rfl handed).1⟩

end Chip8.Machine
