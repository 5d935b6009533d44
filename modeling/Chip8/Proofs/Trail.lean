/-
This file follows a machine along its cycles and keeps a record of what they
carried out.

A trail leads from one machine to another by cycles that succeed, each of an
instruction that was handed in or fetched, or of a machine that waits. Between
the cycles the owner may do anything but reset. The record has an entry for
everything that was done, with the machine it was done to, so what is asked of a
run can be asked of the entries one by one. The first such question is which
addresses are written: at any other, a run leaves the byte as it was.
-/

import Chip8.Proofs.Brackets

namespace Chip8

namespace Machine

/-- The instruction that a cycle carries out. A machine that waits carries none out. -/
def carried? (machine : Machine) (given : Option Instruction) : Option Instruction :=
  match machine.awaiting, given with
  | some _, _ => none
  | none, some instruction => some instruction
  | none, none => machine.next.toOption

/-- One thing done in a run. -/
inductive Deed where
  /-- A cycle of a machine, and the instruction it carried out, if the machine did not wait. -/
  | cycle (before : Machine) (instruction : Option Instruction)
  /-- Something done around the cycles. -/
  | aside (before after : Machine)

/-- What is done to one machine makes another of it. -/
inductive Done : Machine → Deed → Machine → Prop
  | cycle {before after : Machine} (given : Option Instruction) (trace : Bool)
      (report : CycleReport) (ran : attempt given trace before = .ok report after) :
      Done before (.cycle before (before.carried? given)) after
  | aside {before after : Machine} (passes : Aside before after) :
      Done before (.aside before after) after

/-- A run, with the record of what was done in it. -/
inductive Trail : Machine → List Deed → Machine → Prop
  | nil {machine : Machine} : Trail machine [] machine
  | cons {first second last : Machine} {deed : Deed} {deeds : List Deed}
      (step : Done first deed second) (rest : Trail second deeds last) :
      Trail first (deed :: deeds) last

/-- An instruction that is carried out on a machine stores a byte at an address. -/
def Stores (machine : Machine) (instruction : Instruction) (address : Int) : Prop :=
  machine.index ≤ address ∧ address < machine.index + instruction.storedCount

/-- A deed writes at an address. What is done around the cycles has written where a byte differs
after it. -/
def Deed.Writes : Deed → Int → Prop
  | .cycle before instruction, address =>
      ∃ carried, instruction = some carried ∧ before.Stores carried address
  | .aside before after, address =>
      after.memory.byteAt address ≠ before.memory.byteAt address

/-- A deed carries an instruction out. -/
def Deed.Carries (deed : Deed) (instruction : Instruction) : Prop :=
  ∃ before, deed = .cycle before (some instruction)

variable {machine before after first last : Machine} {deed : Deed} {deeds : List Deed}
  {given : Option Instruction} {instruction : Instruction} {notes : List Effect} {address : Int}

/-! ### One entry -/

theorem carried?_of_carries (carries : machine.Carries given instruction) :
    machine.carried? given = some instruction := by
  unfold carried?
  rw [carries.idle]
  cases given with
  | some handed =>
    rcases carries.takes with same | ⟨absurdity, -⟩
    · exact same
    · cases absurdity
  | none =>
    dsimp only
    rw [next_of_takes carries.takes]
    rfl

theorem carried?_of_waiting {register : Int} (waiting : machine.awaiting = some register) :
    machine.carried? given = none := by
  unfold carried?
  rw [waiting]

/-- What a cycle leaves in memory and of the index: what its instruction leaves there, and what
was there, if it carried none out. -/
theorem Succeeded.leaves (succeeded : machine.Succeeded given notes after) :
    (∃ instruction, machine.carried? given = some instruction ∧
        machine.obstacle? instruction = none ∧ after = machine.retired instruction) ∨
      machine.carried? given = none ∧ after.memory = machine.memory ∧
        after.index = machine.index := by
  cases succeeded with
  | retired instruction carries clear =>
    exact .inl ⟨instruction, carried?_of_carries carries, clear, rfl⟩
  | waited register waiting => exact .inr ⟨carried?_of_waiting waiting, rfl, rfl⟩
  | woken register key waiting => exact .inr ⟨carried?_of_waiting waiting, rfl, rfl⟩

theorem Done.intact (step : Done before deed after) (intact : before.Intact) : after.Intact := by
  cases step with
  | cycle given trace report ran => exact (moves_of_attempt intact ran).intact intact
  | aside passes => exact passes.intact intact

/-- Where nothing was written, the byte is as it was. -/
theorem Done.byteAt (step : Done before deed after) (intact : before.Intact)
    (spared : ¬ deed.Writes address) :
    after.memory.byteAt address = before.memory.byteAt address := by
  cases step with
  | aside => exact Decidable.not_not.mp spared
  | cycle given trace report ran =>
    obtain ⟨notes, succeeded, -⟩ := succeeded_of_attempt intact.proper ran
    rcases succeeded.leaves with ⟨instruction, carried, clear, rfl⟩ | ⟨-, memory, -⟩
    · refine (byteAt_memoryAfter clear address).trans (if_neg fun stores => spared ?_)
      exact ⟨instruction, carried, stores⟩
    · rw [memory]

/-- Handed in with nothing in its way, an instruction is carried out. -/
theorem attempt_of_clear (intact : machine.Intact) (running : machine.fault = none)
    (idle : machine.awaiting = none) (range : instruction.InRange)
    (clear : machine.obstacle? instruction = none) (trace : Bool) :
    attempt (some instruction) trace machine =
      .ok (machine.reportOf (machine.retired instruction) (machine.notes instruction) trace)
        (machine.retired instruction) :=
  (execute_outcome instruction trace (fun _ => intact.proper) running idle).eq_ok range clear

theorem act_of_clear (intact : machine.Intact) (running : machine.fault = none)
    (idle : machine.awaiting = none) (range : instruction.InRange)
    (clear : machine.obstacle? instruction = none) (trace : Bool) :
    (machine.act (.execute instruction trace)).2 = machine.retired instruction := by
  have ran := attempt_of_clear intact running idle range clear trace
  rw [attempt] at ran
  rw [act, answering_snd, Routine.leaves, ran]

/-! ### Whole runs -/

theorem Trail.intact (trail : Trail first deeds last) (intact : first.Intact) : last.Intact := by
  induction trail with
  | nil => exact intact
  | cons step _ inductionHypothesis => exact inductionHypothesis (step.intact intact)

/-- Where a run does not write, the byte is as it was. -/
theorem Trail.byteAt (trail : Trail first deeds last) (intact : first.Intact)
    (spared : ∀ deed ∈ deeds, ¬ deed.Writes address) :
    last.memory.byteAt address = first.memory.byteAt address := by
  induction trail with
  | nil => rfl
  | cons step _ inductionHypothesis =>
    rw [inductionHypothesis (step.intact intact) fun deed member =>
      spared deed (List.mem_cons_of_mem _ member)]
    exact step.byteAt intact (spared _ List.mem_cons_self)

end Machine

end Chip8
