/-
This file proves that it makes no difference how an instruction comes into a
cycle.

Fetched and decoded or handed in, it does the same. What it does goes by its
operation and operands; the opcode it carries is only passed on to the reports,
so under another opcode it comes to the same but for that. And once it is handed
in, the bytes at the program counter are no longer looked at. Two memories that
differ anywhere but in the block that the instruction loads give the same result,
and afterwards each of their bytes is either the same in both or in both still
what it was.
-/

import Chip8.Proofs.Guise

namespace Chip8

namespace Machine

/-- The machine with another opcode in place of the one it holds. -/
def underOpcode (machine : Machine) (opcode : Int) : Machine :=
  { machine with
    opcode := opcode
    instruction := machine.instruction.map fun held => { held with opcode := opcode } }

/-- What a cycle comes to, reported under another opcode. -/
def reportedUnder (opcode : Int) :
    EStateM.Result Trap Machine CycleReport → EStateM.Result Trap Machine CycleReport
  | .ok report after => .ok { report with opcode := opcode } (after.underOpcode opcode)
  | .error trap after => .error trap (after.underOpcode opcode)

end Machine

/-! ### Other opcodes -/

theorem RandomSource.next_id (source : RandomSource) :
    (id source).next = (source.next.1, id source.next.2) :=
  rfl

/-- The guise of another opcode. -/
def Guise.ofOpcode (opcode : Int) : Guise where
  pace := id
  opcode := fun _ => opcode
  instruction := Option.map fun held => { held with opcode := opcode }
  fault := id
  cycles := id
  random := id
  draws := RandomSource.next_id

namespace Machine

variable {machine : Machine} {trace : Bool}

theorem retire_ofOpcode (instruction : Instruction) (opcode : Int) :
    retire { instruction with opcode := opcode } machine =
      (Guise.ofOpcode opcode).onResult (retire instruction machine) := by
  have carriedOut : (Guise.ofOpcode opcode).Fools
      (if !instruction.operation.branches then
        get >>= fun machine => demand (checkProgramCounter (machine.programCounter + 2)) >>=
          fun _ => perform instruction
      else perform instruction) :=
    Guise.fools_ite (.look (fun _ => rfl) fun _ =>
      (Guise.fools_demand _).bind fun _ => Guise.fools_perform instruction)
      (Guise.fools_perform instruction)
  exact carriedOut (machine.holding instruction)

/-- The text of an instruction does not show its opcode. -/
theorem reportOf_underOpcode (machine after : Machine) (notes : List Effect) (opcode : Int) :
    machine.reportOf (after.underOpcode opcode) notes trace =
      { machine.reportOf after notes trace with opcode := opcode } := by
  have text : (after.underOpcode opcode).mnemonic = after.mnemonic := by
    unfold mnemonic underOpcode
    cases after.instruction <;> rfl
  simp only [reportOf, text]
  rfl

theorem execute_ofOpcode (running : machine.fault = none) (idle : machine.awaiting = none)
    (instruction : Instruction) (opcode : Int) :
    execute { instruction with opcode := opcode } trace machine =
      reportedUnder opcode (execute instruction trace machine) := by
  rw [execute_of_running _ running idle, execute_of_running _ running idle, retire_ofOpcode]
  cases retire instruction machine with
  | ok completion after =>
    let moved := { after with programCounter := completion.next, cycles := after.cycles + 1 }
    have report : machine.reportOf (moved.underOpcode opcode) completion.notes trace = _ :=
      reportOf_underOpcode machine moved completion.notes opcode
    show EStateM.Result.ok (machine.reportOf (moved.underOpcode opcode) completion.notes trace)
      (moved.underOpcode opcode) = _
    rw [report]
    rfl
  | error trap after => cases trap <;> rfl

end Machine

/-! ### Other memories -/

/-- Two memories made of two others. An address holds the same byte in both, or in each what it
held before. -/
structure Memory.Parallel (before before' after after' : Memory) : Prop where
  size : after'.size = after.size
  bytes : ∀ address, after'.byteAt address = after.byteAt address ∨
    after.byteAt address = before.byteAt address ∧ after'.byteAt address = before'.byteAt address

theorem Memory.Parallel.refl {memory other : Memory} (size : other.size = memory.size) :
    Parallel memory other memory other where
  size := size
  bytes _ := .inr ⟨rfl, rfl⟩

theorem Memory.Parallel.store {before before' after after' : Memory} {location : Int}
    (parallel : Parallel before before' after after') (byte : UInt8)
    (present : after.missing? location 1 = none) :
    Parallel before before' (after.place location [byte]) (after'.place location [byte]) where
  size := by rw [size_place, size_place, parallel.size]
  bytes address := by
    obtain ⟨nonneg, inside⟩ := missing?_eq_none_iff.mp present
    have inside' : location + ([byte].length : Nat) ≤ after'.size := by
      rw [parallel.size]
      exact inside
    rw [byteAt_place after [byte] nonneg inside, byteAt_place after' [byte] nonneg inside']
    by_cases here : location ≤ address ∧ address < location + ([byte].length : Nat)
    · rw [if_pos here, if_pos here]
      exact .inl rfl
    · rw [if_neg here, if_neg here]
      exact parallel.bytes address

/-- Machines that differ in their memories only, and in these no more than two memories did. -/
def Likeness.ofMemories (before before' : Memory) : Likeness where
  Alike machine other := other = { machine with memory := other.memory } ∧
    Memory.Parallel before before' machine.memory other.memory
  parts := by
    rintro machine other ⟨same, -⟩
    rw [same]
    rfl
  size := by
    rintro machine other ⟨-, parallel⟩
    exact parallel.size
  byte := by
    rintro machine other ⟨same, -⟩
    rw [same]
  changed := by
    rintro machine other ⟨same, parallel⟩ parts
    refine ⟨?_, parallel⟩
    rw [same]
    rfl
  stored := by
    rintro machine other ⟨same, parallel⟩ address byte present
    refine ⟨?_, parallel.store byte present⟩
    rw [same]
    rfl
  drawn := by
    rintro machine other ⟨same, parallel⟩
    refine ⟨?_, parallel⟩
    rw [same]
    rfl

namespace Machine

variable {machine : Machine} {trace : Bool}

theorem meets_retire {before before' : Memory} {other : Machine}
    (alike : (Likeness.ofMemories before before').Alike machine other) (instruction : Instruction)
    (loads : other.loaded instruction = machine.loaded instruction) :
    (Likeness.ofMemories before before').Meets (retire instruction machine)
      (retire instruction other) := by
  have held : (Likeness.ofMemories before before').Alike (machine.holding instruction)
      (other.holding instruction) := by
    obtain ⟨same, parallel⟩ := alike
    refine ⟨?_, parallel⟩
    rw [same]
    rfl
  have performed := Likeness.meets_perform held instruction loads
  have here : other.programCounter = machine.programCounter :=
    congrArg Parts.programCounter ((Likeness.ofMemories before before').parts alike)
  unfold retire
  rw [Routine.bind_apply, Routine.bind_apply, Routine.modify_apply, Routine.modify_apply]
  cases instruction.operation.branches with
  | true => exact performed
  | false =>
    show Likeness.Meets _
      ((demand (checkProgramCounter (machine.programCounter + 2)) >>= fun _ =>
        perform instruction) (machine.holding instruction))
      ((demand (checkProgramCounter (other.programCounter + 2)) >>= fun _ =>
        perform instruction) (other.holding instruction))
    rw [here]
    cases checkProgramCounter (machine.programCounter + 2) with
    | ok => exact performed
    | error trap => exact .error trap held

theorem meets_execute (running : machine.fault = none) (idle : machine.awaiting = none)
    (instruction : Instruction) {memory : Memory} (size : memory.size = machine.memory.size)
    (loads : { machine with memory := memory }.loaded instruction = machine.loaded instruction) :
    (Likeness.ofMemories machine.memory memory).Meets (execute instruction trace machine)
      (execute instruction trace { machine with memory := memory }) := by
  have met := meets_retire (show (Likeness.ofMemories machine.memory memory).Alike machine
    { machine with memory := memory } from ⟨rfl, .refl size⟩) instruction loads
  have running' : { machine with memory := memory }.fault = none := running
  have idle' : { machine with memory := memory }.awaiting = none := idle
  rw [execute_of_running instruction running idle, execute_of_running instruction running' idle']
  generalize retire instruction machine = result,
    retire instruction { machine with memory := memory } = result' at met
  cases met with
  | @ok completion after after' alike =>
    obtain ⟨same, parallel⟩ := alike
    generalize after'.memory = memory' at same parallel
    subst same
    exact .ok _ ⟨rfl, parallel⟩
  | @error trap after after' alike =>
    obtain ⟨same, parallel⟩ := alike
    generalize after'.memory = memory' at same parallel
    subst same
    cases trap <;> exact .error _ ⟨rfl, parallel⟩

/-! ### Every way in -/

/-- On a machine that runs and does not wait, a fetched instruction does what it does when it is
handed in, failing included; under another opcode an instruction, even a hand-made one, comes to
the same but for that opcode; and on another memory in which it loads the same bytes, whatever lies
at the program counter, it comes to the same, with no byte written in the one but not in the
other. -/
theorem handed_as_fetched (running : machine.fault = none) (idle : machine.awaiting = none)
    (trace : Bool) :
    (∀ word instruction, fetch machine = .ok word machine →
      Instruction.decode word machine.programCounter = .ok instruction →
        step trace machine = execute instruction trace machine) ∧
      ∀ instruction : Instruction,
        (∀ opcode, execute { instruction with opcode := opcode } trace machine =
          reportedUnder opcode (execute instruction trace machine)) ∧
        ∀ memory : Memory, memory.size = machine.memory.size →
          { machine with memory := memory }.loaded instruction = machine.loaded instruction →
            (Likeness.ofMemories machine.memory memory).Meets (execute instruction trace machine)
              (execute instruction trace { machine with memory := memory }) := by
  refine ⟨fun word instruction found decoded => ?_, fun instruction =>
    ⟨execute_ofOpcode running idle instruction, fun memory =>
      meets_execute running idle instruction⟩⟩
  obtain ⟨readable, rfl⟩ := word_of_fetch found
  refine step_of_next running idle ?_
  rw [next, readable]
  exact decoded

/-- A program that loads a byte into `V1`, the same instruction under no opcode, and the same
instruction on a blank memory. -/
theorem handed_as_fetched_blank :
    let dialect := Dialect.ofChoices none none none none
    let instruction := Instruction.ofFields .loadByte (Byte.word 0x61 0x05)
    ∃ new, boot (some [0x61, 0x05]) none dialect (fun _ => 0) = .ok new ∧
      step true new = execute instruction true new ∧
      execute { instruction with opcode := 0 } true new =
        reportedUnder 0 (execute instruction true new) ∧
      (Likeness.ofMemories new.memory (Memory.blank new.memory.size)).Meets
        (execute instruction true new)
        (execute instruction true { new with memory := Memory.blank new.memory.size }) := by
  intro dialect instruction
  let new := booted Pace.standard dialect (fun _ => 0) [0x61, 0x05]
  have built := boot_standard [0x61, 0x05] (by decide) dialect fun _ => 0
  have readable : new.unreadable? = none :=
    (intact_booted _ _ _ _).readable (show Layout.InProgram Layout.programStart by decide)
  have word : new.word = Byte.word 0x61 0x05 := word_booted _ _ _ _ _ [] (by decide)
  have found := fetch_of_readable new readable
  rw [word] at found
  have running : new.fault = none := rfl
  have idle : new.awaiting = none := rfl
  obtain ⟨fetched, handed⟩ := handed_as_fetched running idle true
  obtain ⟨renamed, remembered⟩ := handed instruction
  have decoded : Instruction.decode (Byte.word 0x61 0x05) Layout.programStart = .ok instruction :=
    rfl
  have nothing (machine : Machine) : machine.loaded instruction = [] := rfl
  exact ⟨new, built, fetched _ instruction found decoded, renamed 0,
    remembered _ (Memory.size_blank _) ((nothing _).trans (nothing new).symm)⟩

end Machine

end Chip8
