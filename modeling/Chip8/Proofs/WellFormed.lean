/-
This file proves what holds of a machine at all times, as long as the
instructions it is given have operands in range and it is reset only to places
where the program counter may rest.

The program counter rests in the program, so a word can always be fetched, and
the index addresses sixteen bits. The open return addresses are the places after
calls. A machine that waits for a key is not halted, still holds the instruction
that waits, and has room for the program counter to move past it.

Two of these would not be inductive alone. The cycle that ends a wait moves the
program counter without a check, and is safe because the check was made when the
wait began; a call pushes its return address without one, and is safe because
the program counter rests in the program.
-/

import Chip8.Proofs.Move

namespace Chip8.Machine

/-- A machine that waits for a key in a register. -/
structure Waits (machine : Machine) (register : Int) : Prop where
  inRange : 0 ≤ register ∧ register < 0x10
  running : machine.fault = none
  held : ∃ instruction, machine.instruction = some instruction ∧
    instruction.operation = .awaitKey ∧ instruction.x = register
  room : machine.programCounter + 2 ≤ Layout.programTop

/-- What holds of a machine at all times. Registers, timers and the latch of the keypad are not
mentioned: their types hold them to bytes and keys. -/
structure WellFormed (machine : Machine) : Prop extends Intact machine where
  programCounter : Layout.InProgram machine.programCounter
  index : 0 ≤ machine.index ∧ machine.index ≤ Layout.indexTop
  depth : machine.stack.depth = Layout.stackDepth
  length : (machine.stack.length : Int) ≤ Layout.stackDepth
  returns : ∀ address ∈ machine.stack.entries, 0x202 ≤ address ∧ address ≤ 0xFFF
  waits : ∀ register, machine.awaiting = some register → machine.Waits register

variable {machine after : Machine} {instruction : Instruction}

/-! ### Where an instruction leads -/

theorem leaving?_eq_none_iff {address : Int} :
    leaving? address = none ↔ Layout.InProgram address := by
  unfold leaving?
  simp only [ite_eq_left_iff, reduceCtorEq, imp_false, Decidable.not_not]

/-- Where nothing stands in the way of falling through, the next instruction is in the
program. -/
theorem inProgram_next (clear : machine.obstacle? instruction = none)
    (falls : instruction.operation.branches = false) :
    Layout.InProgram (machine.programCounter + 2) := by
  obtain ⟨ahead, -⟩ := Option.or_eq_none_iff.mp clear
  rw [if_neg (by rw [falls]; decide)] at ahead
  exact leaving?_eq_none_iff.mp ahead

/-- An instruction with nothing in its way leads into the program, unless it stays where it is. -/
theorem inProgram_destination_of_ne (moves : instruction.operation ≠ .awaitKey)
    (clear : machine.obstacle? instruction = none) :
    Layout.InProgram (machine.destination instruction) := by
  have falls := inProgram_next clear
  obtain ⟨-, unhindered⟩ := Option.or_eq_none_iff.mp clear
  have skipping (condition : Bool) (next : Layout.InProgram (machine.programCounter + 2))
      (past : (if condition then leaving? (machine.programCounter + 4) else none) = none) :
      Layout.InProgram (machine.programCounter + if condition then 4 else 2) := by
    cases condition with
    | false => exact next
    | true => exact leaving?_eq_none_iff.mp past
  obtain ⟨operation, opcode, x, y, n, kk, nnn⟩ := instruction
  unfold hindrance? at unhindered
  cases operation with
  | returnFromCall =>
    show Layout.InProgram (machine.stack.entries.getLastD 0)
    rw [List.getLastD_eq_getLast?]
    dsimp only at unhindered
    split at unhindered
    · next address newest =>
      rw [newest]
      exact leaving?_eq_none_iff.mp unhindered
    · cases unhindered
  | jump => exact leaving?_eq_none_iff.mp unhindered
  | jumpOffset => exact leaving?_eq_none_iff.mp unhindered
  | call =>
    exact leaving?_eq_none_iff.mp (Option.or_eq_none_iff.mp unhindered).1
  | awaitKey => exact absurd rfl moves
  | skipIfByte | skipUnlessByte | skipIfEqual | skipUnlessEqual | skipIfHeld | skipUnlessHeld =>
    exact skipping _ (falls rfl) unhindered
  | _ => exact falls rfl

theorem destination_of_awaitKey (stays : instruction.operation = .awaitKey) :
    machine.destination instruction = machine.programCounter := by
  rw [destination, stays]

/-- An instruction with nothing in its way leads into the program. -/
theorem inProgram_destination (here : Layout.InProgram machine.programCounter)
    (clear : machine.obstacle? instruction = none) :
    Layout.InProgram (machine.destination instruction) := by
  by_cases stays : instruction.operation = .awaitKey
  · rw [destination_of_awaitKey stays]
    exact here
  · exact inProgram_destination_of_ne stays clear

/-! ### What an instruction leaves -/

/-- The index saturates, and no operand in range takes it below zero. -/
theorem bounded_indexAfter (range : instruction.InRange)
    (index : 0 ≤ machine.index ∧ machine.index ≤ Layout.indexTop) :
    0 ≤ machine.indexAfter instruction ∧
      machine.indexAfter instruction ≤ Layout.indexTop := by
  have operand := range.x
  have address := range.nnn
  unfold indexAfter Layout.indexTop Layout.glyphStart Layout.glyphSize at *
  split
  · omega
  · omega
  · omega
  · split <;> omega
  · split <;> omega
  · exact index

/-- A call pushes the place after it, a return only takes one away. -/
theorem returns_stackAfter (here : Layout.InProgram machine.programCounter)
    (returns : ∀ address ∈ machine.stack.entries, 0x202 ≤ address ∧ address ≤ 0xFFF) :
    ∀ address ∈ (machine.stackAfter instruction).entries,
      0x202 ≤ address ∧ address ≤ 0xFFF := by
  intro address member
  unfold stackAfter at member
  split at member
  · rcases List.mem_append.mp member with older | newest
    · exact returns address older
    · rw [List.mem_singleton.mp newest]
      obtain ⟨start, top⟩ := here
      unfold Layout.programStart Layout.programTop at *
      omega
  · exact returns address (List.dropLast_subset _ member)
  · exact returns address member

/-- The stack grows only by a call that found room on it. -/
theorem length_stackAfter (clear : machine.obstacle? instruction = none)
    (length : (machine.stack.length : Int) ≤ machine.stack.depth) :
    ((machine.stackAfter instruction).length : Int) ≤ machine.stack.depth := by
  obtain ⟨-, unhindered⟩ := Option.or_eq_none_iff.mp clear
  unfold stackAfter
  split
  · next call =>
    simp only [hindrance?, call] at unhindered
    have room := (Option.or_eq_none_iff.mp unhindered).2
    simp only [ite_eq_right_iff, reduceCtorEq, imp_false, CallStack.isFull,
      decide_eq_true_eq] at room
    simp only [CallStack.length, List.length_append, List.length_singleton] at room ⊢
    omega
  · simp only [CallStack.length, List.length_dropLast] at length ⊢
    omega
  · exact length

/-- Only one operation begins a wait, and it names the register that waits. -/
theorem awaitingAfter_eq_some {register : Int} (idle : machine.awaiting = none)
    (waiting : machine.awaitingAfter instruction = some register) :
    instruction.operation = .awaitKey ∧ instruction.x = register := by
  unfold awaitingAfter at waiting
  split at waiting
  · next operation => exact ⟨operation, Option.some.inj waiting⟩
  · rw [idle] at waiting
    cases waiting

/-! ### What every move keeps -/

theorem WellFormed.retired (wellFormed : machine.WellFormed) (range : instruction.InRange)
    (running : machine.fault = none) (idle : machine.awaiting = none)
    (clear : machine.obstacle? instruction = none)
    (intact : (machine.retired instruction).Intact) :
    (machine.retired instruction).WellFormed where
  toIntact := intact
  programCounter := inProgram_destination wellFormed.programCounter clear
  index := bounded_indexAfter range wellFormed.index
  depth := depth_stackAfter.trans wellFormed.depth
  length := by
    have length := wellFormed.length
    rw [← wellFormed.depth] at length ⊢
    exact length_stackAfter clear length
  returns := returns_stackAfter wellFormed.programCounter wellFormed.returns
  waits register waiting := by
    obtain ⟨operation, operand⟩ := awaitingAfter_eq_some idle waiting
    have next := inProgram_next clear (by rw [operation]; rfl)
    have stays : machine.destination instruction = machine.programCounter :=
      destination_of_awaitKey operation
    refine ⟨?_, running, ⟨instruction, rfl, operation, operand⟩, ?_⟩
    · rw [← operand]
      exact range.x
    · show machine.destination instruction + 2 ≤ _
      rw [stays]
      exact next.2

theorem WellFormed.woken (wellFormed : machine.WellFormed) {register : Int} {key : Fin 16}
    (waiting : machine.awaiting = some register) (intact : (machine.woken register key).Intact) :
    (machine.woken register key).WellFormed where
  toIntact := intact
  programCounter := by
    have room := (wellFormed.waits register waiting).room
    obtain ⟨start, top⟩ := wellFormed.programCounter
    exact ⟨Int.le_trans start (Int.le_add_of_nonneg_right (by decide)), room⟩
  index := wellFormed.index
  depth := wellFormed.depth
  length := wellFormed.length
  returns := wellFormed.returns
  waits _ absent := by cases absent

/-- A move that touches neither program counter, index nor stack. -/
theorem WellFormed.of_unmoved (wellFormed : machine.WellFormed) (intact : after.Intact)
    (programCounter : after.programCounter = machine.programCounter)
    (index : after.index = machine.index) (stack : after.stack = machine.stack)
    (waits : ∀ register, after.awaiting = some register → after.Waits register) :
    after.WellFormed where
  toIntact := intact
  programCounter := programCounter ▸ wellFormed.programCounter
  index := index ▸ wellFormed.index
  depth := stack ▸ wellFormed.depth
  length := stack ▸ wellFormed.length
  returns := stack ▸ wellFormed.returns
  waits := waits

theorem Move.wellFormed (move : Move Instruction.InRange Layout.InProgram machine after)
    (wellFormed : machine.WellFormed) : after.WellFormed := by
  have intact := move.intact wellFormed.toIntact
  have idling (idle : machine.awaiting = none) (changed : Machine)
      (same : changed.awaiting = machine.awaiting) :
      ∀ register, changed.awaiting = some register → changed.Waits register := by
    intro register waiting
    rw [same, idle] at waiting
    cases waiting
  cases move with
  | retired _ range running idle clear => exact wellFormed.retired range running idle clear intact
  | halted _ _ _ _ idle => exact wellFormed.of_unmoved intact rfl rfl rfl (idling idle _ rfl)
  | misused _ _ _ range unfit => exact absurd range unfit
  | woken _ _ waiting => exact wellFormed.woken waiting intact
  | waited | timed | written | keyed | paced | collected =>
    refine wellFormed.of_unmoved intact rfl rfl rfl fun register waiting => ?_
    have waits := wellFormed.waits register waiting
    exact ⟨waits.inRange, waits.running, waits.held, waits.room⟩
  | restarted address inside =>
    exact {
      toIntact := intact
      programCounter := inside
      index := ⟨Int.le_refl 0, show (0 : Int) ≤ Layout.indexTop by decide⟩
      depth := wellFormed.depth
      length := show (0 : Int) ≤ Layout.stackDepth by decide
      returns := fun _ member => absurd member List.not_mem_nil
      waits := fun _ absent => by cases absent }

theorem Moves.wellFormed (moves : Moves Instruction.InRange Layout.InProgram machine after)
    (wellFormed : machine.WellFormed) : after.WellFormed :=
  moves.keeps Move.wellFormed wellFormed

/-! ### Whole runs -/

theorem wellFormed_booted (pace : Pace) (dialect : Dialect) (bytes : Nat → UInt8)
    (rom : List UInt8) : (booted pace dialect bytes rom).WellFormed where
  toIntact := intact_booted pace dialect bytes rom
  programCounter := show Layout.InProgram Layout.programStart by decide
  index := ⟨Int.le_refl 0, show (0 : Int) ≤ Layout.indexTop by decide⟩
  depth := rfl
  length := show (0 : Int) ≤ Layout.stackDepth by decide
  returns _ member := absurd member List.not_mem_nil
  waits _ absent := by cases absent

theorem WellFormed.actAll (wellFormed : machine.WellFormed) (actions : List Action)
    (ordinary : ∀ action ∈ actions, action.Ordinary) : (machine.actAll actions).WellFormed :=
  (actAll_moves wellFormed.toIntact (fun _ range => range) actions ordinary).wellFormed wellFormed

theorem wellFormed_of_boot {rom : Option (List UInt8)} {speed : Option ClockSpeed}
    {dialect : Dialect} {bytes : Nat → UInt8} (built : boot rom speed dialect bytes = .ok machine)
    (actions : List Action) (ordinary : ∀ action ∈ actions, action.Ordinary) :
    (machine.actAll actions).WellFormed := by
  obtain ⟨pace, -, -, rfl⟩ := boot_eq_ok_iff.mp built
  exact (wellFormed_booted pace dialect bytes _).actAll actions ordinary

/-- Whatever its owner asks of a machine, in whatever order, the machine stays well-formed, its
registers and timers hold bytes, its keypad latches no other key than the sixteen, and there is a
word to fetch. -/
theorem always_wellFormed {rom : Option (List UInt8)} {speed : Option ClockSpeed}
    {dialect : Dialect} {bytes : Nat → UInt8} (built : boot rom speed dialect bytes = .ok machine)
    (actions : List Action) (ordinary : ∀ action ∈ actions, action.Ordinary) :
    let after := machine.actAll actions
    after.WellFormed ∧
      (∀ number, (after.registers.get number).toNat ≤ 0xFF) ∧
      after.timers.delay.toNat ≤ 0xFF ∧ after.timers.sound.toNat ≤ 0xFF ∧
      (∀ key, after.keypad.latch = some key → key.val ≤ 0xF) ∧
      ∃ word, fetch after = .ok word after := by
  intro after
  have wellFormed : after.WellFormed := wellFormed_of_boot built actions ordinary
  refine ⟨wellFormed, fun number => ?_, ?_, ?_, fun key _ => ?_, ?_⟩
  · exact Nat.le_of_lt_succ (after.registers.get number).toNat_lt
  · exact Nat.le_of_lt_succ after.timers.delay.toNat_lt
  · exact Nat.le_of_lt_succ after.timers.sound.toNat_lt
  · exact Nat.le_of_lt_succ key.isLt
  · exact ⟨after.word, fetch_of_readable after (wellFormed.readable wellFormed.programCounter)⟩

/-- A program that waits for a key, run by frames and by steps, loaded over and reset to the top
of the program. -/
theorem always_wellFormed_waiting :
    let actions : List Action := [.step true, .setKey 7 true, .tickTimers, .runFrame false,
      .setKey 16 true, .loadRom [0x00, 0xE0], .reset 0xFFD, .executeWord 0x2FFF true]
    ∃ machine, boot (some [0xF3, 0x0A, 0x12, 0x00]) none (Dialect.ofChoices none none none none)
        (fun _ => 0) = .ok machine ∧
      (∀ action ∈ actions, action.Ordinary) ∧ (machine.actAll actions).WellFormed := by
  intro actions
  have built := boot_standard [0xF3, 0x0A, 0x12, 0x00] (by decide)
    (Dialect.ofChoices none none none none) fun _ => 0
  have ordinary : ∀ action ∈ actions, action.Ordinary := by
    have top : Layout.InProgram 0xFFD := by decide
    simp [actions, Action.Within, top]
  exact ⟨_, built, ordinary, (always_wellFormed built actions ordinary).1⟩

end Chip8.Machine
