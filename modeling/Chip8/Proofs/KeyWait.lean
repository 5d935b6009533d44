/-
This file proves the protocol by which a machine waits for a key.

The wait begins with a cycle that carries its instruction out, at an address the
program counter then stays at. From there on anything may happen around the
machine, in any order, except a reset. A wait lasts as long as no cycle finds an
open press. While it lasts, a cycle that finds none passes and leaves everything
but its count as it was, and an instruction handed in is refused without a
trace. The first cycle that finds an open press stores the key of the latest one
in the register of the instruction and moves past it.

What a cycle finds is the latch, which was cleared when the wait began. That it
holds the open press of the whole history since is an invariant, kept by every
event together with the address and the register.
-/

import Chip8.Proofs.Move
import Chip8.Proofs.Press

namespace Chip8

/-- Nothing differs from itself. -/
theorem Effect.between_self (visible : Visible) : Effect.between visible visible [] = [] := by
  have same {α : Type} [DecidableEq α] (effect : α → α → Effect) (value : α) :
      ofDifference effect value value = [] := if_pos rfl
  have registers : ofRegisters visible.registers visible.registers = [] := by
    rw [ofRegisters, List.flatMap_eq_nil_iff]
    exact fun number _ => same _ _
  have calls : ofStacks visible.stack visible.stack = [] := by
    rw [ofStacks, if_neg (Nat.lt_irrefl _), if_neg (Nat.lt_irrefl _)]
  rw [between, registers, calls, same, same, same, same]
  rfl

namespace Machine

/-- The instruction a cycle carries out: the one handed in, or else the one at the program
counter. -/
def Takes (machine : Machine) (given : Option Instruction) (instruction : Instruction) : Prop :=
  given = some instruction ∨
    given = none ∧ ∃ word, fetch machine = .ok word machine ∧
      Instruction.decode word machine.programCounter = .ok instruction

/-- A machine in the middle of a wait that began some events ago. -/
structure Waiting (start : Machine) (register : Fin 16) (events : List Event)
    (machine : Machine) : Prop where
  running : machine.fault = none
  awaiting : machine.awaiting = some (register.val : Int)
  programCounter : machine.programCounter = start.programCounter
  keypad : machine.keypad = events.foldl Event.onKeypad start.keypad

variable {before start machine : Machine} {given : Option Instruction} {instruction : Instruction}
  {register : Fin 16} {events : List Event} {trace : Bool} {report : CycleReport}

/-! ### How a wait begins -/

/-- A cycle that succeeds has carried its instruction out. -/
theorem retired_of_attempt (takes : before.Takes given instruction)
    (proper : instruction.operation = .drawSprite → before.display.Proper)
    (idle : before.awaiting = none) (ran : attempt given trace before = .ok report start) :
    before.fault = none ∧ start = before.retired instruction := by
  cases running : before.fault with
  | some fault =>
    have refused : attempt given trace before = .error (.halted fault) before := by
      cases given with
      | some instruction => exact (execute_of_idle idle).trans (guarded_of_halted _ running)
      | none => exact guarded_of_halted _ running
    rw [refused] at ran
    cases ran
  | none =>
    have executed : execute instruction trace before = .ok report start := by
      rcases takes with rfl | ⟨rfl, word, found, decoded⟩
      · exact ran
      · obtain ⟨readable, rfl⟩ := word_of_fetch found
        have next : before.next = .ok instruction := by
          rw [Machine.next, readable]
          exact decoded
        exact (step_of_next running idle next).symm.trans ran
    have outcome := execute_outcome instruction trace proper running idle
    rw [executed] at outcome
    cases outcome
    exact ⟨rfl, rfl⟩

/-- The instruction that waits leaves the machine waiting where it is, the latch cleared. -/
theorem waiting_retired (running : before.fault = none)
    (operation : instruction.operation = .awaitKey) (operand : instruction.x = register.val) :
    (before.retired instruction).programCounter = before.programCounter ∧
      (before.retired instruction).keypad = before.keypad.clearLatch ∧
      Waiting (before.retired instruction) register [] (before.retired instruction) := by
  have stays : before.destination instruction = before.programCounter := by
    rw [destination, operation]
  have cleared : (before.retired instruction).keypad = before.keypad.clearLatch := by
    show keypadAfter _ _ = _
    rw [keypadAfter, operation]
    rfl
  have awaiting : (before.retired instruction).awaiting = some (register.val : Int) := by
    show awaitingAfter _ _ = _
    rw [awaitingAfter, operation]
    exact congrArg some operand
  exact ⟨stays, cleared, running, awaiting, rfl, rfl⟩

/-! ### How a wait goes on -/

/-- Every event but a cycle leaves a machine waiting, with the keypad the event makes. -/
theorem Waiting.acted (waiting : Waiting start register events machine) {event : Event}
    (quiet : ∀ trace, event = .step trace → machine.keypad.latch = none) :
    Waiting start register (events ++ [event]) (machine.act event.action).2 := by
  obtain ⟨running, awaiting, programCounter, keypad⟩ := waiting
  have grown : (events ++ [event]).foldl Event.onKeypad start.keypad =
      Event.onKeypad machine.keypad event := by
    rw [List.foldl_append, ← keypad]
    rfl
  cases event with
  | setKey key down =>
    have pressed : (machine.act (Event.setKey key down).action).2 =
        { machine with keypad := machine.keypad.set key down } := by
      simp only [Event.action, act, obeying, answering, onKeypad, Routine.bind_apply,
        Routine.get_apply, Routine.demand_apply, Keypad.setKey_eq_ok, Routine.modify_apply]
    rw [pressed]
    exact ⟨running, awaiting, programCounter, grown.symm⟩
  | releaseKeys => exact ⟨running, awaiting, programCounter, grown.symm⟩
  | tickTimers => exact ⟨running, awaiting, programCounter, grown.symm⟩
  | step trace =>
    have passed : (machine.act (Event.step trace).action).2 = machine.waited := by
      show (machine.answering .cycled (step trace)).2 = _
      rw [answering, step_of_unlatched running awaiting (quiet trace rfl)]
    rw [passed]
    exact ⟨running, awaiting, programCounter, grown.symm⟩

/-- What a cycle of the waiting machine finds is the open press since the wait began. -/
theorem Waiting.openPress (waiting : Waiting start register events machine)
    (cleared : start.keypad.latch = none) :
    Event.OpenPress start.keypad.isDown events machine.keypad.latch := by
  rw [waiting.keypad]
  exact Event.openPress_latch start.keypad cleared events

/-- As long as no cycle comes upon an open press, the machine waits. -/
theorem Waiting.actAll (begun : Waiting start register [] start)
    (cleared : start.keypad.latch = none)
    (lasting : Event.Lasting start.keypad.isDown events) :
    Waiting start register events (start.actAll (events.map Event.action)) := by
  induction events using List.reverseRecOn with
  | nil => exact begun
  | append_singleton events event inductionHypothesis =>
    have waiting := inductionHypothesis lasting.of_append
    rw [List.map_append, actAll_append]
    refine waiting.acted fun trace cycle => ?_
    subst cycle
    exact (waiting.openPress cleared).eq_none lasting.unpressed

/-! ### What a cycle comes to -/

theorem Waiting.step_of_unpressed (waiting : Waiting start register events machine)
    (cleared : start.keypad.latch = none)
    (unpressed : Event.Unpressed start.keypad.isDown events) (trace : Bool) :
    ∃ report, step trace machine = .ok report machine.waited ∧
      report.waiting = true ∧ report.effects = [] := by
  have unlatched := (waiting.openPress cleared).eq_none unpressed
  refine ⟨_, step_of_unlatched waiting.running waiting.awaiting unlatched, ?_, ?_⟩
  · exact congrArg Option.isSome waiting.awaiting
  · show (if trace then Effect.between machine.visible machine.visible [] else []) = []
    rw [Effect.between_self, ite_self]

theorem Waiting.step_of_pressedLast (waiting : Waiting start register events machine)
    (cleared : start.keypad.latch = none) {key : Fin 16}
    (pressed : Event.PressedLast start.keypad.isDown events key) (trace : Bool) :
    ∃ report, step trace machine =
        .ok report { machine with
          registers := machine.registers.set register (UInt8.ofNat key.val)
          programCounter := start.programCounter + 2
          awaiting := none
          cycles := machine.cycles + 1 } ∧
      report.waiting = false := by
  have latched := (waiting.openPress cleared).eq_some pressed
  have named : Registers.Names register.val := Registers.names_of_lt (by omega) (by omega)
  rw [step_of_latched waiting.running waiting.awaiting latched named, woken,
    Registers.assign_natCast, waiting.programCounter]
  exact ⟨_, rfl, rfl⟩

/-! ### The protocol -/

/-- What a wait promises after a history of events: the wait began at an address, with some keys
held down, for a register. -/
structure Protocol (held : Fin 16 → Bool) (address : Int) (register : Fin 16)
    (events : List Event) (machine : Machine) : Prop where
  programCounter : machine.programCounter = address
  running : machine.fault = none
  /-- The history tells whether a press is open. -/
  decided : Event.Unpressed held events ∨ ∃ key, Event.PressedLast held events key
  /-- Without an open press a cycle passes, and only the count of cycles shows it. -/
  passes : Event.Unpressed held events → ∀ trace, ∃ report,
    step trace machine = .ok report { machine with cycles := machine.cycles + 1 } ∧
      report.waiting = true ∧ report.effects = []
  /-- With one, a cycle stores its key in the register and in no other, and moves on. -/
  wakes : ∀ key, Event.PressedLast held events key → ∀ trace, ∃ report,
    step trace machine =
        .ok report { machine with
          registers := machine.registers.set register (UInt8.ofNat key.val)
          programCounter := address + 2
          awaiting := none
          cycles := machine.cycles + 1 } ∧
      report.waiting = false
  /-- A key that was held when the wait began went up before its press. -/
  afresh : ∀ key, Event.PressedLast held events key → held key = true →
    ∃ earlier later, events = earlier ++ .setKey key true :: later ∧
      (.setKey key false ∈ earlier ∨ .releaseKeys ∈ earlier)
  /-- A key that goes up again leaves its press open, and the wait goes on. -/
  lifted : ∀ key, Event.PressedLast held events key →
    Event.Lasting held (events ++ [.setKey key false]) ∧
      Event.PressedLast held (events ++ [.setKey key false]) key
  /-- An instruction handed in is refused, and nothing changes. -/
  refuses : ∀ instruction trace, execute instruction trace machine = .error .awaitingKey machine

theorem Waiting.protocol (waiting : Waiting start register events machine)
    (cleared : start.keypad.latch = none)
    (lasting : Event.Lasting start.keypad.isDown events) :
    Protocol start.keypad.isDown start.programCounter register events machine where
  programCounter := waiting.programCounter
  running := waiting.running
  decided := (waiting.openPress cleared).decided
  passes := waiting.step_of_unpressed cleared
  wakes _ := waiting.step_of_pressedLast cleared
  afresh _ pressed down := pressed.after_up down
  lifted _ pressed := ⟨lasting.append (fun _ same => by cases same), pressed.set_up⟩
  refuses instruction _ := execute_of_waiting waiting.awaiting instruction

/-- A wait keeps its protocol as long as it lasts. -/
theorem protocol_of_lasting (takes : before.Takes given instruction)
    (operation : instruction.operation = .awaitKey) (operand : instruction.x = register.val)
    (idle : before.awaiting = none) (ran : attempt given trace before = .ok report start)
    (lasting : Event.Lasting before.keypad.isDown events) :
    Protocol before.keypad.isDown before.programCounter register events
      (start.actAll (events.map Event.action)) := by
  have proper : instruction.operation = .drawSprite → before.display.Proper := by
    intro drawing
    rw [operation] at drawing
    cases drawing
  obtain ⟨running, rfl⟩ := retired_of_attempt takes proper idle ran
  obtain ⟨stays, keypad, begun⟩ := waiting_retired running operation operand
  have cleared : (before.retired instruction).keypad.latch = none := by
    rw [keypad]
    rfl
  have held : (before.retired instruction).keypad.isDown = before.keypad.isDown := by
    rw [keypad]
    rfl
  rw [← held, ← stays]
  rw [← held] at lasting
  exact (begun.actAll cleared lasting).protocol cleared lasting

/-- A cycle that carries out the instruction that waits for a key begins a wait. Whatever happens
around the machine, the wait keeps its protocol as long as it lasts, and where it does not last
through all that happened, a first cycle came upon an open press while the protocol was kept. -/
theorem key_wait (takes : before.Takes given instruction)
    (operation : instruction.operation = .awaitKey) (operand : instruction.x = register.val)
    (idle : before.awaiting = none) (ran : attempt given trace before = .ok report start)
    (events : List Event) :
    let held := before.keypad.isDown
    let keeps := fun history => Protocol held before.programCounter register history
      (start.actAll (history.map Event.action))
    (Event.Lasting held events → keeps events) ∧
      (Event.Lasting held events ∨ ∃ earlier trace later key,
        events = earlier ++ .step trace :: later ∧ keeps earlier ∧
          Event.PressedLast held earlier key) := by
  intro held keeps
  have lasts (history : List Event) (lasting : Event.Lasting held history) : keeps history :=
    protocol_of_lasting takes operation operand idle ran lasting
  refine ⟨lasts events, ?_⟩
  rcases Event.lasting_or_ended held events with
    lasting | ⟨earlier, trace, later, whole, before, opened⟩
  · exact .inl lasting
  · refine .inr ⟨earlier, trace, later, ?_⟩
    have protocol := lasts earlier before
    rcases protocol.decided with unpressed | ⟨key, pressed⟩
    · exact absurd unpressed opened
    · exact ⟨key, whole, protocol, pressed⟩

/-- A program that waits at once, a cycle that finds no press, and a key that goes down and up
again. -/
theorem key_wait_lifted :
    let dialect := Dialect.ofChoices none none none none
    let events : List Event := [.step true, .setKey 7 true, .setKey 7 false]
    ∃ new report start, boot (some [0xF3, 0x0A]) none dialect (fun _ => 0) = .ok new ∧
      step true new = .ok report start ∧
      Protocol new.keypad.isDown 0x200 3 events (start.actAll (events.map Event.action)) ∧
      Event.PressedLast new.keypad.isDown events 7 := by
  intro dialect events
  have built := boot_standard [0xF3, 0x0A] (by decide) dialect fun _ => 0
  have intact := intact_booted Pace.standard dialect (fun _ => 0) [0xF3, 0x0A]
  have word := word_booted Pace.standard dialect (fun _ => 0) 0xF3 0x0A [] (by decide)
  let instruction := Instruction.ofFields .awaitKey (Byte.word 0xF3 0x0A)
  have range : instruction.InRange := Instruction.inRange_ofFields _ _
  have inside : Layout.InProgram Layout.programStart := by decide
  have readable := intact.readable inside
  have found := fetch_of_readable _ readable
  rw [word] at found
  have next : (booted Pace.standard dialect (fun _ => 0) [0xF3, 0x0A]).next = .ok instruction := by
    rw [Machine.next, readable, word]
    rfl
  have ran := (execute_outcome instruction true (fun _ => intact.proper) rfl rfl).eq_ok range rfl
  rw [← step_of_next rfl rfl next] at ran
  -- The cycle comes before the press, and the press is all that is open at the end.
  have passed (held : Fin 16 → Bool) : Event.Lasting held [.step true] :=
    Event.lasting_nil.append fun _ _ => Event.unpressed_nil
  have lasting (held : Fin 16 → Bool) : Event.Lasting held events :=
    ((passed held).append fun _ same => by cases same).append fun _ same => by cases same
  have pressed : Event.PressedLast
      (booted Pace.standard dialect (fun _ => 0) [0xF3, 0x0A]).keypad.isDown
      ([.step true] ++ [.setKey 7 true]) 7 := Event.pressedLast_of_fresh rfl
  exact ⟨_, _, _, built, ran,
    (key_wait (.inr ⟨rfl, _, found, rfl⟩) rfl rfl rfl ran events).1 (lasting _), pressed.set_up⟩

end Machine

end Chip8
