/-
This file proves that a fault is latched until the machine is reset.

A cycle that meets a fault halts the machine, and from then on the fault stays
where it is whatever is asked, short of a reset. Every cycle is refused with it,
and nothing changes. A frame is refused with it at its first cycle, or owes none
and only lets the timers tick; a pace whose credit has no whole part has its
frames refused for that, before any cycle.

An instruction handed to a machine that waits for a key is refused for the wait
and not for the fault. That this cannot hide a fault needs an invariant kept by
every move: a halted machine does not wait.
-/

import Chip8.Proofs.Frame

namespace Chip8

namespace Machine

/-- A cycle meets a fault and leaves the machine halted by it: a cycle of its own, or one of a
frame. -/
inductive Raises (machine : Machine) (fault : Fault) : Machine → Prop
  | alone {given : Option Instruction} {trace : Bool} {after : Machine}
      (met : attempt given trace machine = .error (.fault fault) after) :
      Raises machine fault after
  | inFrame {listening : Bool}
      (met : (machine.runFrame listening).2.trap = some (.fault fault)) :
      Raises machine fault (machine.runFrame listening).2.machine

/-- A halted machine does not wait for a key. -/
def HaltsIdle (machine : Machine) : Prop :=
  machine.fault.isSome → machine.awaiting = none

variable {machine after : Machine} {fault : Fault} {trace : Bool}
  {fit : Instruction → Prop} {start : Int → Prop}

/-! ### What every move keeps -/

theorem Move.haltsIdle (move : Move fit start machine after) (idle : machine.HaltsIdle) :
    after.HaltsIdle := by
  cases move with
  | retired instruction _ running =>
    intro stopped
    have still : (machine.retired instruction).fault = machine.fault := rfl
    rw [still, running] at stopped
    cases stopped
  | halted _ _ _ _ waits => exact fun _ => waits
  | misused _ _ _ _ _ waits => exact fun _ => waits
  | woken => exact fun _ => rfl
  | restarted => exact fun _ => rfl
  | waited | timed | written | keyed | paced | collected => exact idle

theorem Moves.haltsIdle (moves : Moves fit start machine after) (idle : machine.HaltsIdle) :
    after.HaltsIdle :=
  moves.keeps Move.haltsIdle idle

/-- Nothing but a reset takes a fault back or puts another in its place. -/
theorem Move.keeps_fault (move : Move fit (fun _ => False) machine after)
    (stopped : machine.fault = some fault) : after.fault = some fault := by
  cases move with
  | retired _ _ running =>
    rw [running] at stopped
    cases stopped
  | halted _ _ _ running =>
    rw [running] at stopped
    cases stopped
  | restarted _ starts => exact starts.elim
  | misused | waited | woken | timed | written | keyed | paced | collected => exact stopped

theorem Moves.keeps_fault (moves : Moves fit (fun _ => False) machine after)
    (stopped : machine.fault = some fault) : after.fault = some fault :=
  moves.keeps Move.keeps_fault stopped

/-! ### How a machine comes to be halted -/

theorem fault_of_guarded {α : Type} {routine : Routine Machine α}
    (met : guarded routine machine = .error (.fault fault) after) : after.fault = some fault := by
  cases running : machine.fault with
  | some earlier =>
    rw [guarded_of_halted _ running] at met
    cases met
  | none =>
    rw [guarded_of_running _ running] at met
    split at met
    · cases met
      rfl
    · next other =>
      exact absurd met (other fault after)

theorem fault_of_attempt {given : Option Instruction}
    (met : attempt given trace machine = .error (.fault fault) after) :
    after.fault = some fault := by
  cases given with
  | none => exact fault_of_guarded met
  | some instruction =>
    cases waiting : machine.awaiting with
    | none => exact fault_of_guarded ((execute_of_idle waiting).symm.trans met)
    | some register =>
      rw [attempt, execute_of_waiting waiting] at met
      cases met

/-- What cuts a frame short with a fault is a cycle of it that meets the fault. -/
theorem fault_of_runFrame {listening : Bool}
    (met : (machine.runFrame listening).2.trap = some (.fault fault)) :
    (machine.runFrame listening).2.machine.fault = some fault := by
  have framing := runFrame_framing machine listening
  generalize machine.runFrame listening = result at framing met
  cases framing with
  | unowed => cases met
  | whole => cases met
  | cut owed observed last trap after credit steps short refused =>
    cases met
    have latched : after.fault = some fault := fault_of_guarded refused
    exact latched

theorem Raises.latched (raised : machine.Raises fault after) : after.fault = some fault := by
  cases raised with
  | alone met => exact fault_of_attempt met
  | inFrame met => exact fault_of_runFrame met

theorem attempt_moves (intact : machine.Intact) (given : Option Instruction) (trace : Bool) :
    Moves (fun _ => True) (fun _ => True) machine ((attempt given trace).leaves machine) := by
  cases given with
  | none => exact step_moves intact fun _ _ => trivial
  | some instruction => exact execute_moves intact trivial

theorem Raises.moves (raised : machine.Raises fault after) (intact : machine.Intact) :
    Moves (fun _ => True) (fun _ => True) machine after := by
  cases raised with
  | @alone given trace _ met =>
    have moves := attempt_moves intact given trace
    rw [Routine.leaves, met] at moves
    exact moves
  | inFrame => exact runFrame_moves intact _ fun _ _ => trivial

/-! ### What a halted machine does -/

theorem refused_of_halted (stopped : machine.fault = some fault) (idle : machine.awaiting = none)
    (given : Option Instruction) (trace : Bool) :
    attempt given trace machine = .error (.halted fault) machine := by
  cases given with
  | none => exact guarded_of_halted _ stopped
  | some instruction => exact (execute_of_idle idle).trans (guarded_of_halted _ stopped)

/-- What a frame comes to on a machine that a fault has halted. With a cycle to run it is refused
with the fault and only its credit is accounted; without one it lets the timers tick; and where
the credit has no whole part it is refused for that. -/
def haltedFrame (machine : Machine) (fault : Fault) (credit : Float) : Nat × Run :=
  match machine.pace.due.1 with
  | .ok 0 => (0, ⟨machine.tickTimers.owing credit, #[], none⟩)
  | .ok (more + 1) => (more + 1, ⟨machine.owing credit, #[], some (.halted fault)⟩)
  | .error trap => (0, ⟨machine.owing credit, #[], some trap⟩)

theorem runFrame_of_halted (stopped : machine.fault = some fault) (listening : Bool) :
    machine.runFrame listening = machine.haltedFrame fault machine.pace.due.2.credit := by
  unfold haltedFrame
  rcases owes : machine.pace.due with ⟨trap | owed, pace⟩
  · exact runFrame_of_unowed owes
  · have law : FrameLaw machine listening true owed pace.credit := frameLaw (fun _ => rfl) owes
    cases owed with
    | zero =>
      rw [law.whole [] machine (.none machine) rfl, shown_nil]
    | succ more =>
      rw [law.cut [] machine _ _ (.none machine) (Nat.succ_pos more) (guarded_of_halted _ stopped),
        shown_nil]

/-! ### How it runs again -/

/-- Above the glyphs a machine that was reset has nothing in memory. -/
theorem byteAt_restarted (intact : machine.Intact) (start : Int) {address : Int}
    (above : Layout.programStart ≤ address) :
    (machine.restarted start).memory.byteAt address = 0 := by
  have inside : Layout.glyphStart + Layout.glyphs.length ≤
      (Memory.blank machine.memory.size).size := by
    rw [Memory.size_blank, intact.memory]
    decide
  have top : Layout.glyphStart + Layout.glyphs.length ≤ Layout.programStart := by decide
  show ((Memory.blank _).place _ _).byteAt address = 0
  rw [Memory.byteAt_place _ _ (by decide) inside, if_neg (by omega), Memory.byteAt_blank]

/-- The word that a machine finds in memory that holds nothing. -/
def idleInstruction : Instruction :=
  .ofFields .machineCode 0

/-- A machine that was reset runs on, if its program counter may rest where it is and at the
instruction after it. -/
theorem step_restarted (intact : machine.Intact) {address : Int}
    (inside : Layout.InProgram address) (further : Layout.InProgram (address + 2)) :
    ∃ report next, step trace (machine.restarted address) = .ok report next ∧
      next.fault = none := by
  have whole := intact.restarted address
  have word : (machine.restarted address).word = 0 := by
    rw [Machine.word]
    show Byte.word ((machine.restarted address).memory.byteAt address)
      ((machine.restarted address).memory.byteAt (address + 1)) = 0
    rw [byteAt_restarted intact address inside.1,
      byteAt_restarted intact address (Int.le_add_one inside.1)]
    rfl
  have next : (machine.restarted address).next = .ok idleInstruction := by
    rw [Machine.next, whole.readable inside, word]
    rfl
  have clear : (machine.restarted address).obstacle? idleInstruction = none := by
    show (leaving? (address + 2)).or none = none
    rw [leaving?, if_pos further]
    rfl
  have ran := (execute_outcome idleInstruction trace (fun _ => whole.proper) rfl rfl).eq_ok
    (Instruction.inRange_ofFields _ _) clear
  exact ⟨_, _, (step_of_next rfl rfl next).trans ran, rfl⟩

/-- A machine that runs and does not wait is not refused a cycle for an earlier fault. -/
theorem not_refused_of_running (intact : machine.Intact) (running : machine.fault = none)
    (idle : machine.awaiting = none) (given : Option Instruction) (earlier : Fault) :
    attempt given trace machine ≠ .error (.halted earlier) after := by
  have executed (instruction : Instruction) :
      execute instruction trace machine ≠ .error (.halted earlier) after := by
    intro refused
    have outcome := execute_outcome instruction trace (fun _ => intact.proper) running idle
    rw [refused] at outcome
    cases outcome with
    | misused _ _ _ misuse => cases misuse
  cases given with
  | some instruction => exact executed instruction
  | none =>
    intro refused
    cases next : machine.next with
    | ok instruction =>
      exact executed instruction ((step_of_next running idle next).symm.trans refused)
    | error fault => cases (step_of_absent running idle next).symm.trans refused

/-! ### The latch -/

/-- A program that begins with a word that is no instruction halts at once. -/
theorem step_unknownOpcode (pace : Pace) (dialect : Dialect) (bytes : Nat → UInt8)
    (trace : Bool) :
    let new := booted pace dialect bytes [0x50, 0x01]
    step trace new =
      .error (.fault (.unknownOpcode 0x5001 0x200))
        (new.fetched.halted (.unknownOpcode 0x5001 0x200)) := by
  intro new
  have next : new.next = .error (.unknownOpcode 0x5001 0x200) :=
    next_booted pace dialect bytes 0x50 0x01 [] (by decide)
  exact step_of_absent rfl rfl next

/-- What a machine that a fault has halted does, whatever was asked of it since. -/
structure Latch (fault : Fault) (machine : Machine) : Prop where
  latched : machine.fault = some fault
  /-- Every cycle is refused with the fault, and nothing changes. -/
  refuses : ∀ given trace, attempt given trace machine = .error (.halted fault) machine
  frames : ∀ listening, ∃ credit, machine.runFrame listening = machine.haltedFrame fault credit
  /-- A reset takes the fault back, and the machine runs on where it can. -/
  resets : ∀ start, ∃ fresh, reset start machine = .ok () fresh ∧ fresh.fault = none ∧
    (∀ given trace earlier after, attempt given trace fresh ≠ .error (.halted earlier) after) ∧
    (Layout.InProgram start → Layout.InProgram (start + 2) → ∀ trace, ∃ report next,
      step trace fresh = .ok report next ∧ next.fault = none)

theorem latch_of_halted (intact : machine.Intact) (stopped : machine.fault = some fault)
    (idle : machine.awaiting = none) : Latch fault machine where
  latched := stopped
  refuses := refused_of_halted stopped idle
  frames listening := ⟨_, runFrame_of_halted stopped listening⟩
  resets start := ⟨_, reset_apply intact start, rfl,
    fun given _ earlier _ => not_refused_of_running (intact.restarted start) rfl rfl given earlier,
    fun inside further _ => step_restarted intact inside further⟩

/-- A fault that a cycle meets stays latched through everything but a reset, which takes it
back. -/
theorem fault_latched {rom : Option (List UInt8)} {speed : Option ClockSpeed} {dialect : Dialect}
    {bytes : Nat → UInt8} {new : Machine} (built : boot rom speed dialect bytes = .ok new)
    (actions : List Action) (raised : (new.actAll actions).Raises fault after)
    (later : List Action) (unreset : ∀ start, .reset start ∉ later) :
    Latch fault (after.actAll later) := by
  have reached := intact_of_boot built actions
  have intact : after.Intact := (raised.moves reached).intact reached
  have begun : new.HaltsIdle := by
    obtain ⟨pace, -, -, rfl⟩ := boot_eq_ok_iff.mp built
    exact fun _ => rfl
  have came : Moves (fun _ => True) (fun _ => True) new (new.actAll actions) :=
    actAll_moves (intact_of_boot built []) (fun _ _ => trivial) actions
      fun action _ => action.within_true
  have idle : after.HaltsIdle := Moves.haltsIdle (came.trans (raised.moves reached)) begun
  -- Without a reset among them, the later actions are moves of the kind that keeps a fault.
  have went : Moves (fun _ => True) (fun _ => False) after (after.actAll later) := by
    refine actAll_moves intact (fun _ _ => trivial) later fun action member => ?_
    cases action with
    | reset start => exact unreset start member
    | _ => trivial
  have stopped := went.keeps_fault raised.latched
  exact latch_of_halted (went.intact intact) stopped
    (went.haltsIdle idle (Option.isSome_of_eq_some stopped))

/-- A program of a word that is no instruction, which is loaded over and played with after it
has halted. -/
theorem fault_latched_unknownOpcode :
    let dialect := Dialect.ofChoices none none none none
    let later : List Action := [.loadRom [0x12, 0x00], .setKey 5 true, .runFrame true, .tickTimers]
    ∃ new halted, boot (some [0x50, 0x01]) none dialect (fun _ => 0) = .ok new ∧
      step true new = .error (.fault (.unknownOpcode 0x5001 0x200)) halted ∧
      Latch (.unknownOpcode 0x5001 0x200) (halted.actAll later) := by
  intro dialect later
  have built := boot_standard [0x50, 0x01] (by decide) dialect fun _ => 0
  have refused := step_unknownOpcode Pace.standard dialect (fun _ => 0) true
  have met : attempt none true (booted Pace.standard dialect (fun _ => 0) [0x50, 0x01]) = _ :=
    refused
  have unreset (start : Int) : .reset start ∉ later := by simp [later]
  exact ⟨_, _, built, refused, fault_latched built [] (.alone met) later unreset⟩

/-- At a clock speed without end the frames of a halted machine owe no number of cycles: they are
neither refused with its fault nor let the timers tick. -/
theorem halted_frame_infinite :
    let dialect := Dialect.ofChoices none none none none
    let fault := Fault.unknownOpcode 0x5001 0x200
    ∃ new halted,
      boot (some [0x50, 0x01]) (some (.real (1 / 0))) dialect (fun _ => 0) = .ok new ∧
      step true new = .error (.fault fault) halted ∧
      (halted.runFrame false).2.trap = some (.notFinite .infinite) ∧
      ¬ ((halted.runFrame false).2.trap = some (.halted fault) ∨
        (halted.runFrame false).2.trap = none) := by
  intro dialect fault
  have built : boot (some [0x50, 0x01]) (some (.real (1 / 0))) dialect (fun _ => 0) =
      .ok (booted ⟨(1 / 0) / Pace.framesPerSecond, 0⟩ dialect (fun _ => 0) [0x50, 0x01]) :=
    boot_eq_ok_iff.mpr ⟨_, rfl, by decide, rfl⟩
  have refused := step_unknownOpcode ⟨(1 / 0) / Pace.framesPerSecond, 0⟩ dialect (fun _ => 0) true
  have trapped : ∀ machine : Machine, machine.pace = ⟨(1 / 0) / Pace.framesPerSecond, 0⟩ →
      (machine.runFrame false).2.trap = some (.notFinite .infinite) := by
    intro machine paced
    have owes : machine.pace.due = (.error (.notFinite .infinite), machine.pace.due.2) := by
      rw [paced]
      rfl
    rw [runFrame_of_unowed owes]
  refine ⟨_, _, built, refused, trapped _ rfl, ?_⟩
  rw [trapped _ rfl]
  rintro (halts | passes)
  · cases halts
  · cases passes

end Machine

end Chip8
