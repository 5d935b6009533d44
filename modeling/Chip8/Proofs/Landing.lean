/-
This file proves where the program counter lands when a machine is reset to any
address at all.

A reset takes its address as it is given. What brings the program counter into
the program is the first cycle that succeeds: wherever an instruction leads has
been checked, be it by a jump, a return, a skip or by falling through. The one
exception is the instruction that begins a wait. It stays where it is, and what
is checked for it is the place after it, so that the wait can end. This tells
every address from the program but the two just below it: a machine reset to one
of them can begin to wait there, with its program counter outside the program,
and as long as it waits every cycle leaves it there.
-/

import Chip8.Proofs.Frame
import Chip8.Proofs.Success
import Chip8.Proofs.WellFormed

namespace Chip8.Machine

/-- Where the program counter may be once a cycle has succeeded, on a machine that was reset to
an address: in the program, or still at the address, just below the program, and waiting. -/
def Lands (start programCounter : Int) (waiting : Bool) : Prop :=
  Layout.InProgram programCounter ∨
    (start = 0x1FE ∨ start = 0x1FF) ∧ programCounter = start ∧ waiting = true

/-- A machine whose program counter is in the program or has not moved since the reset, and that
has room to move on if it waits. -/
structure Placed (start : Int) (machine : Machine) : Prop where
  place : Layout.InProgram machine.programCounter ∨ machine.programCounter = start
  room : machine.awaiting.isSome → Layout.InProgram (machine.programCounter + 2)

variable {machine after last : Machine} {instruction : Instruction} {start : Int} {trace : Bool}
  {given : Option Instruction} {notes : List Effect} {report : CycleReport}
  {observed : List Observation} {fit : Instruction → Prop}

/-! ### What every move keeps -/

/-- The place after the one where a wait begins has been checked. -/
theorem Placed.retired (placed : machine.Placed start) (idle : machine.awaiting = none)
    (clear : machine.obstacle? instruction = none) :
    (machine.retired instruction).Placed start where
  place := by
    show Layout.InProgram (machine.destination instruction) ∨
      machine.destination instruction = start
    by_cases stays : instruction.operation = .awaitKey
    · rw [destination_of_awaitKey stays]
      exact placed.place
    · exact .inl (inProgram_destination_of_ne stays clear)
  room waiting := by
    obtain ⟨register, waiting⟩ := Option.isSome_iff_exists.mp waiting
    obtain ⟨stays, -⟩ := awaitingAfter_eq_some idle waiting
    show Layout.InProgram (machine.destination instruction + 2)
    rw [destination_of_awaitKey stays]
    exact inProgram_next clear (by rw [stays]; rfl)

theorem Placed.woken (placed : machine.Placed start) {register : Int} {key : Fin 16}
    (waiting : machine.awaiting = some register) : (machine.woken register key).Placed start where
  place := .inl (placed.room (Option.isSome_of_eq_some waiting))
  room idle := by cases idle

theorem Move.placed (move : Move fit (fun _ => False) machine after)
    (placed : machine.Placed start) : after.Placed start := by
  cases move with
  | retired _ _ _ idle clear => exact placed.retired idle clear
  | woken _ _ waiting => exact placed.woken waiting
  | restarted _ starts => exact starts.elim
  | halted | misused | waited | timed | written | keyed | paced | collected =>
    exact ⟨placed.place, placed.room⟩

theorem placed_restarted (machine : Machine) (start : Int) :
    (machine.restarted start).Placed start :=
  ⟨.inr rfl, fun waiting => by cases waiting⟩

/-! ### Cycles that succeed -/

/-- Where a machine can wait although its program counter may not rest there. -/
theorem Placed.lands_waiting (placed : machine.Placed start)
    (room : Layout.InProgram (machine.programCounter + 2)) :
    Lands start machine.programCounter true := by
  rcases placed.place with inside | unmoved
  · exact .inl inside
  · by_cases inside : Layout.InProgram machine.programCounter
    · exact .inl inside
    · refine .inr ⟨?_, unmoved, rfl⟩
      rw [unmoved] at inside room
      unfold Layout.InProgram Layout.programStart Layout.programTop at inside room
      omega

theorem Succeeded.lands (succeeded : machine.Succeeded given notes after)
    (placed : machine.Placed start) : Lands start after.programCounter after.awaiting.isSome := by
  cases succeeded with
  | retired instruction carries clear fits =>
    by_cases stays : instruction.operation = .awaitKey
    · have waiting : (machine.retired instruction).awaiting.isSome = true := by
        show (machine.awaitingAfter instruction).isSome = true
        rw [awaitingAfter, stays]
        rfl
      have retired := placed.retired carries.idle clear
      rw [waiting]
      exact retired.lands_waiting (retired.room waiting)
    · exact .inl (inProgram_destination_of_ne stays clear)
  | waited register waiting =>
    have same : machine.waited.awaiting.isSome = true := Option.isSome_of_eq_some waiting
    rw [same]
    exact placed.lands_waiting (placed.room same)
  | woken register key waiting => exact .inl (placed.room (Option.isSome_of_eq_some waiting))

theorem Placed.lands_attempt (placed : machine.Placed start) (intact : machine.Intact)
    (ran : attempt given trace machine = .ok report after) :
    Lands start after.programCounter report.waiting := by
  obtain ⟨notes, succeeded, rfl⟩ := succeeded_of_attempt intact.proper ran
  exact succeeded.lands placed

/-- So do all the steps of a frame. -/
theorem Placed.lands_steps (placed : machine.Placed start) (intact : machine.Intact)
    (steps : Steps trace machine observed last) :
    ∀ seen ∈ observed, Lands start seen.after.programCounter seen.report.waiting := by
  induction steps with
  | none => exact fun _ member => absurd member List.not_mem_nil
  | @more first _ _ _ _ _ ran depicted _ inductionHypothesis =>
    have moves : Moves (fun _ => True) (fun _ => False) first ((step trace).leaves first) :=
      step_moves intact fun _ _ => trivial
    rw [Routine.leaves, ran] at moves
    intro seen member
    rcases List.mem_cons.mp member with rfl | later
    · have attempted : attempt none trace first = .ok _ _ := ran
      rw [depicted.programCounter]
      exact placed.lands_attempt intact attempted
    · exact inductionHypothesis (moves.keeps Move.placed placed) (moves.intact intact) seen later

/-- Below the program, too, a wait can begin, if the place after it is in the program. -/
theorem waits_at_restarted (intact : machine.Intact) (below : start = 0x1FE ∨ start = 0x1FF)
    (trace : Bool) :
    ∃ report after,
      execute (.ofFields .awaitKey 0xF00A) trace (machine.restarted start) = .ok report after ∧
        after.programCounter = start := by
  have room : Layout.InProgram (start + 2) := by rcases below with rfl | rfl <;> decide
  have clear : (machine.restarted start).obstacle? (.ofFields .awaitKey 0xF00A) = none := by
    show (leaving? (start + 2)).or none = none
    rw [leaving?_eq_none_iff.mpr room]
    rfl
  exact ⟨_, _, (execute_outcome _ trace (fun _ => (intact.restarted start).proper) rfl rfl).eq_ok
    (Instruction.inRange_ofFields _ _) clear, rfl⟩

/-! ### Whole runs -/

theorem actAll_reset (intact : machine.Intact) (actions : List Action) (start : Int) :
    machine.actAll (actions ++ [.reset start]) = (machine.actAll actions).restarted start := by
  rw [actAll_append]
  show ((machine.actAll actions).act (.reset start)).2 = _
  rw [act, obeying, answering_snd, Routine.leaves, reset_apply (intact.actAll actions)]

/-- Whatever address a machine was reset to, and whatever was asked of it since, a cycle that
succeeds leaves its program counter in the program, or waits for a key at the address itself, and
then that is one of the two just below the program. At each of the two that can happen. -/
theorem lands_after_reset {rom : Option (List UInt8)} {speed : Option ClockSpeed}
    {dialect : Dialect} {bytes : Nat → UInt8} {new : Machine}
    (built : boot rom speed dialect bytes = .ok new) (earlier : List Action) (start : Int) :
    let fresh := new.actAll (earlier ++ [.reset start])
    (∀ later, (∀ address, .reset address ∉ later) →
      let machine := fresh.actAll later
      (∀ given trace report after, attempt given trace machine = .ok report after →
        Lands start after.programCounter report.waiting) ∧
      ∀ seen ∈ (machine.runFrame true).2.observed,
        Lands start seen.after.programCounter seen.report.waiting) ∧
    (start = 0x1FE ∨ start = 0x1FF → ∀ trace, ∃ report after,
      execute (.ofFields .awaitKey 0xF00A) trace fresh = .ok report after ∧
        after.programCounter = start ∧ ¬ Layout.InProgram after.programCounter) := by
  intro fresh
  have before := intact_of_boot built earlier
  have reached : fresh = (new.actAll earlier).restarted start :=
    actAll_reset (intact_of_boot built []) earlier start
  have intact : fresh.Intact := reached ▸ before.restarted start
  have placed : fresh.Placed start := reached ▸ placed_restarted _ start
  refine ⟨fun later unreset => ?_, fun below trace => ?_⟩
  · have moves : Moves (fun _ => True) (fun _ => False) fresh (fresh.actAll later) := by
      refine actAll_moves intact (fun _ _ => trivial) later fun action member => ?_
      cases action with
      | reset address => exact unreset address member
      | _ => trivial
    have still := moves.keeps Move.placed placed
    have whole := moves.intact intact
    refine ⟨fun given trace report after ran => still.lands_attempt whole ran, ?_⟩
    have framing := runFrame_framing (fresh.actAll later) true
    generalize (fresh.actAll later).runFrame true = result at framing
    cases framing with
    | unowed => exact fun _ member => absurd member (Array.not_mem_empty _)
    | whole observed last credit steps | cut _ observed last _ _ credit steps =>
      exact fun seen member => still.lands_steps whole steps seen (List.mem_toArray.mp member)
  · rw [reached]
    obtain ⟨report, after, ran, unmoved⟩ := waits_at_restarted before below trace
    refine ⟨report, after, ran, unmoved, ?_⟩
    rw [unmoved]
    rcases below with rfl | rfl <;> decide

/-- A jump handed to a machine that was reset to where there is no memory. -/
theorem lands_after_reset_jump :
    let dialect := Dialect.ofChoices none none none none
    let jump := Instruction.ofFields .jump 0x1234
    ∃ new report after, boot (some [0x12, 0x00]) none dialect (fun _ => 0) = .ok new ∧
      attempt (some jump) true
        ((new.actAll [.step true, .reset (-5)]).actAll [.releaseKeys, .tickTimers]) =
          .ok report after ∧
      Layout.InProgram after.programCounter := by
  intro dialect jump
  let new := booted Pace.standard dialect (fun _ => 0) [0x12, 0x00]
  have built : boot (some [0x12, 0x00]) none dialect (fun _ => 0) = .ok new :=
    boot_standard [0x12, 0x00] (by decide) dialect fun _ => 0
  have intact : new.Intact := intact_booted _ _ _ _
  have reached : new.actAll [.step true, .reset (-5)] =
      (new.actAll [.step true]).restarted (-5) := actAll_reset intact [.step true] (-5)
  have proper :=
    ((intact.actAll [.step true, .reset (-5)]).actAll [.releaseKeys, .tickTimers]).proper
  have ran := execute_outcome jump true fun _ => proper
  rw [reached] at ran
  have ran := (ran rfl rfl).eq_ok (Instruction.inRange_ofFields _ _) rfl
  rw [← reached] at ran
  refine ⟨new, _, _, built, ran, ?_⟩
  have lands := ((lands_after_reset built [.step true] (-5)).1 [.releaseKeys, .tickTimers]
    (by simp)).1 (some jump) true _ _ ran
  rcases lands with inside | ⟨below, -⟩
  · exact inside
  · omega

/-- A machine that was reset to just below the program and handed an instruction that waits. -/
theorem waits_below_program :
    ∃ new instruction report after, boot none none (Dialect.ofChoices none none none none)
        (fun _ => 0) = .ok new ∧
      Instruction.decode 0xF00A 0x1FE = .ok instruction ∧
      attempt (some instruction) true (new.actAll [.reset 0x1FE]) = .ok report after ∧
      ¬ Layout.InProgram after.programCounter := by
  have built : boot none none (Dialect.ofChoices none none none none) (fun _ => 0) =
      .ok (booted Pace.standard (Dialect.ofChoices none none none none) (fun _ => 0) []) :=
    boot_eq_ok_iff.mpr ⟨_, Pace.ofSpeed_standard, Nat.zero_le _, rfl⟩
  have intact : (booted Pace.standard (Dialect.ofChoices none none none none) (fun _ => 0)
      []).Intact := intact_booted _ _ _ _
  have below : (0x1FE : Int) = 0x1FE ∨ (0x1FE : Int) = 0x1FF := .inl rfl
  obtain ⟨report, after, ran, unmoved⟩ := waits_at_restarted intact below true
  refine ⟨_, .ofFields .awaitKey 0xF00A, report, after, built, rfl, ?_, ?_⟩
  · have reached := actAll_reset intact [] 0x1FE
    rw [List.nil_append] at reached
    rw [reached]
    exact ran
  · rw [unmoved]
    decide

end Chip8.Machine
