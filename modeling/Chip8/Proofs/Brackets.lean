/-
This file proves that calls and returns match like brackets.

A cycle that succeeds does one of three things to the call stack: a call puts
the place after it on top, a return takes the top off and goes there, and
anything else leaves it alone. What lies below the deepest point of a run is
therefore never touched by the run, whatever is executed in it and however
memory is rewritten on the way. A run that begins with a call has the place
after the call at its deepest point, so the cycle that first leaves the call
behind is a return, and it leads there.
-/

import Chip8.Proofs.Halting
import Chip8.Proofs.Success
import Chip8.Proofs.WellFormed

namespace Chip8.Machine

/-- What a cycle that succeeds does to the call stack. -/
inductive Stacks (machine : Machine) (given : Option Instruction) (after : Machine) : Prop
  | called (instruction : Instruction) (carries : machine.Carries given instruction)
      (operation : instruction.operation = .call)
      (pushed : after.stack.entries = machine.stack.entries ++ [machine.programCounter + 2])
  | returned (instruction : Instruction) (carries : machine.Carries given instruction)
      (operation : instruction.operation = .returnFromCall)
      (popped : machine.stack.entries = after.stack.entries ++ [after.programCounter])
  | kept (neither : ∀ instruction, machine.Carries given instruction →
        instruction.operation ≠ .call ∧ instruction.operation ≠ .returnFromCall)
      (same : after.stack.entries = machine.stack.entries)

/-- What may happen around the cycles of a run: anything that carries out no instruction and does
not reset the machine. -/
abbrev Aside : Machine → Machine → Prop :=
  Moves (fun _ => False) (fun _ => False)

/-- A run of cycles that succeed, with the machines they leave one after the other. -/
inductive Course : Machine → List Machine → Machine → Prop
  | done {machine : Machine} : Course machine [] machine
  | aside {first second last : Machine} {visited : List Machine} (passes : Aside first second)
      (rest : Course second visited last) : Course first visited last
  | cycle {first second last : Machine} {visited : List Machine} (given : Option Instruction)
      (trace : Bool) (report : CycleReport) (ran : attempt given trace first = .ok report second)
      (rest : Course second visited last) : Course first (second :: visited) last

/-- A call stack of the usual depth, which is not exceeded. -/
structure Shallow (machine : Machine) : Prop where
  depth : machine.stack.depth = Layout.stackDepth
  length : (machine.stack.length : Int) ≤ machine.stack.depth

variable {machine after first last : Machine} {visited : List Machine}
  {given : Option Instruction} {instruction : Instruction} {notes : List Effect}
  {trace : Bool} {report : CycleReport} {base : List Int}
  {fit : Instruction → Prop} {start : Int → Prop}

/-! ### One cycle -/

/-- A return finds its place on top of the stack. -/
theorem popped_retired (clear : machine.obstacle? instruction = none)
    (operation : instruction.operation = .returnFromCall) :
    machine.stack.entries =
      (machine.retired instruction).stack.entries ++
        [(machine.retired instruction).programCounter] := by
  obtain ⟨-, unhindered⟩ := Option.or_eq_none_iff.mp clear
  show machine.stack.entries =
    (machine.stackAfter instruction).entries ++ [machine.destination instruction]
  simp only [stackAfter, destination, hindrance?, operation] at unhindered ⊢
  split at unhindered
  · next address newest =>
    obtain ⟨below, whole⟩ := List.getLast?_eq_some_iff.mp newest
    rw [whole, List.dropLast_concat, List.getLastD_concat]
  · cases unhindered

theorem Succeeded.stacked (succeeded : machine.Succeeded given notes after) :
    machine.Stacks given after := by
  cases succeeded with
  | retired instruction carries clear =>
    by_cases call : instruction.operation = .call
    · refine .called instruction carries call ?_
      show (machine.stackAfter instruction).entries = _
      rw [stackAfter, call]
    · by_cases returning : instruction.operation = .returnFromCall
      · exact .returned instruction carries returning (popped_retired clear returning)
      · refine .kept (fun other carried => ?_) ?_
        · cases carries.unique carried
          exact ⟨call, returning⟩
        · show (machine.stackAfter instruction).entries = _
          unfold stackAfter
          split <;> first | contradiction | rfl
  | waited register waiting =>
    exact .kept (fun _ carried => absurd carried (not_carries_of_waiting waiting)) rfl
  | woken register key waiting =>
    exact .kept (fun _ carried => absurd carried (not_carries_of_waiting waiting)) rfl

theorem stacked_of_attempt (intact : machine.Intact)
    (ran : attempt given trace machine = .ok report after) : machine.Stacks given after := by
  obtain ⟨notes, succeeded, -⟩ := succeeded_of_attempt intact.proper ran
  exact succeeded.stacked

theorem moves_of_attempt (intact : machine.Intact)
    (ran : attempt given trace machine = .ok report after) :
    Moves (fun _ => True) (fun _ => True) machine after := by
  have moves := attempt_moves intact given trace
  rw [Routine.leaves, ran] at moves
  exact moves

/-- A cycle leaves alone what lies no higher than the stack before and after it. -/
theorem Stacks.keeps_base (stacked : machine.Stacks given after)
    (below : base <+: machine.stack.entries) (deep : base.length ≤ after.stack.length) :
    base <+: after.stack.entries := by
  cases stacked with
  | called _ _ _ pushed =>
    rw [pushed]
    exact below.trans (List.prefix_append _ _)
  | returned _ _ _ popped =>
    rw [popped] at below
    exact List.prefix_of_prefix_length_le below (List.prefix_append _ _) deep
  | kept _ same => rwa [same]

/-- Only a return comes down to a depth below which the stack has not been. -/
theorem Stacks.returns {address : Int} (stacked : machine.Stacks given after)
    (below : base ++ [address] <+: machine.stack.entries)
    (back : after.stack.length ≤ base.length) :
    (∃ instruction, machine.Carries given instruction ∧
      instruction.operation = .returnFromCall) ∧
      after.stack.entries = base ∧ after.programCounter = address := by
  have high := below.length_le
  rw [List.length_append, List.length_singleton] at high
  cases stacked with
  | called _ _ _ pushed =>
    rw [CallStack.length, pushed, List.length_append] at back
    omega
  | returned instruction carries operation popped =>
    rw [popped, List.length_append, List.length_singleton] at high
    rw [popped] at below
    have level : (base ++ [address]).length =
        (after.stack.entries ++ [after.programCounter]).length := by
      rw [CallStack.length] at back
      simp only [List.length_append, List.length_singleton]
      omega
    obtain ⟨under, top⟩ := List.append_inj' (below.eq_of_length level) rfl
    exact ⟨⟨instruction, carries, operation⟩, under.symm, (List.singleton_inj.mp top).symm⟩
  | kept _ same =>
    rw [CallStack.length, same] at back
    omega

/-! ### Whole runs -/

theorem Aside.keeps_stack (passes : Aside machine after) : after.stack = machine.stack := by
  refine passes.keeps (motive := fun other => other.stack = machine.stack) ?_ rfl
  intro before next move same
  cases move with
  | retired _ impossible => cases impossible
  | misused _ _ _ impossible => cases impossible
  | restarted _ impossible => cases impossible
  | halted | waited | woken | timed | written | keyed | paced | collected => exact same

theorem Course.intact (course : Course first visited last) (intact : first.Intact) :
    last.Intact := by
  induction course with
  | done => exact intact
  | aside passes _ inductionHypothesis => exact inductionHypothesis (passes.intact intact)
  | cycle _ _ _ ran _ inductionHypothesis =>
    exact inductionHypothesis ((moves_of_attempt intact ran).intact intact)

/-- What lies no higher than the stack of any machine visited, the run leaves alone. -/
theorem Course.keeps_base (course : Course first visited last) (intact : first.Intact)
    (below : base <+: first.stack.entries)
    (deep : ∀ state ∈ visited, base.length ≤ state.stack.length) :
    (∀ state ∈ visited, base <+: state.stack.entries) ∧ base <+: last.stack.entries := by
  induction course with
  | done => exact ⟨fun _ absent => absurd absent List.not_mem_nil, below⟩
  | aside passes _ inductionHypothesis =>
    exact inductionHypothesis (passes.intact intact) (passes.keeps_stack ▸ below) deep
  | cycle _ _ _ ran _ inductionHypothesis =>
    have here := (stacked_of_attempt intact ran).keeps_base below (deep _ List.mem_cons_self)
    have sound := (moves_of_attempt intact ran).intact intact
    obtain ⟨visits, ends⟩ := inductionHypothesis sound here fun state member =>
      deep state (List.mem_cons_of_mem _ member)
    exact ⟨List.forall_mem_cons.mpr ⟨here, visits⟩, ends⟩

theorem Move.shallow (move : Move fit start machine after) (shallow : machine.Shallow) :
    after.Shallow := by
  cases move with
  | retired instruction _ _ _ clear =>
    refine ⟨depth_stackAfter.trans shallow.depth, ?_⟩
    have same : (machine.retired instruction).stack.depth = machine.stack.depth := depth_stackAfter
    rw [same]
    exact length_stackAfter clear shallow.length
  | restarted =>
    have depth := shallow.depth
    refine ⟨depth, ?_⟩
    show (0 : Int) ≤ machine.stack.depth
    rw [depth]
    decide
  | halted | misused | waited | woken | timed | written | keyed | paced | collected =>
    exact ⟨shallow.depth, shallow.length⟩

theorem Moves.shallow (moves : Moves fit start machine after) (shallow : machine.Shallow) :
    after.Shallow :=
  moves.keeps Move.shallow shallow

theorem Course.shallow (course : Course first visited last) (intact : first.Intact)
    (shallow : first.Shallow) : ∀ state ∈ visited, state.Shallow := by
  induction course with
  | done => exact fun _ absent => absurd absent List.not_mem_nil
  | aside passes _ inductionHypothesis =>
    exact inductionHypothesis (passes.intact intact) (passes.shallow shallow)
  | cycle _ _ _ ran _ inductionHypothesis =>
    have moves := moves_of_attempt intact ran
    have here := moves.shallow shallow
    exact List.forall_mem_cons.mpr ⟨here, inductionHypothesis (moves.intact intact) here⟩

/-! ### Matching -/

/-- What is true of the call stack in all runs from a machine on. -/
structure Bracketed (machine : Machine) : Prop where
  /-- No cycle of a run does anything else to the stack than a call or a return does. -/
  cycles : ∀ visited last, Course machine visited last → ∀ given trace report after,
    attempt given trace last = .ok report after → last.Stacks given after
  /-- The stack never holds more than sixteen places. -/
  shallow : ∀ visited last, Course machine visited last →
    ∀ state ∈ machine :: visited, state.stack.length ≤ 16
  /-- As long as a run does not fall below the stack it began with, that stack is kept. -/
  keeps : ∀ visited last, Course machine visited last →
    (∀ state ∈ visited, machine.stack.length ≤ state.stack.length) →
      ∀ state ∈ visited, machine.stack.entries <+: state.stack.entries
  /-- The first cycle after a call that comes back to the stack before it is a return, and it
  leads to the place after the call. -/
  returns : ∀ call given trace report inside, machine.Carries given call →
    call.operation = .call → attempt given trace machine = .ok report inside →
      ∀ visited before, Course inside visited before →
        (∀ state ∈ visited, machine.stack.length < state.stack.length) →
          ∀ given trace report after, attempt given trace before = .ok report after →
            after.stack.length = machine.stack.length →
              (∃ instruction, before.Carries given instruction ∧
                instruction.operation = .returnFromCall) ∧
                after.stack.entries = machine.stack.entries ∧
                after.programCounter = machine.programCounter + 2

theorem Shallow.length_le (shallow : machine.Shallow) : machine.stack.length ≤ 16 := by
  have length := shallow.length
  rw [shallow.depth] at length
  exact Int.ofNat_le.mp length

theorem pushed_of_call (intact : machine.Intact) (carries : machine.Carries given instruction)
    (call : instruction.operation = .call)
    (ran : attempt given trace machine = .ok report after) :
    after.stack.entries = machine.stack.entries ++ [machine.programCounter + 2] := by
  cases stacked_of_attempt intact ran with
  | called _ _ _ pushed => exact pushed
  | returned other carried operation =>
    cases carries.unique carried
    rw [call] at operation
    cases operation
  | kept neither => exact absurd call (neither instruction carries).1

theorem Intact.bracketed (intact : machine.Intact) (shallow : machine.Shallow) :
    machine.Bracketed where
  cycles _ _ course _ _ _ _ ran := stacked_of_attempt (course.intact intact) ran
  shallow _ _ course :=
    List.forall_mem_cons.mpr ⟨shallow.length_le, fun state member =>
      (course.shallow intact shallow state member).length_le⟩
  keeps _ _ course deep := (course.keeps_base intact (List.prefix_refl _) deep).1
  returns call given trace report inside carries operation ran visited before course above
      _ _ _ after back level := by
    have opened := pushed_of_call intact carries operation ran
    have within := (moves_of_attempt intact ran).intact intact
    have deep : ∀ state ∈ visited,
        (machine.stack.entries ++ [machine.programCounter + 2]).length ≤ state.stack.length := by
      intro state member
      rw [List.length_append, List.length_singleton]
      exact above state member
    have kept := (course.keeps_base within (opened ▸ List.prefix_refl _) deep).2
    exact (stacked_of_attempt (course.intact within) back).returns kept (Nat.le_of_eq level)

/-- Whatever was asked of a machine before, hand-made instructions and resets to any address
included: from then on calls and returns match. -/
theorem calls_match_returns {rom : Option (List UInt8)} {speed : Option ClockSpeed}
    {dialect : Dialect} {bytes : Nat → UInt8} {new : Machine}
    (built : boot rom speed dialect bytes = .ok new) (actions : List Action)
    (reached : machine = new.actAll actions) : machine.Bracketed := by
  have intact : machine.Intact := reached ▸ intact_of_boot built actions
  have begun : new.Shallow := by
    obtain ⟨pace, -, -, rfl⟩ := boot_eq_ok_iff.mp built
    exact ⟨rfl, show (0 : Int) ≤ Layout.stackDepth by decide⟩
  have came : Moves (fun _ => True) (fun _ => True) new (new.actAll actions) :=
    actAll_moves (intact_of_boot built []) (fun _ _ => trivial) actions
      fun action _ => action.within_true
  exact intact.bracketed (reached ▸ came.shallow begun)

/-- A call and a return, handed to a new machine. -/
theorem calls_match_returns_once :
    let dialect := Dialect.ofChoices none none none none
    let calling := Instruction.ofFields .call 0x2300
    let returning := Instruction.ofFields .returnFromCall 0x00EE
    ∃ new called inside returned after,
      boot (some [0x12, 0x00]) none dialect (fun _ => 0) = .ok new ∧
      execute calling true new = .ok called inside ∧
      execute returning true inside = .ok returned after ∧
      inside.stack.entries = [0x202] ∧ after.stack.entries = [] ∧
      after.programCounter = 0x202 := by
  intro dialect calling returning
  let new := booted Pace.standard dialect (fun _ => 0) [0x12, 0x00]
  have built := boot_standard [0x12, 0x00] (by decide) dialect fun _ => 0
  have intact : new.Intact := intact_booted _ _ _ _
  have range (operation : Operation) (opcode : Int) :
      (Instruction.ofFields operation opcode).InRange := Instruction.inRange_ofFields _ _
  have called :=
    (execute_outcome calling true (fun _ => intact.proper) rfl rfl).eq_ok (range _ _) rfl
  have moves := attempt_moves intact (some calling) true
  rw [Routine.leaves, attempt, called] at moves
  have within := moves.intact intact
  have returned :=
    (execute_outcome returning true (fun _ => within.proper) rfl rfl).eq_ok (range _ _) rfl
  obtain ⟨-, below, next⟩ :=
    (calls_match_returns built [] rfl).returns calling (some calling) true _ _
      ⟨rfl, .inl rfl⟩ rfl called [] _ .done (fun _ absent => absurd absent List.not_mem_nil)
      (some returning) true _ _ returned rfl
  exact ⟨_, _, _, _, _, built, called, returned, rfl, below, next⟩

end Chip8.Machine
