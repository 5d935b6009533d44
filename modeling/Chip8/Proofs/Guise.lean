/-
This file proves that a machine does the same in every guise.

Beside what instructions look at, a machine carries what they do not: its pace,
the marks a cycle leaves for diagnosis, its fault and its count of cycles. Of
its random source they see nothing but the bytes that are still to be drawn. A
guise puts something else in the place of all this, and a routine is fooled by
it when it answers the same on the machine in the guise and leaves the same
machine, in the guise.

Every instruction is fooled by every guise. Whole cycles do look at the marks,
the fault and the count, but at the pace and the source they look no more than
instructions do; only a frame looks at the pace.
-/

import Chip8.Proofs.Likeness
import Chip8.Proofs.Move

namespace Chip8

/-- Something else in the place of what no instruction looks at. From the random source put
there, the same bytes are drawn. -/
structure Guise where
  pace : Pace → Pace
  opcode : Int → Int
  instruction : Option Instruction → Option Instruction
  fault : Option Fault → Option Fault
  cycles : Nat → Nat
  random : RandomSource → RandomSource
  draws : ∀ source, (random source).next = (source.next.1, random source.next.2)

namespace Guise

/-- A machine in a guise. -/
def on (guise : Guise) (machine : Machine) : Machine :=
  { machine with
    pace := guise.pace machine.pace
    opcode := guise.opcode machine.opcode
    instruction := guise.instruction machine.instruction
    fault := guise.fault machine.fault
    cycles := guise.cycles machine.cycles
    random := guise.random machine.random }

/-- A guise that leaves alone what whole cycles look at. -/
def outward (pace : Pace → Pace) (random : RandomSource → RandomSource)
    (draws : ∀ source, (random source).next = (source.next.1, random source.next.2)) : Guise where
  pace := pace
  opcode := id
  instruction := id
  fault := id
  cycles := id
  random := random
  draws := draws

/-- The guise of another pace. -/
abbrev ofPace (pace : Pace) : Guise :=
  outward (fun _ => pace) id fun _ => rfl

variable {α β : Type}

/-- What a routine comes to, with the machine it leaves in a guise. -/
def onResult (guise : Guise) : EStateM.Result Trap Machine α → EStateM.Result Trap Machine α
  | .ok value machine => .ok value (guise.on machine)
  | .error trap machine => .error trap (guise.on machine)

/-- A routine does the same on a machine in the guise. -/
def Fools (guise : Guise) (routine : Routine Machine α) : Prop :=
  ∀ machine, routine (guise.on machine) = guise.onResult (routine machine)

variable {guise : Guise} {routine : Routine Machine α} {next : α → Routine Machine β}

@[simp] theorem on_display (machine : Machine) :
    (guise.on machine).display = machine.display := rfl

/-! ### How routines are put together -/

theorem fools_pure (value : α) : guise.Fools (pure value) := fun _ => rfl

theorem fools_throw (trap : Trap) : guise.Fools (throw trap : Routine Machine α) := fun _ => rfl

theorem fools_demand (result : Except Trap α) : guise.Fools (demand result) := by
  intro machine
  cases result <;> rfl

theorem Fools.bind (first : guise.Fools routine) (rest : ∀ value, guise.Fools (next value)) :
    guise.Fools (routine >>= next) := by
  intro machine
  rw [Routine.bind_apply, Routine.bind_apply, first machine]
  cases routine machine with
  | ok value after => exact rest value after
  | error trap after => rfl

/-- A look at the machine, of which only such parts are used as the guise leaves alone. -/
theorem Fools.look {seeing : Machine → Routine Machine α}
    (same : ∀ machine, seeing (guise.on machine) = seeing machine)
    (rest : ∀ machine, guise.Fools (seeing machine)) : guise.Fools (get >>= seeing) := by
  intro machine
  rw [Routine.bind_apply, Routine.bind_apply, Routine.get_apply, Routine.get_apply]
  show seeing (guise.on machine) (guise.on machine) = _
  rw [same]
  exact rest machine machine

theorem fools_modify {change : Machine → Machine}
    (same : ∀ machine, change (guise.on machine) = guise.on (change machine)) :
    guise.Fools (modify change) := by
  intro machine
  rw [Routine.modify_apply, Routine.modify_apply, same]
  rfl

theorem fools_ite {condition : Bool} {other : Routine Machine α} (holds : guise.Fools routine)
    (fails : guise.Fools other) : guise.Fools (if condition then routine else other) := by
  cases condition
  · exact fails
  · exact holds

/-! ### Parts of the machine -/

section

open Machine

theorem fools_onMemory (action : Memory → Except Trap Memory) :
    guise.Fools (onMemory action) :=
  .look (fun _ => rfl) fun _ => (fools_demand _).bind fun _ => fools_modify fun _ => rfl

theorem fools_onKeypad (action : Keypad → Except Trap Keypad) :
    guise.Fools (onKeypad action) :=
  .look (fun _ => rfl) fun _ => (fools_demand _).bind fun _ => fools_modify fun _ => rfl

theorem fools_onDisplay (routine : Routine Display α) : guise.Fools (onDisplay routine) := by
  intro machine
  simp only [onDisplay, Routine.onPart, on_display]
  cases routine machine.display <;> rfl

/-! ### Instructions -/

/-- A machine in a guise is like the machine without it. -/
def likeness (guise : Guise) : Likeness where
  Alike machine other := other = guise.on machine
  parts := by
    rintro machine _ rfl
    rfl
  size := by
    rintro machine _ rfl
    rfl
  byte := by
    rintro machine _ rfl
    show (guise.random machine.random).next.1 = _
    rw [guise.draws]
  changed := by
    rintro machine _ rfl parts
    rfl
  stored := by
    rintro machine _ rfl address byte -
    rfl
  drawn := by
    rintro machine _ rfl
    simp only [drawing, on, guise.draws]

theorem fools_of_meets
    (meets : ∀ machine, guise.likeness.Meets (routine machine) (routine (guise.on machine))) :
    guise.Fools routine := by
  intro machine
  have met := meets machine
  generalize routine machine = result, routine (guise.on machine) = result' at met
  cases met with
  | ok value alike =>
    cases alike
    rfl
  | error trap alike =>
    cases alike
    rfl

theorem fools_storeRegister (number : Int) (byte : UInt8) :
    guise.Fools (storeRegister number byte) :=
  fools_of_meets fun machine => Likeness.keeps_storeRegister number byte machine _ rfl

theorem fools_advance (notes : List Effect) : guise.Fools (advance notes) :=
  fools_of_meets fun machine => Likeness.keeps_advance notes machine _ rfl

/-- No instruction looks behind a guise. -/
theorem fools_perform (instruction : Instruction) : guise.Fools (perform instruction) :=
  fools_of_meets fun machine =>
    Likeness.meets_perform (show guise.likeness.Alike machine (guise.on machine) from rfl)
      instruction rfl

/-! ### Cycles -/

section

variable {pace : Pace → Pace} {random : RandomSource → RandomSource}
  {draws : ∀ source, (random source).next = (source.next.1, random source.next.2)}

theorem fools_fetch : guise.Fools fetch := by
  refine .look (fun _ => rfl) fun _ => (fools_demand _).bind fun block => ?_
  split
  · exact fools_pure _
  · exact fools_pure _

theorem fools_fetchInstruction : (outward pace random draws).Fools fetchInstruction := by
  refine .bind (fools_modify ?_) fun _ => fools_fetch.bind fun opcode =>
    .bind (fools_modify ?_) fun _ => .look (fun _ => rfl) fun _ => fools_demand _
  · exact fun _ => rfl
  · exact fun _ => rfl

theorem fools_retire (instruction : Instruction) :
    (outward pace random draws).Fools (retire instruction) := by
  refine .bind (fools_modify ?_) fun _ => fools_ite ?_ (fools_perform _)
  · exact fun _ => rfl
  · exact .look (fun _ => rfl) fun _ => (fools_demand _).bind fun _ => fools_perform _

theorem fools_pollKey (register : Int) :
    (outward pace random draws).Fools (pollKey register) := by
  refine .look (fun _ => rfl) fun machine => ?_
  cases machine.keypad.latch with
  | none => exact fools_pure _
  | some key =>
    refine (fools_storeRegister _ _).bind fun _ => .bind (fools_modify ?_) fun _ => fools_advance _
    exact fun _ => rfl

theorem working_on (given : Option Instruction) (machine : Machine) :
    ((outward pace random draws).on machine).working given =
      (outward pace random draws).onResult (machine.working given) := by
  have waits : ((outward pace random draws).on machine).awaiting = machine.awaiting := rfl
  unfold working
  rw [waits]
  cases machine.awaiting with
  | some register => exact fools_pollKey register machine
  | none =>
    cases given with
    | some instruction => exact fools_retire instruction machine
    | none =>
      dsimp only
      rw [fools_fetchInstruction machine]
      cases fetchInstruction machine with
      | ok instruction after => exact fools_retire instruction after
      | error trap after => rfl

theorem fools_cycle (given : Option Instruction) (trace : Bool) :
    (outward pace random draws).Fools (cycle given trace) := by
  intro machine
  rw [cycle_apply, cycle_apply, working_on]
  cases machine.working given <;> rfl

theorem fools_guarded {routine : Routine Machine α}
    (fooled : (outward pace random draws).Fools routine) :
    (outward pace random draws).Fools (guarded routine) := by
  intro machine
  have same : ((outward pace random draws).on machine).fault = machine.fault := rfl
  cases running : machine.fault with
  | some fault =>
    rw [guarded_of_halted routine running, guarded_of_halted routine (same.trans running)]
    rfl
  | none =>
    rw [guarded_of_running routine running, guarded_of_running routine (same.trans running),
      fooled machine]
    cases routine machine with
    | ok value after => rfl
    | error trap after => cases trap <;> rfl

theorem fools_step (trace : Bool) : (outward pace random draws).Fools (step trace) :=
  fools_guarded (fools_cycle none trace)

theorem fools_execute (instruction : Instruction) (trace : Bool) :
    (outward pace random draws).Fools (execute instruction trace) :=
  .look (fun _ => rfl) fun _ =>
    fools_ite ((fools_throw _).bind fun _ => fools_guarded (fools_cycle _ _))
      (fools_guarded (fools_cycle _ _))

theorem fools_executeWord (opcode : Int) (trace : Bool) :
    (outward pace random draws).Fools (executeWord opcode trace) :=
  .look (fun _ => rfl) fun _ => (fools_demand _).bind fun _ => fools_execute _ _

/-- What is fooled by every pace keeps the pace. -/
theorem pace_leaves {routine : Routine Machine α} (fooled : ∀ pace, (ofPace pace).Fools routine)
    (machine : Machine) : (routine.leaves machine).pace = machine.pace := by
  have same : routine machine = (ofPace machine.pace).onResult (routine machine) :=
    fooled machine.pace machine
  unfold Routine.leaves
  cases ran : routine machine with
  | ok value after =>
    rw [ran] at same
    injection same with _ same
    have kept := congrArg Machine.pace same
    exact kept
  | error trap after =>
    rw [ran] at same
    injection same with _ same
    have kept := congrArg Machine.pace same
    exact kept

/-! ### Frames and actions -/

/-- A run with its machine in a guise. -/
def onRun (guise : Guise) (run : Run) : Run :=
  { run with machine := guise.on run.machine }

theorem advance_onRun (listening : Bool) (run : Run) :
    ((outward pace random draws).onRun run).advance listening =
      (outward pace random draws).onRun (run.advance listening) := by
  have fooled : step listening ((outward pace random draws).onRun run).machine = _ :=
    fools_step listening run.machine
  unfold Run.advance
  rw [fooled]
  cases step listening run.machine <;> rfl

theorem cycles_onRun (listening : Bool) (count : Nat) (run : Run) :
    Run.cycles listening count ((outward pace random draws).onRun run) =
      (outward pace random draws).onRun (Run.cycles listening count run) := by
  induction count generalizing run with
  | zero => rfl
  | succ count inductionHypothesis =>
    rw [Run.cycles, Run.cycles, advance_onRun, inductionHypothesis]
    exact (apply_ite (outward pace random draws).onRun _ _ _).symm

/-! ### Actions -/

/-- The guise of another random source. -/
abbrev ofSource (random : RandomSource → RandomSource)
    (draws : ∀ source, (random source).next = (source.next.1, random source.next.2)) : Guise :=
  outward id random draws

theorem fools_reset (address : Int) : (ofSource random draws).Fools (reset address) := by
  refine .bind (fools_modify ?_) fun _ => (fools_onMemory _).bind fun _ =>
    (fools_onMemory _).bind fun _ => .bind (fools_modify ?_) fun _ =>
      (fools_onDisplay _).bind fun _ => fools_modify ?_
  · exact fun _ => rfl
  · exact fun _ => rfl
  · exact fun _ => rfl

theorem answering_on {reply : α → Reply} {routine : Routine Machine α}
    (fooled : guise.Fools routine) (machine : Machine) :
    (guise.on machine).answering reply routine =
      ((machine.answering reply routine).1, guise.on (machine.answering reply routine).2) := by
  unfold answering
  rw [fooled machine]
  cases routine machine <;> rfl

theorem runFrame_on (listening : Bool) (machine : Machine) :
    ((ofSource random draws).on machine).runFrame listening =
      ((machine.runFrame listening).1,
        (ofSource random draws).onRun (machine.runFrame listening).2) := by
  have same : ((ofSource random draws).on machine).pace = machine.pace := rfl
  unfold runFrame
  rw [same]
  rcases machine.pace.due with ⟨trap | owed, pace⟩
  · rfl
  · have begun : Run.start { (ofSource random draws).on machine with pace := pace } =
        (ofSource random draws).onRun (Run.start { machine with pace := pace }) := rfl
    dsimp only
    rw [begun, cycles_onRun]
    generalize Run.cycles listening owed (Run.start { machine with pace := pace }) = run
    obtain ⟨after, observed, _ | trap⟩ := run <;> rfl

/-- Whatever is asked of a machine, in the guise of another source it answers the same and is left
the same. -/
theorem act_on (machine : Machine) (action : Action) :
    ((ofSource random draws).on machine).act action =
      ((machine.act action).1, (ofSource random draws).on (machine.act action).2) := by
  cases action with
  | step trace => exact answering_on (fools_step trace) machine
  | execute instruction trace => exact answering_on (fools_execute instruction trace) machine
  | executeWord opcode trace => exact answering_on (fools_executeWord opcode trace) machine
  | runFrame listening =>
    simp only [act, runFrame_on]
    rfl
  | tickTimers => rfl
  | reset address => exact answering_on (fools_reset address) machine
  | loadRom rom => exact answering_on (fools_onMemory _) machine
  | poke address block => exact answering_on (fools_onMemory _) machine
  | setKey key down => exact answering_on (fools_onKeypad _) machine
  | releaseKeys => rfl
  | collectPicture => rfl

theorem actAll_on (machine : Machine) (actions : List Action) :
    ((ofSource random draws).on machine).actAll actions =
      (ofSource random draws).on (machine.actAll actions) := by
  induction actions generalizing machine with
  | nil => rfl
  | cons action rest inductionHypothesis =>
    show (((ofSource random draws).on machine).act action).2.actAll rest = _
    rw [act_on]
    exact inductionHypothesis (machine.act action).2

end

end

end Guise

end Chip8
