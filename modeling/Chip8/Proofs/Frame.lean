/-
This file proves that a frame is its cycles and then one tick of the timers.

The pace is accounted before the first cycle, and no cycle looks at it. So a
frame that owes a number of cycles comes to what that many single steps come to,
with the credit replaced: if none of them is refused the timers tick once and a
listener has been shown every step, and otherwise the frame ends where the
refused step left the machine, the timers untouched and the listener shown what
came before.

Nothing but the two instructions that set a timer changes it during a cycle.
Over any number of frames a timer that is not set therefore counts down by
their number, however many cycles they run and whether or not those wait.
-/

import Mathlib.Algebra.GroupWithZero.Nat
import Chip8.Proofs.Atomicity
import Chip8.Proofs.Guise

namespace Chip8

/-- One of the two timers. -/
inductive Timer where
  | delay
  | sound

namespace Timer

def value : Timer → Timers → UInt8
  | delay, timers => timers.delay
  | sound, timers => timers.sound

/-- The operation that sets the timer. -/
def setter : Timer → Operation
  | delay => .setDelay
  | sound => .setSound

theorem toNat_value_tick (timer : Timer) (timers : Timers) :
    (timer.value timers.tick).toNat = (timer.value timers).toNat - 1 := by
  cases timer <;> exact Timers.toNat_countDown _

end Timer

namespace Machine

/-- Single steps, one after the other, none of them refused, with what could be observed of
each. -/
inductive Steps (trace : Bool) : Machine → List Observation → Machine → Prop
  | none (machine : Machine) : Steps trace machine [] machine
  | more {first second last : Machine} {report : CycleReport} {picture : Snapshot}
      {rest : List Observation} (ran : step trace first = .ok report second)
      (depicted : second.Depicted picture) (others : Steps trace second rest last) :
      Steps trace first (⟨report, picture⟩ :: rest) last

/-- What a listener is shown of some steps, if there is one. -/
def shown (listening : Bool) (observed : List Observation) : Array Observation :=
  if listening then observed.toArray else #[]

theorem shown_nil (listening : Bool) : shown listening [] = #[] := by
  cases listening <;> rfl

theorem shown_cons (listening : Bool) (seen : Observation) (rest : List Observation) :
    shown listening (seen :: rest) = shown listening [seen] ++ shown listening rest := by
  cases listening <;> simp [shown]

/-- The machine with another credit. -/
def owing (machine : Machine) (credit : Float) : Machine :=
  { machine with pace := { machine.pace with credit := credit } }

variable {machine after first last : Machine} {listening trace : Bool} {report : CycleReport}
  {trap : Trap} {observed : List Observation} {owed : Nat} {pace : Pace}

/-- Tracing a step changes nothing but its report. -/
theorem step_of_traced (machine : Machine) :
    (∃ after notes, ∀ trace, step trace machine = .ok (machine.reportOf after notes trace) after) ∨
      ∃ trap after, ∀ trace, step trace machine = .error trap after := by
  cases running : machine.fault with
  | some fault => exact .inr ⟨_, _, fun _ => guarded_of_halted _ running⟩
  | none =>
    simp only [step, guarded_of_running _ running, cycle_apply]
    cases machine.working none with
    | ok completion after => exact .inl ⟨_, _, fun _ => rfl⟩
    | error trap after =>
      cases trap with
      | fault fault => exact .inr ⟨_, _, fun _ => rfl⟩
      | _ => exact .inr ⟨_, _, fun _ => rfl⟩

theorem step_ok_retraced (ran : step trace machine = .ok report after) (other : Bool) :
    ∃ report, step other machine = .ok report after := by
  rcases step_of_traced machine with ⟨left, notes, same⟩ | ⟨trap, left, same⟩
  · rw [same] at ran
    cases ran
    exact ⟨_, same other⟩
  · rw [same] at ran
    cases ran

theorem step_error_retraced (refused : step trace machine = .error trap after) (other : Bool) :
    step other machine = .error trap after := by
  rcases step_of_traced machine with ⟨left, notes, same⟩ | ⟨trap, left, same⟩
  · rw [same] at refused
    cases refused
  · rw [same] at refused ⊢
    exact refused

theorem pace_of_step (trace : Bool) (machine : Machine) :
    ((step trace).leaves machine).pace = machine.pace :=
  Guise.pace_leaves (fun _ => Guise.fools_step trace) machine

theorem Steps.keeps_pace (steps : Steps trace first observed last) : last.pace = first.pace := by
  induction steps with
  | none => rfl
  | @more first _ _ _ _ _ ran _ _ inductionHypothesis =>
    have kept := pace_of_step trace first
    rw [Routine.leaves, ran] at kept
    exact inductionHypothesis.trans kept

/-! ### A run of cycles -/

theorem cycles_of_trapped (count : Nat) (run : Run) (trapped : run.trap.isSome) :
    Run.cycles listening count run = run := by
  cases count with
  | zero => rfl
  | succ count => rw [Run.cycles, if_pos trapped]

theorem cycles_of_untrapped (count : Nat) (machine : Machine) (seen : Array Observation) :
    Run.cycles listening (count + 1) ⟨machine, seen, none⟩ =
      Run.cycles listening count (Run.advance listening ⟨machine, seen, none⟩) := rfl

/-- A run goes through the steps and is shown them. -/
theorem cycles_of_steps (traced : listening = true → trace = true)
    (steps : Steps trace first observed last) (seen : Array Observation) (more : Nat) :
    Run.cycles listening (observed.length + more) ⟨first, seen, none⟩ =
      Run.cycles listening more ⟨last, seen ++ shown listening observed, none⟩ := by
  induction steps generalizing seen with
  | none machine =>
    rw [shown_nil, Array.append_empty, List.length_nil, Nat.zero_add]
  | @more first second last report _ rest ran depicted _ inductionHypothesis =>
    obtain rfl := depicted.eq_snapshot
    -- A listener has its steps traced; without one their reports do not matter.
    have advanced : Run.advance listening ⟨first, seen, none⟩ =
        ⟨second, seen ++ shown listening [⟨report, second.snapshot⟩], none⟩ := by
      cases listening with
      | true =>
        rw [traced rfl] at ran
        simp [Run.advance, ran, shown]
      | false =>
        obtain ⟨unheard, ran⟩ := step_ok_retraced ran false
        simp [Run.advance, ran, shown]
    rw [List.length_cons, Nat.add_right_comm, cycles_of_untrapped, advanced,
      inductionHypothesis, Array.append_assoc, ← shown_cons]

/-- A run ends at the first step that is refused. -/
theorem cycles_of_refused (refused : step trace machine = .error trap after)
    (seen : Array Observation) {count : Nat} (positive : 0 < count) :
    Run.cycles listening count ⟨machine, seen, none⟩ = ⟨after, seen, some trap⟩ := by
  obtain ⟨more, rfl⟩ : ∃ more, count = more + 1 := ⟨count - 1, by omega⟩
  have advanced : Run.advance listening ⟨machine, seen, none⟩ = ⟨after, seen, some trap⟩ := by
    rw [Run.advance, step_error_retraced refused listening]
  rw [cycles_of_untrapped, advanced, cycles_of_trapped _ _ rfl]

/-- Any number of steps can be taken, unless one before is refused. -/
theorem steps_or_refused (trace : Bool) (count : Nat) (machine : Machine) :
    ∃ observed last, Steps trace machine observed last ∧
      (observed.length = count ∨
        observed.length < count ∧ ∃ trap after, step trace last = .error trap after) := by
  induction count generalizing machine with
  | zero => exact ⟨[], machine, .none machine, .inl rfl⟩
  | succ count inductionHypothesis =>
    cases ran : step trace machine with
    | error trap after =>
      exact ⟨[], machine, .none machine, .inr ⟨Nat.succ_pos count, trap, after, ran⟩⟩
    | ok report second =>
      obtain ⟨observed, last, steps, reached⟩ := inductionHypothesis second
      refine ⟨_, last, .more ran (depicted_snapshot _) steps, ?_⟩
      rcases reached with whole | ⟨short, refused⟩
      · exact .inl (congrArg (· + 1) whole)
      · exact .inr ⟨Nat.succ_lt_succ short, refused⟩

/-! ### One frame -/

/-- Accounting a frame changes the credit only, and tells a number of cycles unless the credit
has no whole part. -/
theorem due_cases (pace : Pace) :
    (∃ owed credit, pace.due = (.ok owed, { pace with credit := credit })) ∨
      ∃ cause credit, pace.due = (.error (.notFinite cause), { pace with credit := credit }) := by
  unfold Pace.due
  dsimp only
  cases Double.whole (pace.credit + pace.perFrame) with
  | ok cycles => exact .inl ⟨_, _, rfl⟩
  | error cause => exact .inr ⟨_, _, rfl⟩

theorem pace_of_due {due : Except Trap Nat} (owes : machine.pace.due = (due, pace)) :
    pace = { machine.pace with credit := pace.credit } := by
  rcases due_cases machine.pace with ⟨_, _, same⟩ | ⟨_, _, same⟩
  · rw [same] at owes
    cases owes
    rfl
  · rw [same] at owes
    cases owes
    rfl

/-- A frame that owes no number of cycles only has its credit accounted. -/
theorem runFrame_of_unowed (owes : machine.pace.due = (.error trap, pace)) :
    machine.runFrame listening = (0, ⟨machine.owing pace.credit, #[], some trap⟩) := by
  have accounted := pace_of_due owes
  unfold runFrame
  rw [owes, owing, ← accounted]
  rfl

/-- A frame runs its cycles on the machine as it was, and the credit is replaced. -/
theorem runFrame_of_owed (owes : machine.pace.due = (.ok owed, pace)) :
    machine.runFrame listening =
      let run := (Guise.ofPace pace).onRun (Run.cycles listening owed (Run.start machine))
      (owed, if run.trap.isSome then run else { run with machine := run.machine.tickTimers }) := by
  have cycled : Run.cycles listening owed ((Guise.ofPace pace).onRun (Run.start machine)) =
      (Guise.ofPace pace).onRun (Run.cycles listening owed (Run.start machine)) :=
    Guise.cycles_onRun listening owed (Run.start machine)
  unfold runFrame
  rw [owes]
  dsimp only
  rw [← cycled]
  rfl

/-- What a frame that owes a number of cycles promises, in terms of single steps. -/
structure FrameLaw (machine : Machine) (listening trace : Bool) (owed : Nat) (credit : Float) :
    Prop where
  /-- With as many steps as are owed, the timers tick once after them. -/
  whole : ∀ observed last, Steps trace machine observed last → observed.length = owed →
    machine.runFrame listening =
      (owed, ⟨last.tickTimers.owing credit, shown listening observed, none⟩)
  /-- A step that is refused cuts the frame short, and the timers do not tick. -/
  cut : ∀ observed last trap after, Steps trace machine observed last → observed.length < owed →
    step trace last = .error trap after →
    machine.runFrame listening =
      (owed, ⟨after.owing credit, shown listening observed, some trap⟩)
  /-- Either the steps can all be taken, or one of them is refused. -/
  decided : ∃ observed last, Steps trace machine observed last ∧
    (observed.length = owed ∨
      observed.length < owed ∧ ∃ trap after, step trace last = .error trap after)

theorem frameLaw (traced : listening = true → trace = true)
    (owes : machine.pace.due = (.ok owed, pace)) :
    FrameLaw machine listening trace owed pace.credit := by
  have accounted := pace_of_due owes
  constructor
  · intro observed last steps length
    have run := cycles_of_steps traced steps #[] 0
    have replaced : (Guise.ofPace pace).on last = last.owing pace.credit := by
      rw [owing, steps.keeps_pace, ← accounted]
      rfl
    rw [Nat.add_zero, length, Array.empty_append, Run.cycles] at run
    rw [runFrame_of_owed owes, Run.start, run]
    show (owed, (⟨((Guise.ofPace pace).on last).tickTimers, _, _⟩ : Run)) = _
    rw [replaced]
    rfl
  · intro observed last trap after steps short refused
    have run := cycles_of_steps traced steps #[] (owed - observed.length)
    have replaced : (Guise.ofPace pace).on after = after.owing pace.credit := by
      have kept := pace_of_step trace last
      rw [Routine.leaves, refused] at kept
      rw [owing, show after.pace = machine.pace from kept.trans steps.keeps_pace, ← accounted]
      rfl
    rw [Nat.add_sub_cancel' (Nat.le_of_lt short), Array.empty_append,
      cycles_of_refused refused _ (Nat.sub_pos_of_lt short)] at run
    rw [runFrame_of_owed owes, Run.start, run]
    show (owed, (⟨(Guise.ofPace pace).on after, _, _⟩ : Run)) = _
    rw [replaced]
  · exact steps_or_refused trace owed machine

/-- What a frame can come to. -/
inductive Framing (machine : Machine) (listening : Bool) : Nat × Run → Prop
  | unowed (cause : Double.NotFinite) (credit : Float) :
      Framing machine listening (0, ⟨machine.owing credit, #[], some (.notFinite cause)⟩)
  | whole (observed : List Observation) (last : Machine) (credit : Float)
      (steps : Steps true machine observed last) :
      Framing machine listening
        (observed.length, ⟨last.tickTimers.owing credit, shown listening observed, none⟩)
  | cut (owed : Nat) (observed : List Observation) (last : Machine) (trap : Trap)
      (after : Machine) (credit : Float) (steps : Steps true machine observed last)
      (short : observed.length < owed) (refused : step true last = .error trap after) :
      Framing machine listening
        (owed, ⟨after.owing credit, shown listening observed, some trap⟩)

theorem runFrame_framing (machine : Machine) (listening : Bool) :
    Framing machine listening (machine.runFrame listening) := by
  rcases due_cases machine.pace with ⟨owed, credit, owes⟩ | ⟨cause, credit, owes⟩
  · have law : FrameLaw machine listening true owed credit := frameLaw (fun _ => rfl) owes
    obtain ⟨observed, last, steps, rfl | ⟨short, trap, after, refused⟩⟩ := law.decided
    · rw [law.whole observed last steps rfl]
      exact .whole observed last credit steps
    · rw [law.cut observed last trap after steps short refused]
      exact .cut owed observed last trap after credit steps short refused
  · rw [runFrame_of_unowed owes]
    exact .unowed cause credit

/-! ### What a cycle does to the timers and the count -/

/-- The next cycle of the machine carries out an instruction of an operation. -/
def Executes (machine : Machine) (operation : Operation) : Prop :=
  machine.awaiting = none ∧
    ∃ instruction, machine.next = .ok instruction ∧ instruction.operation = operation

theorem value_timersAfter {timer : Timer} {instruction : Instruction}
    (other : instruction.operation ≠ timer.setter) :
    timer.value (machine.timersAfter instruction) = timer.value machine.timers := by
  unfold timersAfter
  split
  · next same =>
    cases timer with
    | delay => exact absurd same other
    | sound => rfl
  · next same =>
    cases timer with
    | delay => rfl
    | sound => exact absurd same other
  · rfl

theorem readRegister_ok {number : Int} {byte : UInt8}
    (ran : readRegister number machine = .ok byte after) : after = machine := by
  obtain ⟨_, _, ⟨⟩, looked⟩ := Routine.of_bind_ok ran
  exact (Routine.of_demand_ok looked).2

/-- Drawing leaves everything but the registers and the display alone, on displays of any kind. -/
theorem drawSprite_ok {x y rows : Int} {completion : Completion}
    (ran : drawSprite x y rows machine = .ok completion after) :
    ∃ registers display, after = { machine with registers := registers, display := display } := by
  unfold drawSprite at ran
  obtain ⟨_, _, ⟨⟩, loading⟩ := Routine.of_bind_ok ran
  obtain ⟨sprite, _, loaded, placing⟩ := Routine.of_bind_ok loading
  obtain ⟨-, rfl⟩ := Routine.of_demand_ok loaded
  obtain ⟨column, _, readX, placing⟩ := Routine.of_bind_ok placing
  cases readRegister_ok readX
  obtain ⟨row, _, readY, drawing⟩ := Routine.of_bind_ok placing
  cases readRegister_ok readY
  obtain ⟨hit, _, drew, ⟨⟩⟩ := Routine.of_bind_ok drawing
  unfold onDisplay Routine.onPart at drew
  split at drew
  · cases drew
    exact ⟨_, _, rfl⟩
  · cases drew

theorem retire_drawSprite_ok {instruction : Instruction} {completion : Completion}
    (draws : instruction.operation = .drawSprite)
    (ran : retire instruction machine = .ok completion after) :
    ∃ registers display,
      after = { machine.holding instruction with registers := registers, display := display } := by
  have performed := perform_of_retire_ok ran
  obtain ⟨operation, opcode, x, y, n, kk, nnn⟩ := instruction
  cases draws
  exact drawSprite_ok performed

/-- An instruction that is carried out counts as one cycle, and sets no timer unless that is its
operation. -/
theorem after_execute {instruction : Instruction}
    (running : machine.fault = none) (idle : machine.awaiting = none)
    (ran : execute instruction trace machine = .ok report after) :
    after.cycles = machine.cycles + 1 ∧
      ∀ timer : Timer, instruction.operation ≠ timer.setter →
        timer.value after.timers = timer.value machine.timers := by
  -- The outcome of drawing is known only on displays with pixels, which are not asked for here.
  by_cases draws : instruction.operation = .drawSprite
  · obtain ⟨completion, left, retired, rfl⟩ := retire_of_execute_ok running idle ran
    obtain ⟨registers, display, rfl⟩ := retire_drawSprite_ok draws retired
    exact ⟨rfl, fun _ _ => rfl⟩
  · have outcome := execute_outcome instruction trace (fun drawing => absurd drawing draws)
      running idle
    rw [ran] at outcome
    cases outcome
    exact ⟨rfl, fun timer other => value_timersAfter other⟩

/-- A step that is not refused counts as one cycle, and changes no timer unless it carries out
the instruction that sets it. -/
theorem after_step (ran : step trace machine = .ok report after) :
    after.cycles = machine.cycles + 1 ∧
      ∀ timer : Timer, ¬ machine.Executes timer.setter →
        timer.value after.timers = timer.value machine.timers := by
  cases running : machine.fault with
  | some fault =>
    rw [step, guarded_of_halted _ running] at ran
    cases ran
  | none =>
    cases waiting : machine.awaiting with
    | none =>
      cases next : machine.next with
      | error fault =>
        rw [step_of_absent running waiting next] at ran
        cases ran
      | ok instruction =>
        rw [step_of_next running waiting next] at ran
        obtain ⟨counted, kept⟩ := after_execute running waiting ran
        exact ⟨counted, fun timer idle =>
          kept timer fun sets => idle ⟨waiting, instruction, next, sets⟩⟩
    | some register =>
      cases latched : machine.keypad.latch with
      | none =>
        rw [step_of_unlatched running waiting latched] at ran
        cases ran
        exact ⟨rfl, fun _ _ => rfl⟩
      | some key =>
        by_cases named : Registers.Names register
        · rw [step_of_latched running waiting latched named] at ran
          cases ran
          exact ⟨rfl, fun _ _ => rfl⟩
        · rw [step_of_unnamed running waiting latched named] at ran
          cases ran

theorem Steps.counted (steps : Steps trace first observed last) :
    last.cycles = first.cycles + observed.length := by
  induction steps with
  | none => rfl
  | more ran _ _ inductionHypothesis =>
    rw [inductionHypothesis, (after_step ran).1, List.length_cons, Nat.add_assoc, Nat.add_comm 1]

theorem Steps.keeps_timer (steps : Steps trace first observed last) {timer : Timer}
    (unset : ∀ earlier middle, Steps trace first earlier middle →
      earlier.length < observed.length → ¬ middle.Executes timer.setter) :
    timer.value last.timers = timer.value first.timers := by
  induction steps with
  | none => rfl
  | @more first second last report _ rest ran depicted _ inductionHypothesis =>
    have later := inductionHypothesis fun earlier middle steps short =>
      unset _ middle (.more ran depicted steps) (Nat.succ_lt_succ short)
    exact later.trans ((after_step ran).2 timer (unset [] first (.none first) (Nat.succ_pos _)))

/-! ### Frame after frame -/

/-- A frame that was run: the machine before it, and how many cycles it owed. -/
structure Framed where
  before : Machine
  owed : Nat

/-- Within the frame an instruction of an operation is carried out. -/
def Framed.Executes (framed : Framed) (operation : Operation) : Prop :=
  ∃ observed last, Steps true framed.before observed last ∧ observed.length < framed.owed ∧
    last.Executes operation

/-- Frames run one after the other, none of them cut short. -/
inductive Frames : Machine → List Framed → Machine → Prop
  | none (machine : Machine) : Frames machine [] machine
  | more {first last : Machine} {listening : Bool} {owed : Nat} {run : Run} {rest : List Framed}
      (ran : first.runFrame listening = (owed, run)) (untrapped : run.trap = none)
      (others : Frames run.machine rest last) : Frames first (⟨first, owed⟩ :: rest) last

/-- A frame that is not cut short takes the steps it owes and lets the timers tick. -/
theorem steps_of_runFrame {run : Run} (ran : machine.runFrame listening = (owed, run))
    (untrapped : run.trap = none) :
    ∃ observed last credit, Steps true machine observed last ∧ observed.length = owed ∧
      run.machine = last.tickTimers.owing credit := by
  have framing := runFrame_framing machine listening
  rw [ran] at framing
  cases framing with
  | unowed => cases untrapped
  | whole observed last credit steps => exact ⟨observed, last, credit, steps, rfl, rfl⟩
  | cut => cases untrapped

/-- Over a number of frames the cycles they owe are counted, and a timer that none of them sets
counts down by that number. -/
theorem Frames.tally {frames : List Framed} (ran : Frames first frames last) :
    last.cycles = first.cycles + (frames.map Framed.owed).sum ∧
      ∀ timer : Timer, (∀ framed ∈ frames, ¬ framed.Executes timer.setter) →
        (timer.value last.timers).toNat = (timer.value first.timers).toNat - frames.length := by
  induction ran with
  | none => exact ⟨rfl, fun _ _ => rfl⟩
  | @more first last listening owed run rest ran untrapped _ inductionHypothesis =>
    obtain ⟨observed, stepped, credit, steps, length, left⟩ := steps_of_runFrame ran untrapped
    obtain ⟨counted, ticked⟩ := inductionHypothesis
    rw [left] at counted ticked
    constructor
    · have cycles : stepped.cycles = first.cycles + owed := length ▸ steps.counted
      rw [counted, List.map_cons, List.sum_cons, ← Nat.add_assoc, ← cycles]
      rfl
    · intro timer unset
      have kept : timer.value stepped.timers = timer.value first.timers := by
        refine steps.keeps_timer fun earlier middle reached short executes => ?_
        exact unset _ List.mem_cons_self ⟨earlier, middle, reached, length ▸ short, executes⟩
      have tick : (timer.value (stepped.tickTimers.owing credit).timers).toNat =
          (timer.value first.timers).toNat - 1 :=
        (timer.toNat_value_tick stepped.timers).trans (congrArg (UInt8.toNat · - 1) kept)
      rw [ticked timer fun framed member => unset framed (List.mem_cons_of_mem _ member), tick,
        List.length_cons, Nat.sub_sub, Nat.add_comm 1]

/-- A frame that owes a number of cycles comes to that many steps and one tick of the timers, or
to the first step that is refused. So over any number of frames that are not cut short the count
of cycles grows by what they owed, and a timer that none of them sets counts down by their
number, resting at zero. -/
theorem frames_step_and_tick (machine : Machine) :
    (∀ (listening trace : Bool) (owed : Nat) (pace : Pace), (listening = true → trace = true) →
        machine.pace.due = (.ok owed, pace) →
        FrameLaw machine listening trace owed pace.credit) ∧
      ∀ (frames : List Framed) (last : Machine), Frames machine frames last →
        last.cycles = machine.cycles + (frames.map Framed.owed).sum ∧
          ∀ timer : Timer, (∀ framed ∈ frames, ¬ framed.Executes timer.setter) →
            (timer.value last.timers).toNat =
              (timer.value machine.timers).toNat - frames.length :=
  ⟨fun _ _ _ _ traced owes => frameLaw traced owes, fun _ _ ran => ran.tally⟩

/-- Two frames of one cycle each, both spent waiting for a key: the sound timer, which runs out
in the first, rests in the second. -/
theorem frames_step_and_tick_waiting :
    let dialect := Dialect.ofChoices none none none none
    let machine : Machine :=
      { booted ⟨1, 0⟩ dialect (fun _ => 0) [] with awaiting := some 3, timers := ⟨3, 1⟩ }
    ∃ frames last, Frames machine frames last ∧ frames.length = 2 ∧ last.cycles = 2 ∧
      last.timers.delay.toNat = 1 ∧ last.timers.sound.toNat = 0 := by
  intro dialect machine
  have waits (current : Machine) (running : current.fault = none)
      (waiting : current.awaiting = some 3) (unlatched : current.keypad.latch = none)
      (paced : current.pace = ⟨1, 0⟩) :
      current.runFrame false = (1, ⟨current.waited.tickTimers.owing 0, #[], none⟩) := by
    have owes : current.pace.due = (.ok 1, ⟨1, 0⟩) := by
      rw [paced]
      rfl
    have law := (frames_step_and_tick current).1 false true 1 ⟨1, 0⟩ (fun _ => rfl) owes
    exact law.whole _ _ (.more (step_of_unlatched running waiting unlatched)
      (depicted_snapshot _) (.none _)) rfl
  have idles (current : Machine) (waiting : current.awaiting = some 3) (timer : Timer) :
      ¬ (Framed.mk current 1).Executes timer.setter := by
    rintro ⟨observed, last, steps, short, idle, -⟩
    cases List.length_eq_zero_iff.mp (Nat.lt_one_iff.mp short)
    cases steps
    cases waiting.symm.trans idle
  let second := machine.waited.tickTimers.owing 0
  let last := second.waited.tickTimers.owing 0
  have ran : Frames machine [⟨machine, 1⟩, ⟨second, 1⟩] last :=
    .more (waits machine rfl rfl rfl rfl) rfl (.more (waits second rfl rfl rfl rfl) rfl (.none _))
  have unset (timer : Timer) : ∀ framed ∈ [Framed.mk machine 1, Framed.mk second 1],
      ¬ framed.Executes timer.setter :=
    List.forall_mem_cons.mpr
      ⟨idles machine rfl timer, List.forall_mem_singleton.mpr (idles second rfl timer)⟩
  obtain ⟨counted, ticked⟩ := (frames_step_and_tick machine).2 _ last ran
  exact ⟨_, last, ran, rfl, counted, ticked .delay (unset .delay), ticked .sound (unset .sound)⟩

end Machine

end Chip8
