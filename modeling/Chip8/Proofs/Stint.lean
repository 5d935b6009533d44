/-
This file says what a frame of a session comes to, in terms of single steps.

The two ways to run a frame each have a loop of their own: one is driven by
requests and prints as it goes, the other by the credit of the pace, inside the
machine. Both come to a stint: a number of cycles, run one after the other as
far as none is refused. The stint says what could be observed of them, what cut
them short, and the machine they leave. The laws here tell from the stint
everything else that either way leaves in the session, so what is claimed of
frames need not go through the loops again.
-/

import Chip8.Host.Session
import Chip8.Proofs.Frame

namespace Chip8

/-- The lines that cycles are printed in: each with its report and the machine after it. -/
def Report.lines (observed : List Observation) : List String :=
  observed.flatMap fun seen => [Report.cycle seen.report, Report.stateLine seen.after]

/-- How many cycles were attempted: those that were completed, and the one that was refused. -/
def attempts (observed : List Observation) (trap : Option Trap) : Nat :=
  observed.length + if trap.isSome then 1 else 0

/-- A source left alone draws as it does. -/
theorem Guise.draws_id (source : RandomSource) :
    (id source).next = (source.next.1, id source.next.2) := rfl

/-- The guise of another count of cycles. -/
abbrev Guise.ofCycles (cycles : Nat) : Guise where
  pace := id
  opcode := id
  instruction := id
  fault := id
  cycles := fun _ => cycles
  random := id
  draws := draws_id

namespace Machine

/-- A number of cycles, run as far as none is refused: what could be observed of them, what cut
them short, and the machine they leave. -/
inductive Stint (machine : Machine) (count : Nat) :
    List Observation → Option Trap → Machine → Prop
  | whole {observed : List Observation} {last : Machine}
      (steps : Steps true machine observed last) (all : observed.length = count) :
      Stint machine count observed none last
  | cut {observed : List Observation} {last after : Machine} {trap : Trap}
      (steps : Steps true machine observed last) (short : observed.length < count)
      (refused : step true last = .error trap after) :
      Stint machine count observed (some trap) after

/-- The machine at the end of a frame: the timers tick, unless the frame was cut short. -/
def closed (machine : Machine) (trap : Option Trap) : Machine :=
  if trap.isSome then machine else machine.tickTimers

variable {machine after : Machine} {instruction : Instruction} {trace : Bool} {count owed : Nat}
  {observed : List Observation} {trap : Option Trap} {refusal : Trap} {pace : Pace}

/-! ### Steps that are refused -/

/-- Nothing that an instruction does is counted. -/
theorem cycles_of_perform_error (refused : perform instruction machine = .error refusal after) :
    after.cycles = machine.cycles := by
  have fooled : (Guise.ofCycles machine.cycles).Fools (perform instruction) :=
    Guise.fools_perform instruction
  have same : perform instruction machine =
      (Guise.ofCycles machine.cycles).onResult (perform instruction machine) := fooled machine
  rw [refused] at same
  injection same with _ same
  have kept := congrArg Machine.cycles same
  exact kept

theorem cycles_of_retire_error (refused : retire instruction machine = .error refusal after) :
    after.cycles = machine.cycles := by
  have performed (met : perform instruction (machine.holding instruction) = .error refusal after) :
      after.cycles = machine.cycles := by
    have kept := cycles_of_perform_error met
    exact kept
  unfold retire at refused
  rw [Routine.bind_apply, Routine.modify_apply] at refused
  dsimp only at refused
  split at refused
  · rw [Routine.bind_apply, Routine.get_apply] at refused
    dsimp only at refused
    rw [Routine.bind_apply, Routine.demand_apply] at refused
    cases checked : checkProgramCounter (machine.programCounter + 2) with
    | ok => exact performed (by rwa [checked] at refused)
    | error =>
      rw [checked] at refused
      cases refused
      rfl
  · exact performed refused

/-- A step that is refused is not counted. -/
theorem cycles_of_step_error (refused : step trace machine = .error refusal after) :
    after.cycles = machine.cycles := by
  cases running : machine.fault with
  | some fault =>
    rw [step, guarded_of_halted _ running] at refused
    cases refused
    rfl
  | none =>
    cases waiting : machine.awaiting with
    | none =>
      cases next : machine.next with
      | error fault =>
        rw [step_of_absent running waiting next] at refused
        cases refused
        rfl
      | ok instruction =>
        rw [step_of_next running waiting next, execute_of_running _ running waiting] at refused
        cases retired : retire instruction machine with
        | ok completion left =>
          rw [retired] at refused
          cases refused
        | error earlier left =>
          have kept := cycles_of_retire_error retired
          rw [retired] at refused
          cases earlier <;> cases refused <;> exact kept
    | some register =>
      cases latched : machine.keypad.latch with
      | none =>
        rw [step_of_unlatched running waiting latched] at refused
        cases refused
      | some key =>
        by_cases named : Registers.Names register
        · rw [step_of_latched running waiting latched named] at refused
          cases refused
        · rw [step_of_unnamed running waiting latched named] at refused
          cases refused
          rfl

/-! ### Stints -/

theorem exists_stint (machine : Machine) (count : Nat) :
    ∃ observed trap after, machine.Stint count observed trap after := by
  obtain ⟨observed, last, steps, all | ⟨short, trap, after, refused⟩⟩ :=
    steps_or_refused true count machine
  · exact ⟨observed, none, last, .whole steps all⟩
  · exact ⟨observed, some trap, after, .cut steps short refused⟩

theorem Stint.attempts_le (stint : machine.Stint count observed trap after) :
    attempts observed trap ≤ count := by
  cases stint with
  | whole _ all => exact Nat.le_of_eq all
  | cut _ short => exact short

theorem Stint.cycles (stint : machine.Stint count observed trap after) :
    after.cycles = machine.cycles + observed.length := by
  cases stint with
  | whole steps => exact steps.counted
  | cut steps _ refused => rw [cycles_of_step_error refused, steps.counted]

theorem cycles_closed (machine : Machine) (trap : Option Trap) :
    (machine.closed trap).cycles = machine.cycles := by
  cases trap <;> rfl

/-- A frame that owes a number of cycles comes to the stint of that number. -/
theorem runFrame_of_stint (owes : machine.pace.due = (.ok owed, pace))
    (stint : machine.Stint owed observed trap after) (listening : Bool) :
    machine.runFrame listening =
      (owed, ⟨(after.closed trap).owing pace.credit, shown listening observed, trap⟩) := by
  have law : FrameLaw machine listening true owed pace.credit := frameLaw (fun _ => rfl) owes
  cases stint with
  | whole steps all => exact law.whole _ _ steps all
  | cut steps short refused => exact law.cut _ _ _ _ steps short refused

end Machine

namespace Session

variable {session : Session} {observed : List Observation} {trap : Option Trap}
  {after last : Machine} {commands : List Command}

/-! ### Printing -/

theorem foldl_print_eq (observed : List Observation) (session : Session) :
    observed.foldl print session =
      { session with printed := session.printed ++ (Report.lines observed).toArray } := by
  induction observed generalizing session with
  | nil => rfl
  | cons seen rest inductionHypothesis =>
    rw [List.foldl_cons, inductionHypothesis]
    simp [print, Report.lines]

/-! ### Single steps -/

/-- The session after it has served requests: what could be observed of the cycles, the machine
they left, and how many requests were taken for them. -/
def served (session : Session) (observed : List Observation) (after : Machine) (taken : Nat) :
    Session :=
  { session with
    machine := after
    controls := { session.controls with
      stepRequests := session.controls.stepRequests - taken }
    operations := session.operations + observed.length
    printed := session.printed ++ (Report.lines observed).toArray }

theorem served_nil (session : Session) : session.served [] session.machine 0 = session := by
  simp [served, Report.lines]

theorem takeStep_snd (controls : Controls) :
    controls.takeStep.2 = { controls with stepRequests := controls.stepRequests - 1 } := by
  obtain ⟨keymap, requests⟩ := controls
  cases requests <;> rfl

theorem serveRequests_of_ok {report : CycleReport} (count : Nat)
    (ran : Machine.step true session.machine = .ok report after) :
    serveRequests (count + 1) session =
      serveRequests count (session.served [⟨report, after.snapshot⟩] after 1) := by
  have printed :
      (session.printed.push (Report.cycle report)).push (Report.stateLine after.snapshot) =
      session.printed ++ #[Report.cycle report, Report.stateLine after.snapshot] := rfl
  rw [serveRequests, takeStep_snd]
  dsimp only
  rw [ran]
  dsimp only [print]
  rw [printed]
  rfl

theorem serveRequests_of_error {refusal : Trap} (count : Nat)
    (refused : Machine.step true session.machine = .error refusal after) :
    serveRequests (count + 1) session = (some refusal, session.served [] after 1) := by
  rw [serveRequests, takeStep_snd]
  dsimp only
  rw [refused]
  simp [served, Report.lines]

theorem served_served (session : Session) (first second : List Observation)
    (middle after : Machine) (taken more : Nat) :
    (session.served first middle taken).served second after more =
      session.served (first ++ second) after (taken + more) := by
  simp [served, Report.lines, Nat.sub_sub, Nat.add_assoc]

/-- Serving requests goes through the steps. -/
theorem serveRequests_of_steps (steps : Machine.Steps true session.machine observed last)
    (more : Nat) :
    serveRequests (observed.length + more) session =
      serveRequests more (session.served observed last observed.length) := by
  generalize first : session.machine = machine at steps
  induction steps generalizing session with
  | none =>
    rw [← first, List.length_nil, Nat.zero_add, served_nil]
  | @more machine second last report _ rest ran depicted _ inductionHypothesis =>
    obtain rfl := depicted.eq_snapshot
    subst first
    rw [List.length_cons, Nat.add_right_comm, serveRequests_of_ok _ ran,
      inductionHypothesis rfl, served_served, Nat.add_comm 1]
    rfl

theorem serveRequests_of_stint {count : Nat}
    (stint : session.machine.Stint count observed trap after) :
    serveRequests count session =
      (trap, session.served observed after (attempts observed trap)) := by
  cases stint with
  | whole steps all =>
    subst all
    exact serveRequests_of_steps steps 0
  | cut steps short refused =>
    obtain ⟨more, rfl⟩ : ∃ more, count = observed.length + (more + 1) :=
      ⟨count - observed.length - 1, by omega⟩
    have last := serveRequests_of_error more
      (show Machine.step true (session.served observed _ observed.length).machine = _ from refused)
    rw [serveRequests_of_steps steps, last, served_served, List.append_nil]
    rfl

/-- A frame of single steps comes to the stint of the requests it finds. -/
theorem runSteps_of_stint
    (stint : session.machine.Stint session.controls.stepRequests observed trap after) :
    session.runSteps =
      (trap, session.served observed (after.closed trap) (attempts observed trap)) := by
  rw [runSteps, serveRequests_of_stint stint]
  cases trap <;> rfl

/-! ### Running freely -/

/-- The session after it has run freely: the cycles count only if none was refused, and are
printed only when the session is debugged. -/
def released (session : Session) (observed : List Observation) (trap : Option Trap)
    (after : Machine) : Session :=
  { session with
    machine := after
    operations := session.operations + if trap.isSome then 0 else observed.length
    printed := session.printed ++
      if session.debugging then (Report.lines observed).toArray else #[] }

/-- A frame that runs freely comes to the stint of the cycles it owes. -/
theorem runFreely_of_stint {owed : Nat} {pace : Pace}
    (owes : session.machine.pace.due = (.ok owed, pace))
    (stint : session.machine.Stint owed observed trap after) :
    session.runFreely =
      (trap, session.released observed trap ((after.closed trap).owing pace.credit)) := by
  have all : trap = none → owed = observed.length := by
    rintro rfl
    cases stint with
    | whole _ all => exact all.symm
  rw [runFreely, Machine.runFrame_of_stint owes stint]
  dsimp only
  rw [← Array.foldl_toList, foldl_print_eq]
  cases debugged : session.debugging with
  | true =>
    cases trap with
    | none => simp [released, Machine.shown, debugged, all rfl]
    | some refusal => simp [released, Machine.shown, debugged]
  | false =>
    cases trap with
    | none => simp [released, Machine.shown, Report.lines, debugged, all rfl]
    | some refusal => simp [released, Machine.shown, Report.lines, debugged]

/-- A frame that owes no number of cycles is refused before its first. -/
theorem runFreely_of_unowed {refusal : Trap} {pace : Pace}
    (owes : session.machine.pace.due = (.error refusal, pace)) :
    session.runFreely =
      (some refusal, { session with machine := session.machine.owing pace.credit }) := by
  rw [runFreely, Machine.runFrame_of_unowed owes]
  rfl

/-! ### Whole frames -/

/-- What presenting a picture leaves. -/
theorem present_eq (session : Session) :
    session.present =
      let taken := session.machine.display.collect
      { session with
        machine := { session.machine with display := taken.2 }
        buzzer := session.machine.timers.soundActive
        screen := taken.1.elim session.screen session.screen.refresh
        pictures := session.pictures + if taken.1.isSome then 1 else 0 } := by
  unfold present
  dsimp only
  cases session.machine.display.collect.1 <;> rfl

/-- How a frame ends that was not quit: it is shown, unless it was cut short. -/
def concluded : Option Trap × Session → FrameEnd × Session
  | (some trap, session) => (.trapped trap, session)
  | (none, session) => (.shown, session.present)

theorem frame_of_quit (session : Session) (asks : Controls.asksToQuit commands = true) :
    session.frame commands = (.quit, session.obey commands) := by
  rw [frame, asks]
  rfl

theorem frame_of_stays (session : Session) (stays : Controls.asksToQuit commands = false) :
    session.frame commands = concluded (if session.stepping then (session.obey commands).runSteps
      else (session.obey commands).runFreely) := by
  unfold frame
  dsimp only
  rw [stays, if_neg Bool.false_ne_true]
  show _ = concluded (if (session.obey commands).stepping then _ else _)
  generalize (if (session.obey commands).stepping then (session.obey commands).runSteps
    else (session.obey commands).runFreely) = result
  rcases result with ⟨_ | trap, after⟩ <;> rfl

/-- A frame of single steps, from the stint of the requests that are pending in it. -/
theorem frame_of_stepping (stepping : session.stepping = true)
    (stays : Controls.asksToQuit commands = false)
    (stint : (session.obey commands).machine.Stint (session.obey commands).controls.stepRequests
      observed trap after) :
    session.frame commands = concluded (trap,
      (session.obey commands).served observed (after.closed trap) (attempts observed trap)) := by
  rw [frame_of_stays session stays, if_pos stepping, runSteps_of_stint stint]

/-- A frame that runs freely, from the stint of the cycles it owes. -/
theorem frame_of_free {owed : Nat} {pace : Pace} (free : session.stepping = false)
    (stays : Controls.asksToQuit commands = false)
    (owes : (session.obey commands).machine.pace.due = (.ok owed, pace))
    (stint : (session.obey commands).machine.Stint owed observed trap after) :
    session.frame commands = concluded (trap,
      (session.obey commands).released observed trap ((after.closed trap).owing pace.credit)) := by
  rw [frame_of_stays session stays, if_neg (Bool.eq_false_iff.mp free),
    runFreely_of_stint owes stint]

theorem frame_of_unowed {refusal : Trap} {pace : Pace} (free : session.stepping = false)
    (stays : Controls.asksToQuit commands = false)
    (owes : (session.obey commands).machine.pace.due = (.error refusal, pace)) :
    session.frame commands = (.trapped refusal, { session.obey commands with
      machine := (session.obey commands).machine.owing pace.credit }) := by
  rw [frame_of_stays session stays, if_neg (Bool.eq_false_iff.mp free), runFreely_of_unowed owes,
    concluded]

/-- What a frame can come to. -/
inductive Framing (session : Session) (commands : List Command) : FrameEnd × Session → Prop
  | quit (asks : Controls.asksToQuit commands = true) :
      Framing session commands (.quit, session.obey commands)
  | stepped {observed : List Observation} {trap : Option Trap} {after : Machine}
      (stepping : session.stepping = true)
      (stint : (session.obey commands).machine.Stint (session.obey commands).controls.stepRequests
        observed trap after) :
      Framing session commands (concluded (trap,
        (session.obey commands).served observed (after.closed trap) (attempts observed trap)))
  | ranFree {owed : Nat} {pace : Pace} {observed : List Observation} {trap : Option Trap}
      {after : Machine} (free : session.stepping = false)
      (owes : (session.obey commands).machine.pace.due = (.ok owed, pace))
      (stint : (session.obey commands).machine.Stint owed observed trap after) :
      Framing session commands (concluded (trap,
        (session.obey commands).released observed trap ((after.closed trap).owing pace.credit)))
  | unowed {trap : Trap} {pace : Pace} (free : session.stepping = false)
      (owes : (session.obey commands).machine.pace.due = (.error trap, pace)) :
      Framing session commands (.trapped trap, { session.obey commands with
        machine := (session.obey commands).machine.owing pace.credit })

theorem frame_framing (session : Session) (commands : List Command) :
    Framing session commands (session.frame commands) := by
  cases asks : Controls.asksToQuit commands with
  | true =>
    rw [frame_of_quit session asks]
    exact .quit asks
  | false =>
    cases stepping : session.stepping with
    | true =>
      obtain ⟨observed, trap, after, stint⟩ := Machine.exists_stint
        (session.obey commands).machine (session.obey commands).controls.stepRequests
      rw [frame_of_stepping stepping asks stint]
      exact .stepped stepping stint
    | false =>
      rcases owes : (session.obey commands).machine.pace.due with ⟨trap | owed, pace⟩
      · rw [frame_of_unowed stepping asks owes]
        exact .unowed stepping owes
      · obtain ⟨observed, trap, after, stint⟩ :=
          Machine.exists_stint (session.obey commands).machine owed
        rw [frame_of_free stepping asks owes stint]
        exact .ranFree stepping owes stint

/-- Presenting or not, the end of a frame changes no control and no mode. -/
theorem concluded_keeps (trap : Option Trap) (session : Session) :
    (concluded (trap, session)).2.controls = session.controls ∧
      (concluded (trap, session)).2.stepping = session.stepping := by
  cases trap with
  | some trap => exact ⟨rfl, rfl⟩
  | none =>
    rw [concluded, present_eq]
    exact ⟨rfl, rfl⟩

theorem stepping_frame (session : Session) (commands : List Command) :
    (session.frame commands).2.stepping = session.stepping := by
  have framing := frame_framing session commands
  generalize session.frame commands = result at framing
  cases framing with
  | quit => rfl
  | stepped | ranFree => exact (concluded_keeps _ _).2
  | unowed => rfl

end Session

end Chip8
