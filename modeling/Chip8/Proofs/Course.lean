/-
This file says what a session with a sound machine can come to.

A machine that is well-formed, not halted and of a sound pace can go on: its
frames owe a number of cycles, and a cycle of it succeeds or meets a fault, which
leaves everything but the fault as it was. Commands, cycles that succeed, ticks
and shown pictures keep it so. At a moment such a session therefore sleeps or
shows a frame and goes on, or it ends in one of three ways: it is asked to quit, a
cycle that is due meets a fault, or a title is due at a time that has no whole
part. Which of them it is does not depend on what comes later.
-/

import Chip8.Proofs.Credit
import Chip8.Proofs.Failure
import Chip8.Proofs.Success
import Chip8.Proofs.Atomicity
import Chip8.Proofs.Turns

namespace Chip8

namespace Machine

/-- A machine that can go on: it is well-formed and not halted, and its pace is sound. -/
structure Able (machine : Machine) : Prop extends WellFormed machine where
  running : machine.fault = none
  pace : machine.pace.Sound

variable {machine after last : Machine} {trace : Bool} {report : CycleReport} {trap : Trap}
  {observed : List Observation} {count : Nat}

/-! ### What keeps a machine able -/

theorem Able.keyed (able : machine.Able) (keypad : Keypad) :
    Able { machine with keypad := keypad } :=
  { Move.wellFormed (.keyed keypad) able.toWellFormed with
    running := able.running
    pace := able.pace }

theorem Able.collected (able : machine.Able) :
    Able { machine with display := machine.display.collect.2 } :=
  { Move.wellFormed .collected able.toWellFormed with
    running := able.running
    pace := able.pace }

theorem Able.tickTimers (able : machine.Able) : machine.tickTimers.Able :=
  { Move.wellFormed (.timed _) able.toWellFormed with
    running := able.running
    pace := able.pace }

theorem Able.owing (able : machine.Able) {credit : Float}
    (sound : Pace.Sound { machine.pace with credit := credit }) : (machine.owing credit).Able :=
  { Move.wellFormed (.paced _) able.toWellFormed with
    running := able.running
    pace := sound }

theorem fault_of_succeeded {notes : List Effect} (succeeded : machine.Succeeded none notes after) :
    after.fault = machine.fault := by
  cases succeeded <;> rfl

theorem Able.stepped (able : machine.Able) (ran : step trace machine = .ok report after) :
    after.Able := by
  have moves : Moves Instruction.InRange Layout.InProgram machine ((step trace).leaves machine) :=
    step_moves able.toIntact fun _ range => range
  have paced := pace_of_step trace machine
  rw [Routine.leaves, ran] at moves paced
  have attempted : attempt none trace machine = .ok report after := ran
  obtain ⟨notes, succeeded, -⟩ := succeeded_of_attempt able.proper attempted
  exact { moves.wellFormed able.toWellFormed with
    running := (fault_of_succeeded succeeded).trans able.running
    pace := paced ▸ able.pace }

/-- Steps, none of them refused, keep a machine able. -/
theorem Able.through (able : machine.Able) (steps : Steps trace machine observed last) :
    last.Able := by
  induction steps with
  | none => exact able
  | more ran _ _ inductionHypothesis => exact inductionHypothesis (able.stepped ran)

/-- What a step of an able machine is refused for is a fault that it meets, and the machine is
left as it was but for what shows the failure. -/
theorem Able.refused (able : machine.Able) (refused : step trace machine = .error trap after) :
    ∃ fault, trap = .fault fault ∧ machine.Untouched after fault ∧
      machine.Shows none after.snapshot := by
  obtain ⟨waits, fails⟩ := able.step_cases able.running trace
  cases waiting : machine.awaiting with
  | some register =>
    -- A machine that waits is never refused a cycle.
    obtain ⟨report, left, ran⟩ := waits (by rw [waiting]; rfl)
    rw [refused] at ran
    cases ran
  | none =>
    have error : trap.isMachineError = true := by
      have cases := fails waiting
      split at cases
      · obtain ⟨left, failed⟩ := cases
        rw [refused] at failed
        cases failed
        rfl
      · split at cases
        · obtain ⟨left, failed⟩ := cases
          rw [refused] at failed
          cases failed
          rfl
        · obtain ⟨report, left, ran, -⟩ := cases
          rw [refused] at ran
          cases ran
    have failed : attempt none trace machine = .error trap after := refused
    exact untouched_of_failed able.proper able.running waiting failed error

/-- A stint of an able machine leaves it able, or is cut short by a fault. -/
theorem Able.stint {trap : Option Trap} (able : machine.Able)
    (stint : machine.Stint count observed trap after) :
    trap = none ∧ after.Able ∧ after.pace = machine.pace ∨
      ∃ before fault, trap = some (.fault fault) ∧ Steps true machine observed before ∧
        observed.length < count ∧ step true before = .error (.fault fault) after ∧
        before.Untouched after fault ∧ before.Shows none after.snapshot := by
  cases stint with
  | whole steps => exact .inl ⟨rfl, able.through steps, steps.keeps_pace⟩
  | cut steps short refused =>
    obtain ⟨fault, rfl, untouched, shows⟩ := (able.through steps).refused refused
    exact .inr ⟨_, fault, rfl, steps, short, refused, untouched, shows⟩

end Machine

namespace Session

variable {session after : Session} {commands : List Command}

/-- The cycles a frame is to run: those asked for in single steps, otherwise those owed. -/
def due (session : Session) : Except Trap Nat :=
  if session.stepping then .ok session.controls.stepRequests else session.machine.pace.due.1

/-- A frame meets a fault: it runs some of the cycles that are due, and the next one is refused. -/
structure Meets (session : Session) (commands : List Command) (observed : List Observation)
    (before after : Machine) (fault : Fault) : Prop where
  stays : Command.quit ∉ commands
  short : ∃ count, (session.obey commands).due = .ok count ∧ observed.length < count
  steps : Machine.Steps true (session.obey commands).machine observed before
  refused : Machine.step true before = .error (.fault fault) after

theorem asksToQuit_iff : Controls.asksToQuit commands = true ↔ Command.quit ∈ commands :=
  List.contains_iff_mem

theorem stays_of_notMem (stays : Command.quit ∉ commands) :
    Controls.asksToQuit commands = false :=
  Bool.eq_false_iff.mpr (mt asksToQuit_iff.mp stays)

/-- The lines that a frame prints the cycles in: none, if it runs freely and is not debugged. -/
def reported (session : Session) (observed : List Observation) : Array String :=
  if session.stepping || session.debugging then (Report.lines observed).toArray else #[]

theorem able_obey (able : session.machine.Able) (commands : List Command) :
    (session.obey commands).machine.Able :=
  able.keyed _

theorem due_of_stepping (stepping : session.stepping = true) (commands : List Command) :
    (session.obey commands).due = .ok (session.obey commands).controls.stepRequests :=
  if_pos stepping

theorem due_of_free (free : session.stepping = false) (commands : List Command) :
    (session.obey commands).due = (session.obey commands).machine.pace.due.1 :=
  if_neg (Bool.eq_false_iff.mp free)

/-- A frame that meets a fault ends with it. -/
theorem frame_of_meets {observed : List Observation} {before failed : Machine} {fault : Fault}
    (meets : session.Meets commands observed before failed fault) :
    ∃ last, session.frame commands = (.trapped (.fault fault), last) ∧
      last.machine.snapshot = failed.snapshot ∧
      last.printed = session.printed ++ session.reported observed := by
  obtain ⟨stays, ⟨count, due, short⟩, steps, refused⟩ := meets
  have stint := Machine.Stint.cut steps short refused
  have asks := stays_of_notMem stays
  cases stepping : session.stepping with
  | true =>
    rw [due_of_stepping stepping] at due
    cases due
    refine ⟨_, frame_of_stepping stepping asks stint, rfl, ?_⟩
    rw [reported, stepping]
    rfl
  | false =>
    rw [due_of_free stepping] at due
    rcases owes : (session.obey commands).machine.pace.due with ⟨owed, pace⟩
    rw [owes] at due
    obtain rfl : owed = .ok count := due
    refine ⟨_, frame_of_free stepping asks owes stint, rfl, ?_⟩
    rw [reported, stepping]
    rfl

/-- A frame that an able machine is not asked to quit in is shown, or meets a fault. -/
theorem frame_of_able (able : session.machine.Able) (stays : Command.quit ∉ commands) :
    (∃ after, session.frame commands = (.shown, after) ∧ after.machine.Able) ∨
      ∃ observed before failed fault, session.Meets commands observed before failed fault ∧
        before.Untouched failed fault ∧ before.Shows none failed.snapshot := by
  have asks := stays_of_notMem stays
  have able := able_obey able commands
  cases stepping : session.stepping with
  | true =>
    obtain ⟨observed, trap, after, stint⟩ := Machine.exists_stint
      (session.obey commands).machine (session.obey commands).controls.stepRequests
    have framed := frame_of_stepping stepping asks stint
    rcases able.stint stint with ⟨rfl, able, -⟩ | ⟨before, fault, rfl, steps, short, refused, told⟩
    · refine .inl ⟨_, framed, ?_⟩
      rw [present_eq]
      exact able.tickTimers.collected
    · exact .inr ⟨observed, before, after, fault,
        ⟨stays, ⟨_, due_of_stepping stepping commands, short⟩, steps, refused⟩, told⟩
  | false =>
    obtain ⟨owed, credit, owes, sound⟩ := able.pace.due
    obtain ⟨observed, trap, after, stint⟩ :=
      Machine.exists_stint (session.obey commands).machine owed
    have framed := frame_of_free stepping asks owes stint
    rcases able.stint stint with ⟨rfl, able, kept⟩ |
      ⟨before, fault, rfl, steps, short, refused, told⟩
    · refine .inl ⟨_, framed, ?_⟩
      rw [present_eq]
      exact (able.tickTimers.owing (kept ▸ sound)).collected
    · have due := due_of_free stepping commands
      rw [owes] at due
      exact .inr ⟨observed, before, after, fault, ⟨stays, ⟨owed, due, short⟩, steps, refused⟩, told⟩

/-! ### Moments -/

variable {moment : Moment} {earlier later moments : List Moment} {last reached ready : Session}
  {passing : Passing}

/-- The session goes on through some moments: no turn among them ends it. -/
inductive Outlasts : Session → List Moment → Session → Prop
  | none (session : Session) : Outlasts session [] session
  | more {session next last : Session} {moment : Moment} {rest : List Moment} {passing : Passing}
      (took : session.take moment = (passing, next)) (goesOn : passing.ending = none)
      (others : Outlasts next rest last) : Outlasts session (moment :: rest) last

/-- What passing through moments comes to: the session at the end, and how it ended, if it did. -/
def reaches (session : Session) (moments : List Moment) : Session × Option Ending :=
  ((session.pass moments).2, (session.pass moments).1.findSome? Passing.ending)

theorem Outlasts.reaches (outlasts : session.Outlasts earlier reached) (later : List Moment) :
    session.reaches (earlier ++ later) = reached.reaches later := by
  induction outlasts with
  | none => rfl
  | more took goesOn _ inductionHypothesis =>
    rw [← inductionHypothesis, List.cons_append, Session.reaches, pass_of_unended took goesOn,
      List.findSome?_cons, goesOn]
    rfl

theorem reaches_of_ended {ending : Ending} (took : session.take moment = (passing, after))
    (ends : passing.ending = some ending) (later : List Moment) :
    session.reaches (moment :: later) = (after, some ending) := by
  rw [reaches, pass_of_ended took ends, List.findSome?_cons, ends]

theorem take_of_frame {ended : FrameEnd} (due : session.turn moment.now = (.frame, ready))
    (framed : ready.frame moment.commands = (ended, after)) :
    session.take moment = (.framed ended, after) := by
  rw [take, due]
  dsimp only
  rw [framed]

theorem pause_ne_trapped (session : Session) (now : Float) (trap : Trap) (after : Session) :
    session.pause now ≠ (.trapped trap, after) := by
  unfold pause
  split <;> nofun

/-- A turn that fails was due to set the title at a time without whole part. -/
theorem untimely_of_turn {now : Float} {trap : Trap}
    (turned : session.turn now = (.trapped trap, after)) :
    session.titleDue ≤ now ∧ ∃ cause, Double.whole now = .error cause := by
  unfold turn at turned
  split at turned
  · next due =>
    cases whole : Double.whole now with
    | error cause => exact ⟨due, cause, rfl⟩
    | ok second =>
      rw [whole] at turned
      exact absurd turned (pause_ne_trapped _ now trap after)
  · exact absurd turned (pause_ne_trapped _ now trap after)

/-- Any moments are outlasted, or one of them ends the session after it has outlasted the ones
before. -/
theorem outlasts_or_ends (session : Session) (moments : List Moment) :
    (∃ last, session.Outlasts moments last) ∨
      ∃ earlier moment later reached passing after ending, moments = earlier ++ moment :: later ∧
        session.Outlasts earlier reached ∧ reached.take moment = (passing, after) ∧
        passing.ending = some ending := by
  induction moments generalizing session with
  | nil => exact .inl ⟨session, .none session⟩
  | cons moment rest inductionHypothesis =>
    rcases took : session.take moment with ⟨passing, next⟩
    cases ends : passing.ending with
    | some ending =>
      exact .inr ⟨[], moment, rest, session, passing, next, ending, rfl, .none session, took, ends⟩
    | none =>
      rcases inductionHypothesis next with ⟨last, outlasts⟩ | ⟨earlier, other, later, reached,
        final, after, ending, rfl, outlasts, ended⟩
      · exact .inl ⟨last, .more took ends outlasts⟩
      · exact .inr ⟨moment :: earlier, other, later, reached, final, after, ending, rfl,
          .more took ends outlasts, ended⟩

/-- What a session with an able machine can come to at a moment. The last three end it. -/
inductive Comes (session : Session) (moment : Moment) : Prop
  | on {passing : Passing} {next : Session} (took : session.take moment = (passing, next))
      (goesOn : passing.ending = none) (able : next.machine.Able)
  | quit {ready : Session} (due : session.turn moment.now = (.frame, ready))
      (asks : Command.quit ∈ moment.commands)
  | fault {ready : Session} {observed : List Observation} {before failed : Machine} {fault : Fault}
      (due : session.turn moment.now = (.frame, ready))
      (meets : ready.Meets moment.commands observed before failed fault)
      (untouched : before.Untouched failed fault) (shows : before.Shows none failed.snapshot)
  | untimely {cause : Double.NotFinite} (due : session.titleDue ≤ moment.now)
      (endless : Double.whole moment.now = .error cause)

theorem comes (able : session.machine.Able) (moment : Moment) : session.Comes moment := by
  have kept := (turn_keeps session moment.now).2.2
  rcases turned : session.turn moment.now with ⟨seconds | _ | trap, ready⟩
  · rw [turned] at kept
    exact .on (by rw [take, turned]) rfl (kept ▸ able)
  · rw [turned] at kept
    have able : ready.machine.Able := kept ▸ able
    by_cases asks : Command.quit ∈ moment.commands
    · exact .quit turned asks
    · rcases frame_of_able able asks with ⟨shown, framed, able⟩ |
        ⟨observed, before, failed, fault, meets, untouched, shows⟩
      · exact .on (take_of_frame turned framed) rfl able
      · exact .fault turned meets untouched shows
  · obtain ⟨due, cause, endless⟩ := untimely_of_turn turned
    exact .untimely due endless

/-- A frame that is asked to quit ends the session. -/
theorem take_of_quit (due : session.turn moment.now = (.frame, ready))
    (asks : Command.quit ∈ moment.commands) :
    session.take moment = (.framed .quit, ready.obey moment.commands) :=
  take_of_frame due (frame_of_quit ready (asksToQuit_iff.mpr asks))

/-- So does a title that is due at a time without whole part. -/
theorem take_of_untimely {cause : Double.NotFinite} (due : session.titleDue ≤ moment.now)
    (endless : Double.whole moment.now = .error cause) :
    session.take moment = (.untimely (.notFinite cause), session) := by
  rw [take, turn, if_pos due, endless]

/-- A session that goes on with a moment keeps its machine able. -/
theorem able_of_take (able : session.machine.Able) (took : session.take moment = (passing, after))
    (goesOn : passing.ending = none) : after.machine.Able := by
  cases comes able moment with
  | on other _ able =>
    rw [took] at other
    cases other
    exact able
  | quit due asks =>
    rw [take_of_quit due asks] at took
    cases took
    cases goesOn
  | fault due meets =>
    obtain ⟨_, framed, -⟩ := frame_of_meets meets
    rw [take_of_frame due framed] at took
    cases took
    cases goesOn
  | untimely due endless =>
    rw [take_of_untimely due endless] at took
    cases took
    cases goesOn

theorem Outlasts.able (outlasts : session.Outlasts moments last) (able : session.machine.Able) :
    last.machine.Able := by
  induction outlasts with
  | none => exact able
  | more took goesOn _ inductionHypothesis =>
    exact inductionHypothesis (able_of_take able took goesOn)

end Session

end Chip8
