/-
This file proves that a machine does the same whether it is watched or not.

Tracing a cycle only adds its effects to the report, and a frame that is
listened to only shows its cycles. So what an action answers when nobody watches
is its full answer without these, and what it leaves is the same. Two runs of
the same actions, watched here and there at will, stay together at every point
and are each told their part of one and the same story.

A session that runs freely and is debugged prints more than one that is not.
That is all: at any readings of the clock and with any commands, the two go
through the same machines, titles, pictures, sounds and counts, and end alike.
-/

import Chip8.Proofs.Renewal
import Chip8.Proofs.Stint
import Chip8.Proofs.Turns

namespace Chip8

/-- The report of a cycle as it is told with tracing or without. -/
def CycleReport.seen (report : CycleReport) (watched : Bool) : CycleReport :=
  { report with effects := if watched then report.effects else [] }

namespace Action

/-- The same action with someone watching. -/
def watched : Action → Action
  | step _ => step true
  | execute instruction _ => execute instruction true
  | executeWord opcode _ => executeWord opcode true
  | runFrame _ => runFrame true
  | action => action

/-- Whether someone watches. Where there is nothing to watch, nothing is missed. -/
def isWatched : Action → Bool
  | step trace | execute _ trace | executeWord _ trace => trace
  | runFrame listening => listening
  | _ => true

end Action

/-- A reply without what only a watcher is told. -/
def Reply.seen (reply : Reply) (watched : Bool) : Reply :=
  match reply with
  | .cycled report => .cycled (report.seen watched)
  | .ran owed observed trap => .ran owed (if watched then observed else #[]) trap
  | reply => reply

namespace Machine

/-! ### Cycles -/

/-- The result of a cycle as it is told with tracing or without. -/
def seenResult (watched : Bool) :
    EStateM.Result Trap Machine CycleReport → EStateM.Result Trap Machine CycleReport
  | .ok report machine => .ok (report.seen watched) machine
  | .error trap machine => .error trap machine

/-- A routine does the same whether it is traced or not, and tells no more than the effects
beyond what it tells anyway. -/
def Discreet (routine : Bool → Routine Machine CycleReport) : Prop :=
  ∀ trace machine, routine trace machine = seenResult trace (routine true machine)

variable {routine : Bool → Routine Machine CycleReport}

theorem discreet_cycle (given : Option Instruction) : Discreet (cycle given) := by
  intro trace machine
  rw [cycle_apply, cycle_apply]
  cases machine.working given with
  | ok completion after => cases trace <;> rfl
  | error trap after => rfl

theorem Discreet.guarded (discreet : Discreet routine) :
    Discreet fun trace => guarded (routine trace) := by
  intro trace machine
  cases running : machine.fault with
  | some fault =>
    dsimp only
    rw [guarded_of_halted _ running, guarded_of_halted _ running]
    rfl
  | none =>
    dsimp only
    rw [guarded_of_running _ running, guarded_of_running _ running, discreet trace machine]
    cases routine true machine with
    | ok report after => rfl
    | error trap after => cases trap <;> rfl

theorem discreet_execute (instruction : Instruction) : Discreet (execute instruction) := by
  intro trace machine
  cases waiting : machine.awaiting with
  | some register =>
    rw [execute_of_waiting waiting, execute_of_waiting waiting]
    rfl
  | none =>
    rw [execute_of_idle waiting, execute_of_idle waiting]
    exact (discreet_cycle (some instruction)).guarded trace machine

theorem discreet_executeWord (opcode : Int) : Discreet (executeWord opcode) := by
  intro trace machine
  unfold executeWord
  simp only [Routine.bind_apply, Routine.get_apply, Routine.demand_apply]
  cases Instruction.decode opcode machine.programCounter with
  | error fault => rfl
  | ok instruction => exact discreet_execute instruction trace machine

theorem Discreet.answering (discreet : Discreet routine) (trace : Bool) (machine : Machine) :
    machine.answering .cycled (routine trace) =
      ((machine.answering .cycled (routine true)).1.seen trace,
        (machine.answering .cycled (routine true)).2) := by
  unfold Machine.answering
  rw [discreet trace machine]
  cases routine true machine <;> rfl

/-! ### Frames and actions -/

/-- A frame that nobody listens to owes the same, leaves the same and is cut short alike. -/
theorem runFrame_seen (listening : Bool) (machine : Machine) :
    machine.runFrame listening =
      ((machine.runFrame true).1, { (machine.runFrame true).2 with
        observed := if listening then (machine.runFrame true).2.observed else #[] }) := by
  rcases owes : machine.pace.due with ⟨trap | owed, pace⟩
  · rw [runFrame_of_unowed owes, runFrame_of_unowed owes, ite_self]
  · obtain ⟨observed, trap, after, stint⟩ := machine.exists_stint owed
    rw [runFrame_of_stint owes stint, runFrame_of_stint owes stint]
    rfl

/-- Watched or not, an action leaves the same, and answers the same but for what only a watcher
is told. -/
theorem act_seen (machine : Machine) (action : Action) :
    machine.act action =
      ((machine.act action.watched).1.seen action.isWatched, (machine.act action.watched).2) := by
  have kept (reply : Reply × Machine) (plain : reply.1.seen true = reply.1) :
      reply = (reply.1.seen true, reply.2) := by
    rw [plain]
  cases action with
  | step trace => exact (discreet_cycle none).guarded.answering trace machine
  | execute instruction trace => exact (discreet_execute instruction).answering trace machine
  | executeWord opcode trace => exact (discreet_executeWord opcode).answering trace machine
  | runFrame listening =>
    simp only [act, Action.watched]
    rw [runFrame_seen listening]
    rfl
  | tickTimers | releaseKeys | collectPicture => rfl
  | reset start | loadRom rom | poke address block | setKey key down =>
    refine kept _ ?_
    simp only [act, obeying, answering]
    split <;> rfl

/-- What a run of actions is told, watched or not, is its part of what it would be told if all of
them were watched. -/
theorem replies_seen (machine : Machine) (actions : List Action) :
    machine.replies actions =
        List.zipWith Reply.seen (machine.replies (actions.map Action.watched))
          (actions.map Action.isWatched) ∧
      machine.actAll actions = machine.actAll (actions.map Action.watched) := by
  induction actions generalizing machine with
  | nil => exact ⟨rfl, rfl⟩
  | cons action rest inductionHypothesis =>
    obtain ⟨told, left⟩ := inductionHypothesis (machine.act action.watched).2
    rw [actAll, actAll, List.map_cons, List.map_cons, List.foldl_cons, List.foldl_cons, replies,
      replies, List.zipWith_cons_cons, act_seen machine action, ← actAll, ← actAll]
    exact ⟨congrArg _ told, left⟩

end Machine

namespace Session

/-- The session with another choice about debugging, and other lines printed so far. -/
def retold (session : Session) (debugging : Bool) (printed : Array String) : Session :=
  { session with debugging := debugging, printed := printed }

variable {session : Session} (debugging : Bool) (printed : Array String)

theorem concluded_retold (trap : Option Trap) (session : Session) :
    concluded (trap, session.retold debugging printed) =
      ((concluded (trap, session)).1, (concluded (trap, session)).2.retold debugging printed) := by
  cases trap with
  | some trap => rfl
  | none =>
    rw [concluded, concluded, present_eq, present_eq]
    rfl

theorem frame_retold (free : session.stepping = false) (commands : List Command) :
    ∃ lines, (session.retold debugging printed).frame commands =
      ((session.frame commands).1, (session.frame commands).2.retold debugging lines) := by
  have freely : (session.retold debugging printed).stepping = false := free
  cases asks : Controls.asksToQuit commands with
  | true =>
    rw [frame_of_quit _ asks, frame_of_quit _ asks]
    exact ⟨printed, rfl⟩
  | false =>
    have same : ((session.retold debugging printed).obey commands).machine =
        (session.obey commands).machine := rfl
    rcases owes : (session.obey commands).machine.pace.due with ⟨trap | owed, pace⟩
    · rw [frame_of_unowed free asks owes, frame_of_unowed freely asks (same ▸ owes)]
      exact ⟨printed, rfl⟩
    · obtain ⟨observed, trap, after, stint⟩ := (session.obey commands).machine.exists_stint owed
      rw [frame_of_free free asks owes stint,
        frame_of_free freely asks (same ▸ owes) (same ▸ stint)]
      exact ⟨printed ++ if debugging then (Report.lines observed).toArray else #[],
        concluded_retold debugging _ trap ((session.obey commands).released observed trap
          ((after.closed trap).owing pace.credit))⟩

theorem turn_retold (session : Session) (now : Float) :
    (session.retold debugging printed).turn now =
      ((session.turn now).1, (session.turn now).2.retold debugging printed) := by
  have paused (session : Session) : (session.retold debugging printed).pause now =
      ((session.pause now).1, (session.pause now).2.retold debugging printed) := by
    unfold pause
    show (if now < session.frameDue then _ else _) = _
    split <;> rfl
  unfold turn
  show (if session.titleDue ≤ now then _ else _) = _
  split
  · cases Double.whole now with
    | ok second => exact paused (session.reportCounts second)
    | error cause => rfl
  · exact paused session

theorem take_retold (free : session.stepping = false) (moment : Moment) :
    ∃ lines, (session.retold debugging printed).take moment =
      ((session.take moment).1, (session.take moment).2.retold debugging lines) := by
  have kept := (turn_keeps session moment.now).2.1
  unfold take
  rw [turn_retold]
  generalize session.turn moment.now = result at kept
  rcases result with ⟨seconds | _ | trap, paused⟩
  · exact ⟨printed, rfl⟩
  · obtain ⟨lines, same⟩ :=
      frame_retold debugging printed (kept.trans free) moment.commands
    dsimp only
    rw [same]
    exact ⟨lines, rfl⟩
  · exact ⟨printed, rfl⟩

theorem pass_retold (free : session.stepping = false) (moments : List Moment) :
    ∃ lines, (session.retold debugging printed).pass moments =
      ((session.pass moments).1, (session.pass moments).2.retold debugging lines) := by
  induction moments generalizing session printed with
  | nil => exact ⟨printed, rfl⟩
  | cons moment rest inductionHypothesis =>
    obtain ⟨lines, same⟩ := take_retold debugging printed free moment
    have still := (stepping_take session moment).trans free
    rcases took : session.take moment with ⟨passing, after⟩
    rw [took] at same still
    cases ends : passing.ending with
    | some ending =>
      rw [pass_of_ended same ends, pass_of_ended took ends]
      exact ⟨lines, rfl⟩
    | none =>
      obtain ⟨more, later⟩ := inductionHypothesis lines still
      rw [pass_of_unended same ends, pass_of_unended took ends, later]
      exact ⟨more, rfl⟩

theorem turns_retold (free : session.stepping = false) (count : Nat) (source : EventSource)
    (clock : Clock) :
    ∃ lines, turns count (session.retold debugging printed) source clock =
      let (ending, last, left) := turns count session source clock
      (ending, last.retold debugging lines, left) := by
  induction count generalizing session printed source clock with
  | zero => exact ⟨printed, rfl⟩
  | succ count inductionHypothesis =>
    have controls : (session.retold debugging printed).controls = session.controls := rfl
    rw [turns_succ, turns_succ, controls]
    dsimp only
    generalize (source.poll session.controls.keymap).1 = commands
    obtain ⟨lines, same⟩ := take_retold debugging printed free ⟨clock.read.1, commands⟩
    have still := (stepping_take session ⟨clock.read.1, commands⟩).trans free
    rw [same]
    generalize session.take ⟨clock.read.1, commands⟩ = result at still
    rcases result with ⟨seconds | (_ | _ | trap) | trap, after⟩
    · dsimp only
      cases clock.read.2.sleep? seconds with
      | none => exact ⟨lines, rfl⟩
      | some later => exact inductionHypothesis lines still source.afterSleep later
    · exact inductionHypothesis lines still _ _
    · exact ⟨lines, rfl⟩
    · exact ⟨lines, rfl⟩
    · exact ⟨lines, rfl⟩

/-- Two runs of the same actions from the same machine, each watched where it likes, leave the
same machine after any number of them, and each is told its part of what the actions answer when
all of them are watched. A session that runs freely passes alike through any moments, and comes
alike through its loop with any source and any clock, whether it is debugged or not: but for the
lines printed it is the same session at every point. -/
theorem watching_changes_nothing :
    (∀ (machine : Machine) (actions others : List Action),
      actions.map Action.watched = others.map Action.watched →
        (∀ count, machine.actAll (actions.take count) = machine.actAll (others.take count)) ∧
          let story := machine.replies (actions.map Action.watched)
          machine.replies actions = List.zipWith Reply.seen story (actions.map Action.isWatched) ∧
            machine.replies others = List.zipWith Reply.seen story (others.map Action.isWatched)) ∧
      ∀ (session : Session) (debugging : Bool) (printed : Array String),
        session.stepping = false →
        (∀ moments, ∃ lines, (session.retold debugging printed).pass moments =
          ((session.pass moments).1, (session.pass moments).2.retold debugging lines)) ∧
        ∀ count source clock, ∃ lines,
          turns count (session.retold debugging printed) source clock =
            let (ending, last, left) := turns count session source clock
            (ending, last.retold debugging lines, left) := by
  refine ⟨fun machine actions others same => ⟨fun count => ?_, ?_, ?_⟩,
    fun session debugging printed free => ⟨pass_retold debugging printed free,
      turns_retold debugging printed free⟩⟩
  · rw [(Machine.replies_seen machine _).2, (Machine.replies_seen machine (others.take count)).2,
      List.map_take, List.map_take, same]
  · exact (Machine.replies_seen machine actions).1
  · rw [same]
    exact (Machine.replies_seen machine others).1

/-- A step and a frame, of which one run traces the first and the other listens to the second; and
a session of the same machine over two batches of commands. -/
theorem watching_changes_nothing_by_turns :
    let dialect := Dialect.ofChoices none none none none
    let keymap : Keymap := ⟨[0, 1, 2, 3, 4, 5, 6, 7, 8, 9, 10, 11, 12, 13, 14, 15]⟩
    let machine := Machine.booted ⟨1, 0⟩ dialect (fun _ => 0) [0x61, 0x03, 0xF1, 0x18]
    let session := create machine keymap (.hidden none) false false
    let source := EventSource.script [[.hostKey 5 true], []]
    let clock := Clock.startingAt 0 1 10
    machine.actAll [.step true, .runFrame false] = machine.actAll [.step false, .runFrame true] ∧
      ∃ lines, turns 10 (session.retold true #[]) source clock =
        let (ending, last, left) := turns 10 session source clock
        (ending, last.retold true lines, left) := by
  intro dialect keymap machine session source clock
  have runs := watching_changes_nothing.1 machine [.step true, .runFrame false]
    [.step false, .runFrame true] rfl
  have sessions := watching_changes_nothing.2 session true #[] rfl
  exact ⟨runs.1 2, sessions.2 10 source clock⟩

end Session

end Chip8
