/-
This file takes sessions through whatever a clock may read.

The loop of a session asks its clock for the time and its source for commands.
Here both are taken out: a moment is what one turn of the loop is told, a time
of any value and the commands for the frame, should there be one. A session
passes through moments one by one, until a turn ends it. The times need not
grow, nor be times at all. The loop itself, with its clock and its source, does
nothing else, so what holds of every passage holds of every run.
-/

import Chip8.Proofs.Stint

namespace Chip8

/-- What a turn is told. -/
structure Moment where
  now : Float
  commands : List Command

/-- What a turn came to. -/
inductive Passing where
  | slept (seconds : Float)
  | framed (ended : FrameEnd)
  /-- The time was none that a title is due at. -/
  | untimely (trap : Trap)

/-- How the session ended with a turn, if it did. -/
def Passing.ending : Passing → Option Ending
  | slept _ | framed .shown => none
  | framed .quit => some .quit
  | framed (.trapped trap) | untimely trap => some (.trapped trap)

/-- How the session ended, unless the clock stopped it. -/
def Ending.ofItself? : Ending → Option Ending
  | stopped => none
  | ending => some ending

theorem Ending.getD_ofItself? (ending : Ending) : ending.ofItself?.getD .stopped = ending := by
  cases ending <;> rfl

namespace Session

/-- One turn, with the frame if it is time for one. -/
def take (session : Session) (moment : Moment) : Passing × Session :=
  match session.turn moment.now with
  | (.sleep seconds, session) => (.slept seconds, session)
  | (.frame, session) =>
      let (ended, session) := session.frame moment.commands
      (.framed ended, session)
  | (.trapped trap, session) => (.untimely trap, session)

/-- A turn for each moment, unless the session ends before. -/
def pass : Session → List Moment → List Passing × Session
  | session, [] => ([], session)
  | session, moment :: rest =>
      let (passing, session) := session.take moment
      match passing.ending with
      | some _ => ([passing], session)
      | none =>
          let (passings, session) := pass session rest
          (passing :: passings, session)

variable {session after : Session} {moment : Moment} {passing : Passing} {ending : Ending}

theorem pass_of_ended (took : session.take moment = (passing, after))
    (ends : passing.ending = some ending) (rest : List Moment) :
    session.pass (moment :: rest) = ([passing], after) := by
  rw [pass, took]
  dsimp only
  rw [ends]

theorem pass_of_unended (took : session.take moment = (passing, after))
    (goesOn : passing.ending = none) (rest : List Moment) :
    session.pass (moment :: rest) = (passing :: (after.pass rest).1, (after.pass rest).2) := by
  rw [pass, took]
  dsimp only
  rw [goesOn]

/-! ### Single turns -/

/-- What a reading of the clock can come to: it changes nothing but the time of the next frame,
except that before this the counts may go into the title. -/
inductive Turning (session : Session) : Turn × Session → Prop
  | untimely (trap : Trap) : Turning session (.trapped trap, session)
  | paused (next : Turn) (due : Float) : Turning session (next, { session with frameDue := due })
  | reported (second : Int) (next : Turn) (due : Float) :
      Turning session (next, { session.reportCounts second with frameDue := due })

theorem turn_turning (session : Session) (now : Float) : Turning session (session.turn now) := by
  have paused (session : Session) :
      ∃ next due, session.pause now = (next, { session with frameDue := due }) := by
    unfold pause
    split
    · exact ⟨_, session.frameDue, rfl⟩
    · exact ⟨_, _, rfl⟩
  unfold turn
  split
  · cases Double.whole now with
    | error cause => exact .untimely _
    | ok second =>
      obtain ⟨next, due, left⟩ := paused (session.reportCounts second)
      dsimp only
      rw [left]
      exact .reported second next due
  · obtain ⟨next, due, left⟩ := paused session
    rw [left]
    exact .paused next due

/-- What a turn keeps, with the frame still to come. -/
theorem turn_keeps (session : Session) (now : Float) :
    (session.turn now).2.controls = session.controls ∧
      (session.turn now).2.stepping = session.stepping ∧
      (session.turn now).2.machine = session.machine := by
  have turning := turn_turning session now
  generalize session.turn now = result at turning
  cases turning <;> exact ⟨rfl, rfl, rfl⟩

theorem stepping_take (session : Session) (moment : Moment) :
    (session.take moment).2.stepping = session.stepping := by
  obtain ⟨-, kept, -⟩ := turn_keeps session moment.now
  unfold take
  generalize session.turn moment.now = result at kept
  rcases result with ⟨seconds | _ | trap, paused⟩
  · exact kept
  · exact (stepping_frame paused moment.commands).trans kept
  · exact kept

/-! ### The loop -/

/-- A turn of the loop, with what the clock and the source tell it. -/
theorem turns_succ (count : Nat) (session : Session) (source : EventSource) (clock : Clock) :
    turns (count + 1) session source clock =
      let (now, clock) := clock.read
      let (commands, polled) := source.poll session.controls.keymap
      match session.take ⟨now, commands⟩ with
      | (.slept seconds, session) =>
          match clock.sleep? seconds with
          | none => (.stopped, session, clock)
          | some clock => turns count session source.afterSleep clock
      | (.framed .shown, session) => turns count session polled clock
      | (.framed .quit, session) => (.quit, session, clock)
      | (.framed (.trapped trap), session) => (.trapped trap, session, clock)
      | (.untimely trap, session) => (.trapped trap, session, clock) := by
  have kept := (turn_keeps session clock.read.1).1
  rw [turns]
  dsimp only [take]
  generalize session.turn clock.read.1 = result at kept
  obtain ⟨next, paused⟩ := result
  cases next with
  | sleep seconds => rfl
  | trapped trap => rfl
  | frame =>
    rw [← show paused.controls = session.controls from kept]
    dsimp only
    rcases paused.frame (source.poll paused.controls.keymap).1 with ⟨_ | _ | trap, framed⟩ <;> rfl

/-- The moments that the loop is told of by its clock and its source. -/
def told : Nat → Session → EventSource → Clock → List Moment
  | 0, _, _, _ => []
  | count + 1, session, source, clock =>
      let (now, clock) := clock.read
      let (commands, polled) := source.poll session.controls.keymap
      ⟨now, commands⟩ :: match session.take ⟨now, commands⟩ with
        | (.slept seconds, session) =>
            match clock.sleep? seconds with
            | none => []
            | some clock => told count session source.afterSleep clock
        | (.framed .shown, session) => told count session polled clock
        | _ => []

/-- What the loop does with its clock and its source is to pass through the moments they tell it
of. -/
theorem pass_told (count : Nat) (session : Session) (source : EventSource) (clock : Clock) :
    (session.pass (told count session source clock)).2 = (turns count session source clock).2.1 ∧
      (session.pass (told count session source clock)).1.findSome? Passing.ending =
        (turns count session source clock).1.ofItself? := by
  induction count generalizing session source clock with
  | zero => exact ⟨rfl, rfl⟩
  | succ count inductionHypothesis =>
    rw [turns_succ, told]
    dsimp only
    generalize (source.poll session.controls.keymap).1 = commands
    rcases took : session.take ⟨clock.read.1, commands⟩ with
      ⟨seconds | (_ | _ | trap) | trap, after⟩
    · dsimp only
      cases clock.read.2.sleep? seconds with
      | none =>
        rw [pass_of_unended took rfl]
        exact ⟨rfl, rfl⟩
      | some later =>
        rw [pass_of_unended took rfl]
        exact inductionHypothesis after source.afterSleep later
    · rw [pass_of_unended took rfl]
      exact inductionHypothesis after (source.poll session.controls.keymap).2 clock.read.2
    all_goals
      rw [pass_of_ended took rfl]
      exact ⟨rfl, rfl⟩

theorem exists_pass (count : Nat) (session : Session) (source : EventSource) (clock : Clock) :
    ∃ moments, (session.pass moments).2 = (turns count session source clock).2.1 ∧
      ((session.pass moments).1.findSome? Passing.ending).getD .stopped =
        (turns count session source clock).1 := by
  obtain ⟨last, ended⟩ := pass_told count session source clock
  exact ⟨_, last, by rw [ended, Ending.getD_ofItself?]⟩

end Session

end Chip8
