/-
This file runs a machine for a player.

Everything happens on frames, sixty a second. A frame carries out the player's
commands; unless they ask to quit, it runs the machine, shows the picture if it
has changed, and sets the buzzer. Running freely means a frame's worth of
cycles; in single steps it means the cycles the player asked for, with the
timers ticking all the same. What is printed is kept in order, so that what was
printed before an error stays printed.

Between frames the session waits. Each turn of its loop reads the clock once:
if a second has gone by, the counts of pictures and operations go into the
title and start again from zero; then, if the next frame is still ahead, the
turn sleeps until then, otherwise it runs the frame.
-/

import Chip8.Host.Clock
import Chip8.Host.EventSource
import Chip8.Host.Screen
import Chip8.Machine.Frame
import Chip8.Report

namespace Chip8

structure Session where
  machine : Machine
  controls : Controls
  screen : Screen
  buzzer : Bool
  /-- Every cycle is reported. -/
  debugging : Bool
  /-- Cycles run only when asked for. -/
  stepping : Bool
  /-- Pictures shown since the title was set last. -/
  pictures : Nat
  /-- Operations run since the title was set last. -/
  operations : Nat
  /-- When the counts go into the title. -/
  titleDue : Float
  /-- When the next frame runs. -/
  frameDue : Float
  /-- The lines printed so far. -/
  printed : Array String

/-- How a frame ended. -/
inductive FrameEnd where
  | shown
  | quit
  | trapped (trap : Trap)
  deriving DecidableEq

/-- What a turn of the loop does next. -/
inductive Turn where
  | sleep (seconds : Float)
  | frame
  | trapped (trap : Trap)

/-- How a session ended. -/
inductive Ending where
  | quit
  | trapped (trap : Trap)
  /-- The clock allowed no more sleep. -/
  | stopped
  deriving DecidableEq

namespace Session

/-- The time between two frames. -/
def frameInterval : Float := 1 / Pace.framesPerSecond

/-- The title that tells how many pictures and operations a second had. -/
def title (pictures operations : Nat) : String :=
  Program.name ++ " - " ++ toString pictures ++ " FPS, " ++ toString operations ++ " OPS"

def create (machine : Machine) (keymap : Keymap) (screen : Screen) (debugging stepping : Bool) :
    Session where
  machine := machine
  controls := Controls.ofKeymap keymap
  screen := screen.setTitle (title 0 0)
  buzzer := false
  debugging := debugging
  stepping := stepping
  pictures := 0
  operations := 0
  titleDue := 0
  frameDue := 0
  printed := #[]

/-! ### A frame -/

/-- Carries out the player's commands. -/
def obey (session : Session) (commands : List Command) : Session :=
  let (controls, keypad) :=
    Controls.obeyAll (session.controls, session.machine.keypad) commands
  { session with
    controls := controls
    machine := { session.machine with keypad := keypad } }

/-- Prints a cycle and the machine after it. -/
def print (session : Session) (seen : Observation) : Session :=
  { session with
    printed := (session.printed.push (Report.cycle seen.report)).push
      (Report.stateLine seen.after) }

/-- Runs one cycle for each request, as long as none is refused. -/
def serveRequests : Nat → Session → Option Trap × Session
  | 0, session => (none, session)
  | count + 1, session =>
      let session := { session with controls := session.controls.takeStep.2 }
      match Machine.step true session.machine with
      | .error trap machine => (some trap, { session with machine := machine })
      | .ok report machine =>
          let session := { session with
            machine := machine
            operations := session.operations + 1 }
          serveRequests count (session.print ⟨report, machine.snapshot⟩)

/-- Runs the cycles asked for, then lets the timers tick. -/
def runSteps (session : Session) : Option Trap × Session :=
  match serveRequests session.controls.stepRequests session with
  | (some trap, session) => (some trap, session)
  | (none, session) => (none, { session with machine := session.machine.tickTimers })

/-- Runs a frame's worth of cycles. They count as operations only if none was refused. -/
def runFreely (session : Session) : Option Trap × Session :=
  let (owed, run) := session.machine.runFrame session.debugging
  let session := run.observed.foldl print { session with machine := run.machine }
  match run.trap with
  | some trap => (some trap, session)
  | none => (none, { session with operations := session.operations + owed })

/-- Shows the picture if it has changed, and sets the buzzer. -/
def present (session : Session) : Session :=
  let (picture, display) := session.machine.display.collect
  let session := { session with
    machine := { session.machine with display := display }
    buzzer := session.machine.timers.soundActive }
  match picture with
  | none => session
  | some grid => { session with
      screen := session.screen.refresh grid
      pictures := session.pictures + 1 }

/-- Runs one frame with the player's commands for it. -/
def frame (session : Session) (commands : List Command) : FrameEnd × Session :=
  let session := session.obey commands
  if Controls.asksToQuit commands then (.quit, session)
  else
    match if session.stepping then session.runSteps else session.runFreely with
    | (some trap, session) => (.trapped trap, session)
    | (none, session) => (.shown, session.present)

/-! ### The loop around it -/

/-- Puts the counts into the title and starts them again, until a second after this one. -/
def reportCounts (session : Session) (second : Int) : Session :=
  { session with
    titleDue := Double.ofInt second + 1
    screen := session.screen.setTitle (title session.pictures session.operations)
    pictures := 0
    operations := 0 }

/-- Sleeps until the next frame is due, or runs it. -/
def pause (session : Session) (now : Float) : Turn × Session :=
  if now < session.frameDue then (.sleep (session.frameDue - now), session)
  else (.frame, { session with frameDue := now + frameInterval })

/-- What to do at a reading of the clock. A title is not to be had at a time without end. -/
def turn (session : Session) (now : Float) : Turn × Session :=
  if session.titleDue ≤ now then
    match Double.whole now with
    | .ok second => (session.reportCounts second).pause now
    | .error cause => (.trapped (.notFinite cause), session)
  else session.pause now

/-- Takes a number of turns, unless the session ends before. -/
def turns : Nat → Session → EventSource → Clock → Ending × Session × Clock
  | 0, session, _, clock => (.stopped, session, clock)
  | count + 1, session, source, clock =>
      let (now, clock) := clock.read
      match session.turn now with
      | (.trapped trap, session) => (.trapped trap, session, clock)
      | (.sleep seconds, session) =>
          match clock.sleep? seconds with
          | none => (.stopped, session, clock)
          | some clock => turns count session source.afterSleep clock
      | (.frame, session) =>
          let (commands, source) := source.poll session.controls.keymap
          match session.frame commands with
          | (.shown, session) => turns count session source clock
          | (.quit, session) => (.quit, session, clock)
          | (.trapped trap, session) => (.trapped trap, session, clock)

/-- Runs until the player quits, the machine is refused a cycle, or the clock allows no more
sleep. No more turns are taken than one frame for each sleep and each batch. -/
def run (session : Session) (source : EventSource) (clock : Clock) : Ending × Session × Clock :=
  turns (2 * (clock.allowance + source.remaining) + 4) session source clock

end Session

end Chip8
