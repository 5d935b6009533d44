/-
This file runs the machine by the frame: as many cycles as the pace owes, then
one tick of the timers. The timers so keep to sixty ticks a second at every
clock speed.

A run stops at the first cycle that is refused. What a listener has seen up to
there it has seen; the timers of a frame that was cut short are not ticked.
-/

import Chip8.Machine.Cycle
import Chip8.Machine.Snapshot

namespace Chip8

/-- What a listener is shown of a cycle: its report, and the machine after it. -/
structure Observation where
  report : CycleReport
  after : Snapshot
  deriving DecidableEq

/-- Cycles run one after the other. -/
structure Run where
  machine : Machine
  /-- What the listener was shown, in order. -/
  observed : Array Observation
  /-- What cut the run short. -/
  trap : Option Trap

namespace Run

def start (machine : Machine) : Run :=
  ⟨machine, #[], none⟩

/-- Runs one more cycle, traced and shown if someone listens. -/
def advance (listening : Bool) (run : Run) : Run :=
  match Machine.step listening run.machine with
  | .ok report machine => {
      machine := machine
      observed :=
        if listening then run.observed.push ⟨report, machine.snapshot⟩ else run.observed
      trap := none }
  | .error trap machine => { run with machine := machine, trap := some trap }

/-- Runs a number of cycles, or as many as are not refused. -/
def cycles (listening : Bool) : Nat → Run → Run
  | 0, run => run
  | count + 1, run =>
      if run.trap.isSome then run else cycles listening count (run.advance listening)

end Run

namespace Machine

def tickTimers (machine : Machine) : Machine :=
  { machine with timers := machine.timers.tick }

/-- Runs one frame, and tells how many cycles it owed. A frame that owes no number of cycles is
cut short before its first. -/
def runFrame (listening : Bool) (machine : Machine) : Nat × Run :=
  match machine.pace.due with
  | (.error trap, pace) => (0, { Run.start { machine with pace := pace } with trap := some trap })
  | (.ok owed, pace) =>
      let run := Run.cycles listening owed (Run.start { machine with pace := pace })
      (owed, if run.trap.isSome then run else { run with machine := run.machine.tickTimers })

end Machine

end Chip8
