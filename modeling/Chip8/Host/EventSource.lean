/-
This file is where a session's commands come from.

A silent source never has any. A script has one batch for each frame, and asks
to quit once it is through. A window has a queue, which a frame empties; a
batch of events joins the queue with every sleep, and once the batches are used
up each sleep brings the closing of the window instead.
-/

import Chip8.Host.WindowEvent

namespace Chip8

inductive EventSource where
  | silent
  | script (batches : List (List Command))
  | window (queue : List WindowEvent) (batches : List (List WindowEvent))

namespace EventSource

/-- The commands of the next frame. -/
def poll (source : EventSource) (keymap : Keymap) : List Command × EventSource :=
  match source with
  | silent => ([], silent)
  | script [] => ([.quit], script [])
  | script (batch :: rest) => (batch, script rest)
  | window queue batches => (WindowEvent.allCommands keymap queue, window [] batches)

/-- What a sleep lets in. -/
def afterSleep : EventSource → EventSource
  | window queue [] => window (queue ++ [.closed]) []
  | window queue (batch :: rest) => window (queue ++ batch) rest
  | source => source

/-- A window whose first batch is waiting. -/
def openWindow (batches : List (List WindowEvent)) : EventSource :=
  (window [] batches).afterSleep

/-- How many batches are still to come. -/
def remaining : EventSource → Nat
  | silent => 0
  | script batches => batches.length
  | window _ batches => batches.length

end EventSource

end Chip8
