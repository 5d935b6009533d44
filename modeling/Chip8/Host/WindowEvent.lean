/-
This file reads what happens at a window as commands.

A key that goes down is a key of the keypad if the keymap knows it; otherwise,
if it is the space bar, it asks for a single step. The escape key quits when it
comes up, whatever the keymap makes of it, and so does closing the window. When
the window loses the keyboard, keys that come up are no longer reported, so all
of them are taken as released.
-/

import Chip8.Host.Controls

namespace Chip8

inductive WindowEvent where
  | keyDown (code : Int)
  | keyUp (code : Int)
  | closed
  | focusLost
  /-- Anything the player's commands do not hang on. -/
  | other
  deriving DecidableEq, Repr

namespace WindowEvent

def space : Int := 32

def escape : Int := 27

/-- What an event asks for under a keymap. -/
def commands (keymap : Keymap) : WindowEvent → List Command
  | keyDown code =>
      if (keymap.key? code).isSome then [.hostKey code true]
      else if code = space then [.requestStep]
      else []
  | keyUp code => if code = escape then [.quit] else [.hostKey code false]
  | closed => [.quit]
  | focusLost => [.releaseKeys]
  | other => []

/-- What a queue of events asks for, in order. -/
def allCommands (keymap : Keymap) (events : List WindowEvent) : List Command :=
  events.flatMap (commands keymap)

end WindowEvent

end Chip8
