/-
This file is the player's side of the machine: commands come in, and turn into
keys of the keypad and into requests for single steps.

A command for a host key that the keymap does not know changes nothing. Step
requests pile up until they are taken one by one. Asking to quit changes
nothing here either; it is for whoever runs the machine to notice.
-/

import Chip8.Host.Keymap
import Chip8.Keypad

namespace Chip8

/-- What the player can ask for. -/
inductive Command where
  /-- A host key went down or up. -/
  | hostKey (code : Int) (down : Bool)
  | requestStep
  /-- No key is held any more, as when the host stops reporting keys. -/
  | releaseKeys
  | quit
  deriving DecidableEq, Repr

structure Controls where
  keymap : Keymap
  /-- Steps asked for and not yet taken. -/
  stepRequests : Nat
  deriving DecidableEq, Repr

namespace Controls

def ofKeymap (keymap : Keymap) : Controls :=
  ⟨keymap, 0⟩

/-- Passes a host key on to the keypad, and tells whether it is one of its keys. -/
def hostKey (controls : Controls) (keypad : Keypad) (code : Int) (down : Bool) : Bool × Keypad :=
  match controls.keymap.key? code with
  | some key => (true, keypad.set key down)
  | none => (false, keypad)

def requestStep (controls : Controls) : Controls :=
  { controls with stepRequests := controls.stepRequests + 1 }

/-- Takes one request, and tells whether there was one. -/
def takeStep (controls : Controls) : Bool × Controls :=
  match controls.stepRequests with
  | 0 => (false, controls)
  | left + 1 => (true, { controls with stepRequests := left })

/-- Carries out one command. -/
def obey (state : Controls × Keypad) : Command → Controls × Keypad
  | .hostKey code down => (state.1, (state.1.hostKey state.2 code down).2)
  | .requestStep => (state.1.requestStep, state.2)
  | .releaseKeys => (state.1, Keypad.released)
  | .quit => state

/-- Carries out commands in order, also those after a wish to quit. -/
def obeyAll (state : Controls × Keypad) (commands : List Command) : Controls × Keypad :=
  commands.foldl obey state

/-- Whether the player asks to quit. -/
def asksToQuit (commands : List Command) : Bool :=
  commands.contains .quit

theorem keymap_obeyAll (state : Controls × Keypad) (commands : List Command) :
    (obeyAll state commands).1.keymap = state.1.keymap := by
  induction commands generalizing state with
  | nil => rfl
  | cons command rest inductionHypothesis =>
    rw [obeyAll, List.foldl_cons, ← obeyAll, inductionHypothesis]
    cases command <;> rfl

end Controls

end Chip8
