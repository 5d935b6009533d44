/-
This file is the sixteen-key keypad. The host writes to it, programs only read.

Besides which keys are down, the keypad latches the key that went down last. A
program that waits for a key clears the latch and then watches it, so that only
a press made after the wait began will do: a key that is held and reported down
once more is no new press.
-/

import Chip8.Fault

namespace Chip8

structure Keypad where
  down : Vector Bool 16
  /-- The key pressed last, since the latch was cleared. -/
  latch : Option (Fin 16)
  deriving DecidableEq

namespace Keypad

/-- No key down and nothing latched. -/
def released : Keypad :=
  ⟨Vector.replicate 16 false, none⟩

def isDown (keypad : Keypad) (key : Fin 16) : Bool :=
  keypad.down[key]

/-- Records a key as down or up; a key that goes down is latched. -/
def set (keypad : Keypad) (key : Fin 16) (isDown : Bool) : Keypad where
  down := keypad.down.set key isDown
  latch := if isDown && !keypad.isDown key then some key else keypad.latch

/-- Records the key of a number, which must exist. -/
def setKey (keypad : Keypad) (key : Int) (isDown : Bool) : Except Trap Keypad :=
  if known : 0 ≤ key ∧ key < 16 then .ok (keypad.set ⟨key.toNat, by omega⟩ isDown)
  else .error (.noSuchKey key)

/-- Whether the key that the low nibble of a number selects is down. -/
def isHeld (keypad : Keypad) (number : Int) : Bool :=
  keypad.isDown ⟨(number % 16).toNat, by omega⟩

def clearLatch (keypad : Keypad) : Keypad :=
  { keypad with latch := none }

theorem isDown_set_self (keypad : Keypad) (key : Fin 16) (isDown : Bool) :
    (keypad.set key isDown).isDown key = isDown := by
  simp [set, Keypad.isDown]

theorem isDown_set_other (keypad : Keypad) (key other : Fin 16) (isDown : Bool)
    (differ : key ≠ other) : (keypad.set key isDown).isDown other = keypad.isDown other := by
  have apart : (key : Nat) ≠ other := fun same => differ (Fin.ext same)
  simp [set, Keypad.isDown, Vector.getElem_set_ne, apart]

theorem setKey_eq_ok (keypad : Keypad) (key : Fin 16) (isDown : Bool) :
    keypad.setKey (key : Nat) isDown = .ok (keypad.set key isDown) := by
  rw [setKey, dif_pos (by omega)]
  rfl

end Keypad

end Chip8
