/-
This file is the pair of timers: two bytes that count down to zero sixty times
a second, whatever the machine is doing. Programs pace themselves with the
delay timer; the buzzer sounds while the sound timer is above zero.
-/

import Chip8.Byte

namespace Chip8

structure Timers where
  delay : UInt8
  sound : UInt8
  deriving DecidableEq, Repr

namespace Timers

def stopped : Timers :=
  ⟨0, 0⟩

/-- One down, resting at zero. -/
def countDown (value : UInt8) : UInt8 :=
  if value = 0 then 0 else value - 1

def tick (timers : Timers) : Timers :=
  ⟨countDown timers.delay, countDown timers.sound⟩

/-- Sets the delay timer to the low byte of a value. -/
def setDelay (timers : Timers) (value : Int) : Timers :=
  { timers with delay := Byte.low value }

/-- Sets the sound timer to the low byte of a value. -/
def setSound (timers : Timers) (value : Int) : Timers :=
  { timers with sound := Byte.low value }

def soundActive (timers : Timers) : Bool :=
  timers.sound ≠ 0

theorem toNat_countDown (value : UInt8) : (countDown value).toNat = value.toNat - 1 := by
  unfold countDown
  split
  · next zero => subst zero; rfl
  · next nonzero =>
    have positive : value.toNat ≠ 0 := fun zero => nonzero (UInt8.toNat_inj.mp zero)
    have atLeastOne : (1 : UInt8) ≤ value :=
      UInt8.le_iff_toNat_le.mpr (Nat.pos_of_ne_zero positive)
    rw [UInt8.toNat_sub_of_le _ _ atLeastOne]
    rfl

end Timers

end Chip8
