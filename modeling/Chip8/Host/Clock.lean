/-
This file is a clock that can be slept on, without time passing in earnest.

A reading moves the clock on by a fixed tick, as time passes while a program
runs; a sleep moves it on by its length. Sleeps are counted, and after a number
of them the clock allows no more, which is how a session that would go on for
ever is brought to an end.
-/

namespace Chip8

structure Clock where
  now : Float
  /-- What each reading moves the clock on by. -/
  tick : Float
  /-- How many sleeps are still allowed. -/
  allowance : Nat
  slept : Nat

namespace Clock

/-- A clock at a time, nothing slept yet. -/
def startingAt (now tick : Float) (allowance : Nat) : Clock :=
  ⟨now, tick, allowance, 0⟩

/-- The time, and the clock after it was read. -/
def read (clock : Clock) : Float × Clock :=
  (clock.now, { clock with now := clock.now + clock.tick })

/-- Sleeps, if another sleep is allowed. -/
def sleep? (clock : Clock) (seconds : Float) : Option Clock :=
  match clock.allowance with
  | 0 => none
  | left + 1 => some {
      clock with now := clock.now + seconds, allowance := left, slept := clock.slept + 1 }

end Clock

end Chip8
