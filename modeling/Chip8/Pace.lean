/-
This file decides how many cycles a frame runs.

A clock speed is given in operations per second, a frame is a sixtieth of one.
The quotient is seldom whole, so each frame adds it to a credit, runs the whole
part of what has come together, and carries the fraction over. All of it is
arithmetic in doubles, whose roundings are part of the pace. A speed without end
is a speed, but its frames owe no number of cycles and are refused.
-/

import Chip8.Fault

namespace Chip8

/-- A number of operations per second. Whole numbers are held as they are, however large. -/
inductive ClockSpeed where
  | whole (count : Int)
  | real (value : Float)

namespace ClockSpeed

/-- The clock speed of a machine that asks for none. -/
def standard : ClockSpeed := .whole 360

/-- Whether a clock can run so fast. What is no number is not told apart from one that can. -/
def isPositive : ClockSpeed → Bool
  | whole count => 0 < count
  | real value => !(value ≤ 0)

/-- The speed as a double, unless it is a whole number beyond all of them. -/
def toDouble? : ClockSpeed → Option Float
  | whole count => Double.ofInt? count
  | real value => some value

end ClockSpeed

structure Pace where
  perFrame : Float
  /-- Cycles owed from earlier frames, below one except while a frame is accounted. -/
  credit : Float

namespace Pace

def framesPerSecond : Float := 60

/-- The pace of a clock speed, which must be above zero and within the doubles. -/
def ofSpeed (speed : ClockSpeed) : Except Trap Pace :=
  if speed.isPositive then
    match speed.toDouble? with
    | some value => .ok ⟨value / framesPerSecond, 0⟩
    | none => .error .clockTooLarge
  else .error .clockNotPositive

/-- The same speed with nothing owed. -/
def restart (pace : Pace) : Pace :=
  { pace with credit := 0 }

/-- Credits one frame: how many cycles it runs, and what is carried over. A credit without a
whole part stays as it is. -/
def due (pace : Pace) : Except Trap Nat × Pace :=
  let credit := pace.credit + pace.perFrame
  match Double.whole credit with
  | .ok cycles => (.ok cycles.toNat, { pace with credit := credit - Double.ofInt cycles })
  | .error cause => (.error (.notFinite cause), { pace with credit := credit })

end Pace

end Chip8
