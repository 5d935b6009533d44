/-
This file proves what the arithmetic of registers comes to in numbers, whichever
registers it works on.

An operation reads both of its operands before it stores anything, so it makes
no difference whether they are one register, or whether one of them is `VF`. A
result that is meant for `VF` gives way to the flag. Anywhere else the result
and the flag together hold the exact number that a byte has no room for: the
flag of a sum is its ninth bit, that of a difference says that nothing had to be
borrowed for it, and that of a shift is the bit it pushed out.
-/

import Chip8.Proofs.Footprint

namespace Chip8

namespace Registers

/-- The number in a register. -/
def number (registers : Registers) (index : Fin 16) : Nat :=
  (registers.get index).toNat

/-- One register was given a number, and no other was touched. -/
structure Sets (before after : Registers) (x : Fin 16) (result : Int) : Prop where
  result : (after.number x : Int) = result
  others : ∀ other, other ≠ x → after.get other = before.get other

/-- A register was given a number and then `VF` a flag, and no other was touched. -/
structure Flags (before after : Registers) (x : Fin 16) (result flag : Int) : Prop where
  flag : (after.number Registers.flag : Int) = flag
  boolean : after.number Registers.flag = 0 ∨ after.number Registers.flag = 1
  result : x ≠ Registers.flag → (after.number x : Int) = result
  others : ∀ other, other ≠ x → other ≠ Registers.flag → after.get other = before.get other

variable {registers : Registers} {x : Fin 16} {byte : UInt8}

theorem value_natCast (registers : Registers) (index : Fin 16) :
    registers.value (index : Nat) = registers.get index := by
  rw [value, index?_natCast]
  rfl

theorem sets_set (registers : Registers) (x : Fin 16) (byte : UInt8) :
    registers.Sets (registers.set x byte) x byte.toNat where
  result := by rw [number, get_set_self]
  others other apart := get_set_other _ _ _ _ (Ne.symm apart)

theorem flags_set (registers : Registers) (x : Fin 16) (byte : UInt8) (carried : Bool) :
    registers.Flags ((registers.set x byte).set Registers.flag carried.toUInt8) x byte.toNat
      (if carried then 1 else 0) where
  flag := by
    rw [number, get_set_self]
    cases carried <;> rfl
  boolean := by
    rw [number, get_set_self]
    cases carried
    · exact .inl rfl
    · exact .inr rfl
  result apart := by rw [number, get_set_other _ _ _ _ (Ne.symm apart), get_set_self]
  others other apart unflagged := by
    rw [get_set_other _ _ _ _ (Ne.symm unflagged), get_set_other _ _ _ _ (Ne.symm apart)]

end Registers

/-- The operations that reckon with registers. -/
def Operation.reckons : Operation → Bool
  | addByte | bitOr | bitAnd | bitXor | addRegister | subtract | shiftRight | subtractFrom
  | shiftLeft => true
  | _ => false

namespace Machine

/-- A bitwise result was stored in a register. The flag is cleared after it where the dialect does
so, and is otherwise no concern of the operation. -/
def Combined (machine : Machine) (x : Fin 16) (result : Nat) (after : Registers) : Prop :=
  if machine.dialect.clearsFlag then machine.registers.Flags after x result 0
  else machine.registers.Sets after x result

/-- What an operation that reckons makes of the registers, in numbers: `a` and `b` are those in the
registers of its operands, `s` is the one that a shift works on. -/
def Reckoned (machine : Machine) (operation : Operation) (x y : Fin 16) (kk : Int)
    (after : Registers) : Prop :=
  let before := machine.registers
  let a := before.number x
  let b := before.number y
  let s := if machine.dialect.shiftsInPlace then a else b
  let vx : Int := after.number x
  let vf : Int := after.number Registers.flag
  match operation with
  | .addByte => before.Sets after x ((a + kk) % 256)
  | .bitOr => machine.Combined x (a ||| b) after
  | .bitAnd => machine.Combined x (a &&& b) after
  | .bitXor => machine.Combined x (a ^^^ b) after
  | .addRegister =>
      before.Flags after x ((a + b) % 256) (if 255 < a + b then 1 else 0) ∧
        (x ≠ Registers.flag → 256 * vf + vx = a + b)
  | .subtract =>
      before.Flags after x (((a : Int) - b) % 256) (if b ≤ a then 1 else 0) ∧
        (x ≠ Registers.flag → vx - 256 * (1 - vf) = (a : Int) - b)
  | .subtractFrom =>
      before.Flags after x (((b : Int) - a) % 256) (if a ≤ b then 1 else 0) ∧
        (x ≠ Registers.flag → vx - 256 * (1 - vf) = (b : Int) - a)
  | .shiftRight =>
      before.Flags after x (s / 2) (s % 2) ∧ (x ≠ Registers.flag → 2 * vx + vf = s)
  | .shiftLeft =>
      before.Flags after x (2 * s % 256) (s / 128) ∧
        (x ≠ Registers.flag → 256 * vf + vx = 2 * s)
  | _ => False

variable {machine after : Machine} {given : Option Instruction} {instruction : Instruction}
  {x y : Fin 16} {trace : Bool}

/-! ### What is carried out -/

/-- Reckoning is never refused, whatever else is in the fields of an instruction that names two
registers. -/
theorem perform_of_reckons (machine : Machine)
    (reckons : instruction.operation.reckons = true) (first : instruction.x = x.val)
    (second : instruction.y = y.val) :
    perform instruction machine =
      .ok ⟨machine.programCounter + 2, []⟩
        { machine with registers := machine.registersAfter instruction } := by
  have namesX : Registers.Names instruction.x := Registers.names_of_lt (by omega) (by omega)
  have namesY : Registers.Names instruction.y := Registers.names_of_lt (by omega) (by omega)
  -- The lemmas for the operations ask nothing of the instruction that the outcome is told for,
  -- so it is told for one whose operands are all in range.
  let blank := Instruction.ofFields .machineCode 0
  have range : blank.InRange := Instruction.inRange_ofFields _ _
  obtain ⟨operation, opcode, x, y, n, kk, nnn⟩ := instruction
  have knownX : blank.InRange → Registers.Names x := fun _ => namesX
  have knownY : blank.InRange → Registers.Names y := fun _ => namesY
  cases operation with
  | addByte => exact (addByte_performed x kk knownX).eq_ok range rfl
  | bitOr => exact (bitwise_performed (· ||| ·) x y knownX knownY).eq_ok range rfl
  | bitAnd => exact (bitwise_performed (· &&& ·) x y knownX knownY).eq_ok range rfl
  | bitXor => exact (bitwise_performed (· ^^^ ·) x y knownX knownY).eq_ok range rfl
  | addRegister => exact (addRegister_performed x y knownX knownY).eq_ok range rfl
  | subtract => exact (subtract_performed x x y knownX knownX knownY).eq_ok range rfl
  | subtractFrom => exact (subtract_performed x y x knownX knownY knownX).eq_ok range rfl
  | shiftRight =>
    exact (Outcome.ofShift knownX knownY (storeFlagged_performed _ _ _ knownX)).eq_ok range rfl
  | shiftLeft =>
    exact (Outcome.ofShift knownX knownY (storeFlagged_performed _ _ _ knownX)).eq_ok range rfl
  | _ => cases reckons

/-- With room to fall through, an instruction whose operation succeeds is carried out. -/
theorem execute_of_performed (trace : Bool) (running : machine.fault = none)
    (idle : machine.awaiting = none) (room : Layout.InProgram (machine.programCounter + 2))
    {completion : Completion}
    (performed : perform instruction (machine.holding instruction) = .ok completion after) :
    ∃ report, execute instruction trace machine = .ok report { after with
      programCounter := completion.next
      cycles := after.cycles + 1 } := by
  have checked : checkProgramCounter (machine.programCounter + 2) = .ok () := if_pos room
  have retired : retire instruction machine = .ok completion after := by
    unfold retire
    rw [Routine.bind_apply, Routine.modify_apply]
    cases instruction.operation.branches with
    | true => exact performed
    | false =>
      show (demand (checkProgramCounter (machine.programCounter + 2)) >>= fun _ =>
        perform instruction) (machine.holding instruction) = _
      rw [Routine.bind_apply, checked]
      exact performed
  rw [execute_of_running instruction running idle, retired]
  exact ⟨_, rfl⟩

/-! ### What is stored -/

theorem first_eq (operand : instruction.x = x.val) :
    machine.first instruction = machine.registers.get x := by
  rw [first, operand, Registers.value_natCast]

theorem second_eq (operand : instruction.y = y.val) :
    machine.second instruction = machine.registers.get y := by
  rw [second, operand, Registers.value_natCast]

theorem shifted_eq (first : instruction.x = x.val) (second : instruction.y = y.val) :
    machine.shifted instruction =
      if machine.dialect.shiftsInPlace then machine.registers.get x
      else machine.registers.get y := by
  rw [shifted, first, second]
  split <;> exact Registers.value_natCast _ _

theorem assigning_eq (operand : instruction.x = x.val) (byte : UInt8) :
    machine.assigning instruction byte = machine.registers.set x byte := by
  rw [assigning, operand, Registers.assign_natCast]

theorem flags_flagging (machine : Machine) (operand : instruction.x = x.val) (byte : UInt8)
    (carried : Bool) :
    machine.registers.Flags (machine.flagging instruction byte carried) x byte.toNat
      (if carried then 1 else 0) := by
  rw [flagging, assigning_eq operand]
  exact Registers.flags_set _ _ _ _

theorem combined_combining (machine : Machine) (operand : instruction.x = x.val) (byte : UInt8) :
    machine.Combined x byte.toNat (machine.combining instruction byte) := by
  unfold Combined combining
  rw [assigning_eq operand]
  split
  · exact Registers.flags_set _ _ _ false
  · exact Registers.sets_set _ _ _

/-! ### Bytes as numbers -/

theorem toNat_add_low (byte : UInt8) (value : Int) :
    ((byte + Byte.low value).toNat : Int) = ((byte.toNat : Int) + value) % 256 := by
  have low : (Byte.low value).toNat = (value % 256).toNat := by
    rw [Byte.low, UInt8.toNat_ofNat']
    omega
  rw [UInt8.toNat_add, low]
  omega

theorem toNat_add (one other : UInt8) :
    ((one + other).toNat : Int) = ((one.toNat : Int) + other.toNat) % 256 := by
  rw [UInt8.toNat_add]
  omega

theorem toNat_sub (minuend subtrahend : UInt8) :
    ((minuend - subtrahend).toNat : Int) = ((minuend.toNat : Int) - subtrahend.toNat) % 256 := by
  have bound := subtrahend.toNat_lt
  rw [UInt8.toNat_sub]
  omega

theorem toNat_shiftRight_one (byte : UInt8) : (byte >>> 1).toNat = byte.toNat / 2 := by
  rw [UInt8.toNat_shiftRight]
  exact Nat.shiftRight_eq_div_pow _ 1

theorem toNat_shiftLeft_one (byte : UInt8) : (byte <<< 1).toNat = 2 * byte.toNat % 256 := by
  rw [UInt8.toNat_shiftLeft]
  show byte.toNat <<< 1 % 256 = _
  rw [Nat.shiftLeft_eq, Nat.pow_one, Nat.mul_comm]

/-- The bit that is shifted out at the right. -/
theorem testBit_zero_eq (byte : UInt8) :
    (if byte.toNat.testBit 0 then 1 else 0 : Int) = (byte.toNat : Int) % 2 := by
  rw [Nat.testBit_zero]
  simp only [decide_eq_true_eq]
  split <;> omega

/-- The bit that is shifted out at the left. -/
theorem testBit_seven_eq (byte : UInt8) :
    (if byte.toNat.testBit 7 then 1 else 0 : Int) = (byte.toNat : Int) / 128 := by
  have bound := byte.toNat_lt
  rw [Nat.testBit_eq_decide_div_mod_eq]
  simp only [decide_eq_true_eq]
  split <;> omega

/-! ### All operations that reckon -/

/-- The carry is what a sum has beyond a byte. -/
theorem flags_sum (operand : instruction.x = x.val) (one other : UInt8) :
    let after := machine.flagging instruction (one + other) (255 < one.toNat + other.toNat)
    machine.registers.Flags after x (((one.toNat : Int) + other.toNat) % 256)
        (if 255 < one.toNat + other.toNat then 1 else 0) ∧
      (x ≠ Registers.flag →
        256 * (after.number Registers.flag : Int) + after.number x =
          (one.toNat : Int) + other.toNat) := by
  intro after
  have flags := flags_flagging machine operand (one + other)
    (255 < one.toNat + other.toNat)
  simp only [decide_eq_true_eq] at flags
  rw [toNat_add] at flags
  refine ⟨flags, fun apart => ?_⟩
  have oneBound := one.toNat_lt
  have otherBound := other.toNat_lt
  rw [flags.result apart, flags.flag]
  split <;> omega

/-- What is borrowed for a difference is missing from it, and the flag is not set then. -/
theorem flags_difference (operand : instruction.x = x.val) (minuend subtrahend : UInt8) :
    let after := machine.flagging instruction (minuend - subtrahend)
      (subtrahend.toNat ≤ minuend.toNat)
    machine.registers.Flags after x (((minuend.toNat : Int) - subtrahend.toNat) % 256)
        (if subtrahend.toNat ≤ minuend.toNat then 1 else 0) ∧
      (x ≠ Registers.flag →
        (after.number x : Int) - 256 * (1 - after.number Registers.flag) =
          (minuend.toNat : Int) - subtrahend.toNat) := by
  intro after
  have flags := flags_flagging machine operand (minuend - subtrahend)
    (subtrahend.toNat ≤ minuend.toNat)
  simp only [decide_eq_true_eq] at flags
  rw [toNat_sub] at flags
  refine ⟨flags, fun apart => ?_⟩
  have minuendBound := minuend.toNat_lt
  have subtrahendBound := subtrahend.toNat_lt
  rw [flags.result apart, flags.flag]
  split <;> omega

theorem flags_half (operand : instruction.x = x.val) (byte : UInt8) :
    let after := machine.flagging instruction (byte >>> 1) (byte.toNat.testBit 0)
    machine.registers.Flags after x ((byte.toNat : Int) / 2) ((byte.toNat : Int) % 2) ∧
      (x ≠ Registers.flag →
        2 * (after.number x : Int) + after.number Registers.flag = byte.toNat) := by
  intro after
  have flags := flags_flagging machine operand (byte >>> 1) (byte.toNat.testBit 0)
  rw [testBit_zero_eq, toNat_shiftRight_one] at flags
  refine ⟨flags, fun apart => ?_⟩
  rw [flags.result apart, flags.flag]
  omega

theorem flags_double (operand : instruction.x = x.val) (byte : UInt8) :
    let after := machine.flagging instruction (byte <<< 1) (byte.toNat.testBit 7)
    machine.registers.Flags after x (2 * (byte.toNat : Int) % 256) ((byte.toNat : Int) / 128) ∧
      (x ≠ Registers.flag →
        256 * (after.number Registers.flag : Int) + after.number x = 2 * byte.toNat) := by
  intro after
  have flags := flags_flagging machine operand (byte <<< 1) (byte.toNat.testBit 7)
  rw [testBit_seven_eq, toNat_shiftLeft_one] at flags
  refine ⟨flags, fun apart => ?_⟩
  rw [flags.result apart, flags.flag]
  omega

/-- What the operations that reckon leave in the registers is what they come to in numbers. -/
theorem reckoned_registersAfter (reckons : instruction.operation.reckons = true)
    (first : instruction.x = x.val) (second : instruction.y = y.val) :
    machine.Reckoned instruction.operation x y instruction.kk
      (machine.registersAfter instruction) := by
  have source : (if machine.dialect.shiftsInPlace then machine.registers.number x
      else machine.registers.number y) = (machine.shifted instruction).toNat := by
    rw [shifted_eq first second]
    split <;> rfl
  unfold registersAfter Reckoned
  dsimp only
  rw [source, first_eq first, second_eq second]
  cases operation : instruction.operation with
  | addByte =>
    have sets := Registers.sets_set machine.registers x
      (machine.registers.get x + Byte.low instruction.kk)
    rw [toNat_add_low] at sets
    dsimp only
    rw [assigning_eq first]
    exact sets
  | bitOr =>
    have combined := combined_combining machine first
      (machine.registers.get x ||| machine.registers.get y)
    rw [UInt8.toNat_or] at combined
    exact combined
  | bitAnd =>
    have combined := combined_combining machine first
      (machine.registers.get x &&& machine.registers.get y)
    rw [UInt8.toNat_and] at combined
    exact combined
  | bitXor =>
    have combined := combined_combining machine first
      (machine.registers.get x ^^^ machine.registers.get y)
    rw [UInt8.toNat_xor] at combined
    exact combined
  | addRegister => exact flags_sum first _ _
  | subtract => exact flags_difference first _ _
  | subtractFrom => exact flags_difference first _ _
  | shiftRight => exact flags_half first _
  | shiftLeft => exact flags_double first _
  | _ =>
    rw [operation] at reckons
    cases reckons

/-- Every instruction that reckons, handed in or fetched by a machine with room to go on, succeeds
and comes to its numbers, whatever the registers held and whichever registers it works on. -/
theorem reckoning_exact (running : machine.fault = none)
    (carries : machine.Carries given instruction)
    (room : Layout.InProgram (machine.programCounter + 2))
    (reckons : instruction.operation.reckons = true)
    (first : instruction.x = x.val) (second : instruction.y = y.val) (trace : Bool) :
    ∃ report after, attempt given trace machine = .ok report after ∧
      machine.Reckoned instruction.operation x y instruction.kk after.registers := by
  have performed := perform_of_reckons (machine.holding instruction) reckons first second
  obtain ⟨report, ran⟩ := execute_of_performed trace running carries.idle room performed
  rw [← attempt_of_carries running carries] at ran
  exact ⟨report, _, ran, reckoned_registersAfter reckons first second⟩

/-- A sum of `VF` and `VF`, where it is the flag that stays. -/
theorem reckoning_exact_flag :
    let dialect := Dialect.ofChoices none none none none
    let instruction := Instruction.ofFields .addRegister 0x8FF4
    let machine := { booted Pace.standard dialect (fun _ => 0) [] with
      registers := Registers.zero.set Registers.flag 0xC8 }
    machine.registers.number 15 = 200 ∧
      ∃ report after, attempt (some instruction) true machine = .ok report after ∧
        after.registers.number 15 = 1 := by
  intro dialect instruction machine
  have carries : machine.Carries (some instruction) instruction := ⟨rfl, .inl rfl⟩
  have operand : instruction.x = (15 : Fin 16).val := rfl
  obtain ⟨report, after, ran, flags, -⟩ := reckoning_exact rfl carries
    (show Layout.InProgram 0x202 by decide) rfl operand (y := 15) rfl true
  exact ⟨rfl, report, after, ran, Int.ofNat_inj.mp flags.flag⟩

end Machine

end Chip8
