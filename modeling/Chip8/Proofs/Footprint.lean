/-
This file proves that a cycle changes nothing outside the footprint of what it
does.

A footprint says which parts of a machine may change: registers one by one,
bytes of memory as a block at the index, the other parts as a whole. There is
one table of footprints, a line for each operation, and it is all that has to be
read to know what an operation can disturb. A cycle that carries an instruction
out stays within the footprint of the instruction. A cycle of a machine that
waits changes nothing, unless it finds a key; then it changes the register that
waits for one.

The footprint bounds the random source from both sides: exactly as many bytes
are drawn as it says. Keys, dialect, pace and fault are in no footprint, and
every cycle is counted once.
-/

import Chip8.Proofs.Success

namespace Chip8

namespace Registers

/-- The registers from `V0` up to the one a number names. -/
def upTo (number : Int) : List (Fin 16) :=
  match index? number with
  | some last => (List.finRange 16).filter (· ≤ last)
  | none => []

variable {registers : Registers} {number : Fin 16} {x : Int} {byte : UInt8}

theorem get_assign_of_index? (named : index? x = some number) :
    (registers.assign x byte).get number = byte := by
  rw [assign, named]
  exact get_set_self _ _ _

theorem get_assign_of_not_mem (outside : number ∉ (index? x).toList) :
    (registers.assign x byte).get number = registers.get number := by
  unfold assign
  cases named : index? x with
  | none => rfl
  | some index =>
    rw [named, Option.toList_some, List.mem_singleton] at outside
    exact get_set_other _ _ _ _ (Ne.symm outside)

/-- A block laid over the registers reaches as far as it is long. -/
theorem get_place_of_le (start : Nat) (block : List UInt8)
    (beyond : start + block.length ≤ number.val) :
    (registers.place start block).get number = registers.get number := by
  induction block generalizing registers start with
  | nil => rfl
  | cons byte rest inductionHypothesis =>
    rw [List.length_cons] at beyond
    rw [place, inductionHypothesis (start + 1) (by omega)]
    exact Vector.getElem_setIfInBounds_ne number.isLt (by omega)

/-- As many registers as a load fills do not go past the one it names. -/
theorem leading_le_of_not_mem_upTo (small : x < 16) (outside : number ∉ upTo x) :
    leading (x + 1) ≤ number.val := by
  unfold upTo index? at outside
  unfold leading
  split at outside
  · next last named =>
    have beyond : last < number := by simpa using outside
    split at named
    · cases named
      have above : x.toNat < number.val := beyond
      split <;> omega
    · split at named
      · cases named
        have above : (x + 16).toNat < number.val := beyond
        split <;> omega
      · cases named
  · next unnamed =>
    split at unnamed
    · cases unnamed
    · split at unnamed
      · cases unnamed
      · split <;> omega

end Registers

/-- The parts of a machine that may change. -/
structure Footprint where
  registers : List (Fin 16) := []
  index : Bool := false
  stack : Bool := false
  delay : Bool := false
  sound : Bool := false
  /-- How many bytes of memory at the index. -/
  bytes : Int := 0
  display : Bool := false
  latch : Bool := false
  awaiting : Bool := false
  /-- How many bytes are drawn from the random source. -/
  drawn : Nat := 0
  deriving DecidableEq, Repr

/-- What an instruction may change. -/
def Instruction.footprint (instruction : Instruction) (dialect : Dialect) : Footprint :=
  let x := (Registers.index? instruction.x).toList
  match instruction.operation with
  | .loadByte | .addByte | .copyRegister | .readDelay => { registers := x }
  | .randomByte => { registers := x, drawn := 1 }
  | .bitOr | .bitAnd | .bitXor =>
      { registers := if dialect.clearsFlag then x ++ [Registers.flag] else x }
  | .addRegister | .subtract | .shiftRight | .subtractFrom | .shiftLeft =>
      { registers := x ++ [Registers.flag] }
  | .clearDisplay => { display := true }
  | .drawSprite => { registers := [Registers.flag], display := true }
  | .loadIndex | .addIndex | .pointAtGlyph => { index := true }
  | .call | .returnFromCall => { stack := true }
  | .awaitKey => { latch := true, awaiting := true }
  | .setDelay => { delay := true }
  | .setSound => { sound := true }
  | .storeDecimal => { bytes := 3 }
  | .storeRegisters => { bytes := instruction.x + 1, index := dialect.movesIndex }
  | .loadRegisters =>
      { registers := Registers.upTo instruction.x, index := dialect.movesIndex }
  | .machineCode | .jump | .jumpOffset | .skipIfByte | .skipUnlessByte | .skipIfEqual
  | .skipUnlessEqual | .skipIfHeld | .skipUnlessHeld => {}

/-- What a look at the keypad may change while a register waits. -/
def Footprint.ofPoll (latch : Option (Fin 16)) (register : Int) : Footprint :=
  if latch.isSome then { registers := (Registers.index? register).toList, awaiting := true } else {}

namespace Machine

/-- One cycle has made one machine of another, within a footprint. -/
structure Within (footprint : Footprint) (before after : Machine) : Prop where
  registers : ∀ number, number ∉ footprint.registers →
    after.registers.get number = before.registers.get number
  index : footprint.index = false → after.index = before.index
  stack : footprint.stack = false → after.stack = before.stack
  delay : footprint.delay = false → after.timers.delay = before.timers.delay
  sound : footprint.sound = false → after.timers.sound = before.timers.sound
  memory : ∀ address,
    ¬ (before.index ≤ address ∧ address < before.index + footprint.bytes) →
      after.memory.byteAt address = before.memory.byteAt address
  size : after.memory.size = before.memory.size
  display : footprint.display = false → after.display = before.display
  latch : footprint.latch = false → after.keypad.latch = before.keypad.latch
  awaiting : footprint.awaiting = false → after.awaiting = before.awaiting
  random : after.random = { before.random with drawn := before.random.drawn + footprint.drawn }
  down : after.keypad.down = before.keypad.down
  dialect : after.dialect = before.dialect
  pace : after.pace = before.pace
  fault : after.fault = before.fault
  cycles : after.cycles = before.cycles + 1

variable {machine after : Machine} {given : Option Instruction} {instruction : Instruction}
  {trace : Bool} {report : CycleReport}

/-! ### Instructions -/

/-- More bytes than there are registers are never loaded. -/
theorem lt_of_loadRegisters (loads : instruction.operation = .loadRegisters)
    (clear : machine.obstacle? instruction = none) (fits : machine.Fits instruction) :
    instruction.x < 16 := by
  obtain ⟨-, unhindered⟩ := Option.or_eq_none_iff.mp clear
  rw [hindrance?, loads] at unhindered
  have present := memory_present unhindered
  have filled := fits.block loads
  by_contra large
  rw [Memory.length_slice (by omega) present, Registers.leading, if_neg (by omega)] at filled
  omega

theorem registersAfter_within (clear : machine.obstacle? instruction = none)
    (fits : machine.Fits instruction) (number : Fin 16)
    (outside : number ∉ (instruction.footprint machine.dialect).registers) :
    (machine.registersAfter instruction).get number = machine.registers.get number := by
  have small : instruction.operation = .loadRegisters → instruction.x < 16 :=
    fun loads => lt_of_loadRegisters loads clear fits
  obtain ⟨operation, opcode, x, y, n, kk, nnn⟩ := instruction
  have flagged (byte : UInt8) (flag : Bool)
      (outside : number ∉ (Registers.index? x).toList ++ [Registers.flag]) :
      (machine.flagging ⟨operation, opcode, x, y, n, kk, nnn⟩ byte flag).get number =
        machine.registers.get number := by
    rw [List.mem_append, not_or, List.mem_singleton] at outside
    rw [flagging, Registers.get_set_other _ _ _ _ (Ne.symm outside.2)]
    exact Registers.get_assign_of_not_mem outside.1
  have combined (byte : UInt8)
      (outside : number ∉ if machine.dialect.clearsFlag then
        (Registers.index? x).toList ++ [Registers.flag] else (Registers.index? x).toList) :
      (machine.combining ⟨operation, opcode, x, y, n, kk, nnn⟩ byte).get number =
        machine.registers.get number := by
    unfold combining
    split at outside
    · next clears =>
      rw [if_pos clears]
      exact flagged byte false outside
    · next keeps =>
      rw [if_neg keeps]
      exact Registers.get_assign_of_not_mem outside
  cases operation with
  | loadByte | addByte | copyRegister | readDelay | randomByte =>
    exact Registers.get_assign_of_not_mem outside
  | bitOr | bitAnd | bitXor => exact combined _ outside
  | addRegister | subtract | shiftRight | subtractFrom | shiftLeft => exact flagged _ _ outside
  | drawSprite =>
    exact Registers.get_set_other _ _ _ _ (Ne.symm (mt List.mem_singleton.mpr outside))
  | loadRegisters =>
    refine Registers.get_place_of_le 0 _ ?_
    rw [Nat.zero_add, fits.block rfl]
    exact Registers.leading_le_of_not_mem_upTo (small rfl) outside
  | _ => rfl

/-- The bytes an instruction stores are the bytes in its footprint. -/
theorem bytes_footprint (instruction : Instruction) (dialect : Dialect) :
    (instruction.footprint dialect).bytes = instruction.storedCount := by
  obtain ⟨operation, opcode, x, y, n, kk, nnn⟩ := instruction
  cases operation <;> rfl

theorem retired_within (clear : machine.obstacle? instruction = none)
    (fits : machine.Fits instruction) :
    Within (instruction.footprint machine.dialect) machine (machine.retired instruction) where
  registers := registersAfter_within clear fits
  index kept := by
    show machine.indexAfter instruction = _
    obtain ⟨operation, opcode, x, y, n, kk, nnn⟩ := instruction
    cases operation with
    | loadIndex | addIndex | pointAtGlyph => cases kept
    | storeRegisters | loadRegisters => exact if_neg (Bool.eq_false_iff.mp kept)
    | _ => rfl
  stack kept := by
    show machine.stackAfter instruction = _
    obtain ⟨operation, opcode, x, y, n, kk, nnn⟩ := instruction
    cases operation with
    | call | returnFromCall => cases kept
    | _ => rfl
  delay kept := by
    show (machine.timersAfter instruction).delay = _
    obtain ⟨operation, opcode, x, y, n, kk, nnn⟩ := instruction
    cases operation with
    | setDelay => cases kept
    | _ => rfl
  sound kept := by
    show (machine.timersAfter instruction).sound = _
    obtain ⟨operation, opcode, x, y, n, kk, nnn⟩ := instruction
    cases operation with
    | setSound => cases kept
    | _ => rfl
  memory address outside := by
    rw [bytes_footprint] at outside
    exact (byteAt_memoryAfter clear address).trans (if_neg outside)
  size := Memory.size_place _ _ _
  display kept := by
    show machine.displayAfter instruction = _
    obtain ⟨operation, opcode, x, y, n, kk, nnn⟩ := instruction
    cases operation with
    | clearDisplay | drawSprite => cases kept
    | _ => rfl
  latch kept := by
    show (machine.keypadAfter instruction).latch = _
    obtain ⟨operation, opcode, x, y, n, kk, nnn⟩ := instruction
    cases operation with
    | awaitKey => cases kept
    | _ => rfl
  awaiting kept := by
    show machine.awaitingAfter instruction = _
    obtain ⟨operation, opcode, x, y, n, kk, nnn⟩ := instruction
    cases operation with
    | awaitKey => cases kept
    | _ => rfl
  random := by
    show machine.randomAfter instruction = _
    obtain ⟨operation, opcode, x, y, n, kk, nnn⟩ := instruction
    cases operation <;> rfl
  down := by
    show (machine.keypadAfter instruction).down = _
    obtain ⟨operation, opcode, x, y, n, kk, nnn⟩ := instruction
    cases operation <;> rfl
  dialect := rfl
  pace := rfl
  fault := rfl
  cycles := rfl

/-! ### Looks at the keypad -/

/-- A look at the keypad touches registers, program counter and wait, and counts as a cycle. -/
theorem polled_within {footprint : Footprint} (registers : Registers) (programCounter : Int)
    (awaiting : Option Int) (draws : footprint.drawn = 0)
    (kept : ∀ number, number ∉ footprint.registers →
      registers.get number = machine.registers.get number)
    (waits : footprint.awaiting = false → awaiting = machine.awaiting) :
    Within footprint machine { machine with
      registers := registers
      programCounter := programCounter
      awaiting := awaiting
      cycles := machine.cycles + 1 } where
  registers := kept
  index _ := rfl
  stack _ := rfl
  delay _ := rfl
  sound _ := rfl
  memory _ _ := rfl
  size := rfl
  display _ := rfl
  latch _ := rfl
  awaiting := waits
  random := by rw [draws]; rfl
  down := rfl
  dialect := rfl
  pace := rfl
  fault := rfl
  cycles := rfl

theorem waited_within (register : Int) : Within (.ofPoll none register) machine machine.waited :=
  polled_within machine.registers machine.programCounter machine.awaiting rfl (fun _ _ => rfl)
    fun _ => rfl

theorem woken_within (register : Int) (key : Fin 16) :
    Within (.ofPoll (some key) register) machine (machine.woken register key) :=
  polled_within _ _ _ rfl (fun _ outside => Registers.get_assign_of_not_mem outside)
    fun changes => by cases changes

/-! ### Every cycle -/

/-- Whatever was asked of a machine before, hand-made instructions included: a cycle that succeeds
stays within the footprint of the instruction it carries out, or of the look it takes at the
keypad. -/
theorem cycle_within_footprint {rom : Option (List UInt8)} {speed : Option ClockSpeed}
    {dialect : Dialect} {bytes : Nat → UInt8} {new : Machine}
    (built : boot rom speed dialect bytes = .ok new) (actions : List Action)
    (reached : machine = new.actAll actions)
    (ran : attempt given trace machine = .ok report after) :
    (∃ instruction, machine.Carries given instruction ∧
      Within (instruction.footprint machine.dialect) machine after ∧
      (instruction.operation = .randomByte → ∃ number,
        Registers.index? instruction.x = some number ∧
          after.registers.get number =
            machine.random.byteAt machine.random.drawn &&& Byte.low instruction.kk)) ∨
    ∃ register, machine.awaiting = some register ∧
      Within (.ofPoll machine.keypad.latch register) machine after := by
  have intact : machine.Intact := reached ▸ intact_of_boot built actions
  obtain ⟨notes, succeeded, -⟩ := succeeded_of_attempt intact.proper ran
  cases succeeded with
  | retired instruction carries clear fits =>
    refine .inl ⟨instruction, carries, retired_within clear fits, fun draws => ?_⟩
    obtain ⟨number, named⟩ := Option.isSome_iff_exists.mp (fits.register draws)
    refine ⟨number, named, ?_⟩
    show (machine.registersAfter instruction).get number = _
    rw [registersAfter, draws]
    exact Registers.get_assign_of_index? named
  | waited register waiting unlatched =>
    rw [unlatched]
    exact .inr ⟨register, waiting, waited_within register⟩
  | woken register key waiting latched =>
    rw [latched]
    exact .inr ⟨register, waiting, woken_within register key⟩

/-- A program that draws a random byte into `V3`, where a bound of `0x0F` is put on it. -/
theorem cycle_within_footprint_random :
    let dialect := Dialect.ofChoices none none none none
    ∃ new report after, boot (some [0xC3, 0x0F]) none dialect (fun _ => 0xAB) = .ok new ∧
      step true new = .ok report after ∧ after.random.drawn = 1 ∧
      Within { registers := [3], drawn := 1 } new after := by
  intro dialect
  let new := booted Pace.standard dialect (fun _ => 0xAB) [0xC3, 0x0F]
  have built := boot_standard [0xC3, 0x0F] (by decide) dialect fun _ => 0xAB
  let instruction := Instruction.ofFields .randomByte (Byte.word 0xC3 0x0F)
  have next : new.next = .ok instruction := next_booted _ _ _ _ _ _ (by decide)
  have intact : new.Intact := intact_booted _ _ _ _
  have range : instruction.InRange := Instruction.inRange_ofFields _ _
  have ran := (execute_outcome instruction true (fun _ => intact.proper) rfl rfl).eq_ok range rfl
  rw [← step_of_next rfl rfl next] at ran
  have followed : attempt none true new = _ := ran
  rcases cycle_within_footprint built [] rfl followed with
    ⟨_, carries, within, -⟩ | ⟨_, absurdity, -⟩
  · cases carries.unique ⟨rfl, takes_of_next next⟩
    exact ⟨_, _, _, built, ran, rfl, within⟩
  · cases absurdity

end Machine

end Chip8
