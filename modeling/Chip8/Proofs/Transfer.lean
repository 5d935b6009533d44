/-
This file proves that storing registers and loading them undo each other.

Storing puts the registers `V0` to `Vx` into memory one by one, loading takes a
block of as many bytes back at once. Both reach from the index exactly as far as
there are registers, up to the last byte of memory if need be, and touch nothing
else. So as long as a run does not write to where registers were stored, loading
from there brings them back, whatever the run was. Where the dialect moves the
index, it moves past the block and is not cut off at its top, because the block
lies in memory: registers that are stored next come to lie right behind.

The decimal digits of a register are stored in the same way, three bytes that
spell its number.
-/

import Chip8.Proofs.Arithmetic
import Chip8.Proofs.Trail

namespace Chip8

/-! ### Blocks -/

namespace Registers

variable {registers : Registers} {start count : Nat} {number : Fin 16}

theorem getD_block (registers : Registers) (start : Nat) {offset : Nat} (inside : offset < count) :
    (registers.block start count).getD offset 0 = registers.value (start + offset : Nat) := by
  rw [block, List.getD_eq_getElem?_getD, List.getElem?_map, List.getElem?_range' inside,
    Nat.one_mul]
  rfl

theorem get_place_of_lt_start (block : List UInt8) (below : number.val < start) :
    (registers.place start block).get number = registers.get number := by
  induction block generalizing registers start with
  | nil => rfl
  | cons byte rest inductionHypothesis =>
    rw [place, inductionHypothesis (Nat.lt_succ_of_lt below)]
    exact Vector.getElem_setIfInBounds_ne number.isLt (Nat.ne_of_gt below)

/-- A register under a block that is laid over the registers holds the block's byte. -/
theorem get_place_of_lt (block : List UInt8) (above : start ≤ number.val)
    (inside : number.val < start + block.length) :
    (registers.place start block).get number = block.getD (number.val - start) 0 := by
  induction block generalizing registers start with
  | nil => exact absurd inside (Nat.not_lt.mpr above)
  | cons byte rest inductionHypothesis =>
    rw [List.length_cons] at inside
    rw [place]
    by_cases here : start = number.val
    · rw [here, get_place_of_lt_start _ (Nat.lt_succ_self _), Nat.sub_self, List.getD_cons_zero]
      exact Vector.getElem_setIfInBounds_self number.isLt
    · rw [inductionHypothesis (by omega) (by omega),
        show number.val - start = number.val - (start + 1) + 1 by omega, List.getD_cons_succ]

end Registers

theorem Memory.ext_byteAt {memory other : Memory} (size : memory.size = other.size)
    (bytes : ∀ address, memory.byteAt address = other.byteAt address) : memory = other := by
  obtain ⟨cells⟩ := memory
  obtain ⟨cells'⟩ := other
  refine congrArg Memory.mk (Array.ext size fun index inside inside' => ?_)
  have byte := bytes (index : Nat)
  simp only [byteAt, if_neg (show ¬ ((index : Int) < 0) by omega), Int.toNat_natCast] at byte
  rwa [← Array.getElem_eq_getD, ← Array.getElem_eq_getD] at byte

/-- The decimal digits of a byte spell its number. -/
theorem decimals_spell (byte : UInt8) :
    let hundreds := (byte / 100).toNat
    let tens := (byte / 10 % 10).toNat
    let units := (byte % 10).toNat
    hundreds ≤ 9 ∧ tens ≤ 9 ∧ units ≤ 9 ∧ 100 * hundreds + 10 * tens + units = byte.toNat := by
  intro hundreds tens units
  have bound := byte.toNat_lt
  have high : hundreds = byte.toNat / 100 := UInt8.toNat_div _ _
  have middle : tens = byte.toNat / 10 % 10 := by
    show (byte / 10 % 10).toNat = _
    rw [UInt8.toNat_mod, UInt8.toNat_div]
    rfl
  have low : units = byte.toNat % 10 := UInt8.toNat_mod _ _
  omega

namespace Machine

/-! ### What is stored and loaded -/

/-- A cycle of the machine carries out an operation whose first operand is a register, and
succeeds. -/
def Does (machine : Machine) (operation : Operation) (x : Fin 16) (after : Machine) : Prop :=
  ∃ (given : Option Instruction) (trace : Bool) (report : CycleReport)
    (instruction : Instruction), machine.Carries given instruction ∧
      instruction.operation = operation ∧ instruction.x = x.val ∧
        attempt given trace machine = .ok report after

/-- Where the index is left behind the registers `V0` to `Vx`. -/
def behind (machine : Machine) (x : Fin 16) : Int :=
  if machine.dialect.movesIndex then machine.index + x.val + 1 else machine.index

/-- The registers `V0` to `Vx` were stored at the index. -/
structure Dumped (before : Machine) (x : Fin 16) (after : Machine) : Prop where
  inside : 0 ≤ before.index ∧ before.index + x.val ≤ 0xFFF
  bytes : ∀ number ≤ x, after.memory.byteAt (before.index + number.val) =
    before.registers.get number
  rest : ∀ address, ¬ (before.index ≤ address ∧ address ≤ before.index + x.val) →
    after.memory.byteAt address = before.memory.byteAt address
  size : after.memory.size = before.memory.size
  registers : after.registers = before.registers
  index : after.index = before.behind x

/-- The registers `V0` to `Vx` were loaded from the index. -/
structure Restored (before : Machine) (x : Fin 16) (after : Machine) : Prop where
  inside : 0 ≤ before.index ∧ before.index + x.val ≤ 0xFFF
  bytes : ∀ number ≤ x, after.registers.get number =
    before.memory.byteAt (before.index + number.val)
  rest : ∀ number, x < number → after.registers.get number = before.registers.get number
  memory : after.memory = before.memory
  index : after.index = before.behind x

/-- Three decimal digits that spell the number in a register were stored at the index. -/
structure Spelled (before : Machine) (x : Fin 16) (after : Machine) : Prop where
  digits : ∃ hundreds tens units : Nat, hundreds ≤ 9 ∧ tens ≤ 9 ∧ units ≤ 9 ∧
    100 * hundreds + 10 * tens + units = before.registers.number x ∧
    (after.memory.byteAt before.index).toNat = hundreds ∧
    (after.memory.byteAt (before.index + 1)).toNat = tens ∧
    (after.memory.byteAt (before.index + 2)).toNat = units
  rest : ∀ address, ¬ (before.index ≤ address ∧ address ≤ before.index + 2) →
    after.memory.byteAt address = before.memory.byteAt address

/-- A run writes nowhere in the block of the registers `V0` to `Vx` at an address. -/
def Spares (deeds : List Deed) (start : Int) (x : Fin 16) : Prop :=
  ∀ deed ∈ deeds, ∀ address, start ≤ address → address ≤ start + x.val → ¬ deed.Writes address

variable {machine before after last : Machine} {deeds : List Deed} {operation : Operation}
  {instruction : Instruction} {x y number : Fin 16}

theorem Does.retired (does : machine.Does operation x after) (intact : machine.Intact) :
    ∃ instruction : Instruction, instruction.operation = operation ∧ instruction.x = x.val ∧
      machine.obstacle? instruction = none ∧ after = machine.retired instruction := by
  obtain ⟨given, trace, report, instruction, carries, same, operand, ran⟩ := does
  obtain ⟨notes, succeeded, -⟩ := succeeded_of_attempt intact.proper ran
  refine ⟨instruction, same, operand, ?_⟩
  cases succeeded with
  | retired other carried clear =>
    cases carries.unique carried
    exact ⟨clear, rfl⟩
  | waited _ waiting => exact absurd carries (not_carries_of_waiting waiting)
  | woken _ _ waiting => exact absurd carries (not_carries_of_waiting waiting)

theorem Does.intact (does : machine.Does operation x after) (intact : machine.Intact) :
    after.Intact := by
  obtain ⟨given, trace, report, -, -, -, -, ran⟩ := does
  exact (moves_of_attempt intact ran).intact intact

/-- The registers that are stored or loaded have their place in memory. -/
theorem inside_of_clear (intact : machine.Intact) (clear : machine.obstacle? instruction = none)
    (transfers : instruction.operation = .storeRegisters ∨ instruction.operation = .loadRegisters)
    (operand : instruction.x = x.val) :
    0 ≤ machine.index ∧ machine.index + x.val ≤ 0xFFF ∧
      machine.memory.missing? machine.index (x.val + 1 : Int) = none := by
  obtain ⟨-, unhindered⟩ := Option.or_eq_none_iff.mp clear
  have present : machine.missing? (instruction.x + 1) = none := by
    rcases transfers with same | same <;> rwa [hindrance?, same] at unhindered
  have block := memory_present present
  rw [operand] at block
  obtain ⟨nonneg, inside⟩ := Memory.missing?_eq_none_iff.mp block
  rw [intact.memory] at inside
  unfold Layout.memorySize at inside
  exact ⟨nonneg, by omega, block⟩

theorem indexAfter_of_transfer
    (transfers : instruction.operation = .storeRegisters ∨ instruction.operation = .loadRegisters)
    (operand : instruction.x = x.val) (inside : machine.index + x.val ≤ 0xFFF) :
    machine.indexAfter instruction = machine.behind x := by
  have moved : machine.indexAfter instruction =
      if machine.dialect.movesIndex then min (machine.index + (instruction.x + 1)) Layout.indexTop
      else machine.index := by
    rcases transfers with same | same <;> rw [indexAfter, same]
  rw [moved, behind, operand]
  unfold Layout.indexTop
  split
  · omega
  · rfl

theorem Does.dumped (does : machine.Does .storeRegisters x after) (intact : machine.Intact) :
    machine.Dumped x after := by
  obtain ⟨instruction, stores, operand, clear, rfl⟩ := does.retired intact
  obtain ⟨nonneg, inside, -⟩ := inside_of_clear intact clear (.inl stores) operand
  have count : instruction.storedCount = x.val + 1 := by
    rw [Instruction.storedCount, stores, operand]
  have stored : machine.stored instruction = machine.registers.block 0 (x.val + 1) := by
    rw [Machine.stored, stores, operand]
    rfl
  have byte (address : Int) := byteAt_memoryAfter clear address
  rw [count, stored] at byte
  refine ⟨⟨nonneg, inside⟩, fun number within => ?_, fun address outside => ?_,
    Memory.size_place _ _ _, ?_, indexAfter_of_transfer (.inl stores) operand inside⟩
  · have low : number.val ≤ x.val := within
    refine (byte _).trans ?_
    rw [if_pos (by omega), show (machine.index + number.val - machine.index).toNat = number.val by
      omega, Registers.getD_block _ _ (by omega), Nat.zero_add, Registers.value_natCast]
  · exact (byte address).trans (if_neg (by omega))
  · show machine.registersAfter instruction = _
    rw [registersAfter, stores]

theorem Does.restored (does : machine.Does .loadRegisters x after) (intact : machine.Intact) :
    machine.Restored x after := by
  obtain ⟨instruction, loads, operand, clear, rfl⟩ := does.retired intact
  obtain ⟨nonneg, inside, present⟩ := inside_of_clear intact clear (.inr loads) operand
  have registers : machine.registersAfter instruction = machine.registers.place 0
      (machine.memory.slice machine.index (machine.index + (x.val + 1 : Int))) := by
    rw [registersAfter, loads, operand]
  have length : (machine.memory.slice machine.index
      (machine.index + (x.val + 1 : Int))).length = x.val + 1 := by
    rw [Memory.length_slice (by omega) present]
    omega
  refine ⟨⟨nonneg, inside⟩, fun number within => ?_, fun number beyond => ?_, ?_,
    indexAfter_of_transfer (.inr loads) operand inside⟩
  · have low : number.val ≤ x.val := within
    show (machine.registersAfter instruction).get number = _
    rw [registers, Registers.get_place_of_lt _ (Nat.zero_le _) (by omega), Nat.sub_zero,
      Memory.slice_eq_map (by omega) present, List.getD_eq_getElem?_getD, List.getElem?_map,
      List.getElem?_range (by omega)]
    rfl
  · have high : x.val < number.val := beyond
    show (machine.registersAfter instruction).get number = _
    rw [registers]
    exact Registers.get_place_of_le 0 _ (by omega)
  · show machine.memory.place machine.index (machine.stored instruction) = _
    rw [Machine.stored, loads, Memory.place_nil]

theorem Does.spelled (does : machine.Does .storeDecimal x after) (intact : machine.Intact) :
    machine.Spelled x after := by
  obtain ⟨instruction, stores, operand, clear, rfl⟩ := does.retired intact
  have count : instruction.storedCount = 3 := by rw [Instruction.storedCount, stores]
  have stored : machine.stored instruction = decimals (machine.registers.get x) := by
    rw [Machine.stored, stores, ← first_eq operand]
  have byte (address : Int) := byteAt_memoryAfter clear address
  rw [count, stored] at byte
  obtain ⟨hundreds, tens, units, spells⟩ := decimals_spell (machine.registers.get x)
  have digit (offset : Nat) (within : offset < 3) :
      (machine.memoryAfter instruction).byteAt (machine.index + offset) =
        (decimals (machine.registers.get x)).getD offset 0 := by
    rw [byte, if_pos (by omega), show (machine.index + offset - machine.index).toNat = offset by
      omega]
  have first := digit 0 (by decide)
  rw [Int.natCast_zero, Int.add_zero] at first
  exact {
    digits := ⟨_, _, _, hundreds, tens, units, spells, congrArg UInt8.toNat first,
      congrArg UInt8.toNat (digit 1 (by decide)), congrArg UInt8.toNat (digit 2 (by decide))⟩
    rest := fun address outside => (byte address).trans (if_neg (by omega)) }

/-! ### There and back -/

/-- What storing and loading registers do on a machine, and on those that it runs to. -/
structure Transfers (machine : Machine) : Prop where
  stores : ∀ x after, machine.Does .storeRegisters x after → machine.Dumped x after
  loads : ∀ x after, machine.Does .loadRegisters x after → machine.Restored x after
  /-- A run that does not write to where registers were stored leaves them there to be loaded. -/
  restores : ∀ x stored deeds last after, machine.Does .storeRegisters x stored →
    Trail stored deeds last → Spares deeds machine.index x → last.index = machine.index →
      last.Does .loadRegisters x after →
        (∀ number ≤ x, after.registers.get number = machine.registers.get number) ∧
          ∀ number, x < number → after.registers.get number = last.registers.get number
  /-- Registers that are stored where they were loaded from change nothing in memory. -/
  returns : ∀ x loaded deeds last after, machine.Does .loadRegisters x loaded →
    Trail loaded deeds last → Spares deeds machine.index x →
      (∀ number ≤ x, last.registers.get number = loaded.registers.get number) →
        last.index = machine.index → last.Does .storeRegisters x after →
          loaded.memory = machine.memory ∧ after.memory = last.memory
  /-- Where the dialect moves the index, registers that are stored next lie right behind. -/
  adjoins : ∀ x y stored deeds last after, machine.dialect.movesIndex = true →
    machine.Does .storeRegisters x stored → Trail stored deeds last →
      Spares deeds machine.index x → last.index = stored.index →
        last.Does .storeRegisters y after →
          last.index = machine.index + x.val + 1 ∧
            (∀ number ≤ x, after.memory.byteAt (machine.index + number.val) =
              machine.registers.get number) ∧
            ∀ number ≤ y, after.memory.byteAt (machine.index + x.val + 1 + number.val) =
              last.registers.get number
  spells : ∀ x after, machine.Does .storeDecimal x after → machine.Spelled x after

/-- A run leaves the block alone that it spares. -/
theorem Trail.byteAt_of_spares {first : Machine} (trail : Trail first deeds last)
    (intact : first.Intact) {start : Int} (spares : Spares deeds start x)
    (within : number ≤ x) :
    last.memory.byteAt (start + number.val) = first.memory.byteAt (start + number.val) := by
  have low : number.val ≤ x.val := within
  exact trail.byteAt intact fun deed member => spares deed member _ (by omega) (by omega)

/-- Storing what memory holds already leaves memory as it is. -/
theorem Dumped.memory_eq (dumped : machine.Dumped x after)
    (held : ∀ number ≤ x, machine.registers.get number =
      machine.memory.byteAt (machine.index + number.val)) :
    after.memory = machine.memory := by
  refine Memory.ext_byteAt dumped.size fun address => ?_
  by_cases within : machine.index ≤ address ∧ address ≤ machine.index + x.val
  · let number : Fin 16 := ⟨(address - machine.index).toNat, by omega⟩
    have here : machine.index + number.val = address := by
      show machine.index + ((address - machine.index).toNat : Int) = address
      omega
    have low : number ≤ x := by
      show (address - machine.index).toNat ≤ x.val
      omega
    rw [← here, dumped.bytes number low, held number low]
  · exact dumped.rest address within

theorem Intact.transfers (intact : machine.Intact) : machine.Transfers where
  stores x after does := does.dumped intact
  loads x after does := does.restored intact
  restores x stored deeds last after stores trail spares back loads := by
    have dumped := stores.dumped intact
    have restored := loads.restored (trail.intact (stores.intact intact))
    refine ⟨fun number within => ?_, restored.rest⟩
    rw [restored.bytes number within, back,
      trail.byteAt_of_spares (stores.intact intact) spares within, dumped.bytes number within]
  returns x loaded deeds last after loads trail spares kept back stores := by
    have restored := loads.restored intact
    have dumped := stores.dumped (trail.intact (loads.intact intact))
    refine ⟨restored.memory, dumped.memory_eq fun number within => ?_⟩
    rw [kept number within, restored.bytes number within, back,
      trail.byteAt_of_spares (loads.intact intact) spares within, restored.memory]
  adjoins x y stored deeds last after moves stores trail spares stays again := by
    have dumped := stores.dumped intact
    have dumpedNext := again.dumped (trail.intact (stores.intact intact))
    have behind : last.index = machine.index + x.val + 1 := by
      rw [stays, dumped.index, Machine.behind, if_pos moves]
    refine ⟨behind, fun number within => ?_, fun number within => ?_⟩
    · have low : number.val ≤ x.val := within
      rw [dumpedNext.rest _ (by omega),
        trail.byteAt_of_spares (stores.intact intact) spares within, dumped.bytes number within]
    · rw [← behind, dumpedNext.bytes number within]
  spells x after does := does.spelled intact

/-- Whatever was asked of a machine before: storing registers and loading them undo each other. -/
theorem storing_loading_inverse {rom : Option (List UInt8)} {speed : Option ClockSpeed}
    {dialect : Dialect} {bytes : Nat → UInt8} {new : Machine}
    (built : boot rom speed dialect bytes = .ok new) (actions : List Action)
    (reached : machine = new.actAll actions) : machine.Transfers := by
  have intact : machine.Intact := reached ▸ intact_of_boot built actions
  exact intact.transfers

/-- An instruction with nothing in its way is carried out when it is handed in. -/
theorem does_of_clear (intact : machine.Intact) (running : machine.fault = none)
    (idle : machine.awaiting = none) (range : instruction.InRange)
    (operand : instruction.x = x.val) (clear : machine.obstacle? instruction = none) :
    machine.Does instruction.operation x (machine.retired instruction) :=
  ⟨some instruction, true, _, instruction, ⟨idle, .inl rfl⟩, rfl, operand,
    attempt_of_clear intact running idle range clear true⟩

/-- Registers that have their place in memory can be stored and loaded. -/
theorem clear_of_inside (intact : machine.Intact)
    (room : Layout.InProgram (machine.programCounter + 2))
    (transfers : instruction.operation = .storeRegisters ∨ instruction.operation = .loadRegisters)
    (operand : instruction.x = x.val)
    (inside : 0 ≤ machine.index ∧ machine.index + x.val ≤ 0xFFF) :
    machine.obstacle? instruction = none := by
  have present : machine.memory.missing? machine.index (instruction.x + 1) = none := by
    rw [Memory.missing?_eq_none_iff, intact.memory, operand]
    unfold Layout.memorySize
    omega
  have unhindered : machine.hindrance? instruction = none := by
    rcases transfers with same | same <;>
      rw [hindrance?, same] <;> exact Option.map_eq_none_iff.mpr present
  rw [obstacle?, unhindered, leaving?_eq_none_iff.mpr room, ite_self]
  rfl

/-- Two registers stored at the bottom of memory and loaded back. -/
theorem storing_loading_inverse_pair :
    let dialect := Dialect.ofChoices none none none none
    let byte := Instruction.ofFields .loadByte 0x612A
    ∃ new stored after, boot none none dialect (fun _ => 0) = .ok new ∧
      let machine := new.actAll [.execute byte true]
      machine.Does .storeRegisters 1 stored ∧ stored.Does .loadRegisters 1 after ∧
        stored.memory.byteAt 1 = 0x2A ∧ after.registers.get 1 = 0x2A := by
  intro dialect byte
  let new := booted Pace.standard dialect (fun _ => 0) []
  have built : boot none none dialect (fun _ => 0) = .ok new := boot_blank _ _
  have intact : new.Intact := intact_booted _ _ _ _
  let machine := new.retired byte
  have reached : machine = new.actAll [.execute byte true] :=
    (act_of_clear intact rfl rfl (Instruction.inRange_ofFields _ _) rfl true).symm
  have intact' : machine.Intact := reached ▸ intact.actAll _
  let store := Instruction.ofFields .storeRegisters 0xF155
  let load := Instruction.ofFields .loadRegisters 0xF165
  have stores : machine.Does .storeRegisters 1 (machine.retired store) :=
    does_of_clear intact' rfl rfl (Instruction.inRange_ofFields _ _) rfl
      (clear_of_inside (x := 1) intact' (show Layout.InProgram 0x204 by decide) (.inl rfl) rfl
        (show (0 : Int) ≤ 0 ∧ (0 : Int) + 1 ≤ 0xFFF by decide))
  have loads :
      (machine.retired store).Does .loadRegisters 1 ((machine.retired store).retired load) :=
    does_of_clear (stores.intact intact') rfl rfl (Instruction.inRange_ofFields _ _) rfl
      (clear_of_inside (x := 1) (stores.intact intact') (show Layout.InProgram 0x206 by decide)
        (.inr rfl) rfl (show (0 : Int) ≤ 0 ∧ (0 : Int) + 1 ≤ 0xFFF by decide))
  have transfers := storing_loading_inverse built _ reached
  have dumped := (transfers.stores _ _ stores).bytes 1 (Nat.le_refl 1)
  have restored := (transfers.restores 1 _ [] _ _ stores .nil
    (fun _ absent => absurd absent List.not_mem_nil) rfl loads).1 1 (Nat.le_refl 1)
  exact ⟨new, _, _, built, reached ▸ stores, loads, dumped, restored⟩

end Machine

end Chip8
