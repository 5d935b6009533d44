/-
This file says what looking something up and storing something come to in the
register file and in memory.

A number that names a register reads and stores one byte, a number that names
none is refused. A block of memory either exists as a whole, and then reading it
gives its bytes, or has a first address that does not exist, and then the refusal
names that address. Laying a block over memory is laying its bytes one after the
other, and what a block laid over all of memory leaves is the block.
-/

import Chip8.Memory
import Chip8.Registers

namespace Chip8

/-! ### Registers by number -/

namespace Registers

/-- Whether a number names a register. -/
def Names (number : Int) : Prop :=
  (index? number).isSome = true

instance (number : Int) : Decidable (Names number) :=
  inferInstanceAs (Decidable (_ = true))

/-- The byte in the register a number names, zero if it names none. -/
def value (registers : Registers) (number : Int) : UInt8 :=
  ((index? number).map registers.get).getD 0

/-- Registers with a byte in the register a number names, if it names one. -/
def assign (registers : Registers) (number : Int) (byte : UInt8) : Registers :=
  (index? number).elim registers fun index => registers.set index byte

/-- The bytes of `count` registers from one on. -/
def block (registers : Registers) (start count : Nat) : List UInt8 :=
  (List.range' start count).map fun number => registers.value (number : Nat)

theorem names_of_lt {number : Int} (nonneg : 0 ≤ number) (small : number < 16) : Names number := by
  rw [Names, index?, dif_pos ⟨nonneg, Int.le_of_lt_add_one small⟩]
  rfl

theorem assign_natCast (registers : Registers) (index : Fin 16) (byte : UInt8) :
    registers.assign (index : Nat) byte = registers.set index byte := by
  rw [assign, index?_natCast]
  rfl

theorem read_of_names (registers : Registers) {number : Int} (named : Names number) :
    registers.read number = .ok (registers.value number) := by
  obtain ⟨index, found⟩ := Option.isSome_iff_exists.mp named
  simp only [read, value, found]
  rfl

theorem read_of_not_names (registers : Registers) {number : Int} (unnamed : ¬ Names number) :
    registers.read number = .error (.noSuchRegister number) := by
  have missing : index? number = none := by simpa [Names] using unnamed
  simp only [read, missing]
  rfl

theorem store_of_names (registers : Registers) {number : Int} (named : Names number)
    (byte : UInt8) : registers.store number byte = .ok (registers.assign number byte) := by
  obtain ⟨index, found⟩ := Option.isSome_iff_exists.mp named
  simp only [store, assign, found]
  rfl

theorem store_of_not_names (registers : Registers) {number : Int} (unnamed : ¬ Names number)
    (byte : UInt8) : registers.store number byte = .error (.noSuchRegister number) := by
  have missing : index? number = none := by simpa [Names] using unnamed
  simp only [store, missing]
  rfl

theorem write_of_names (registers : Registers) {number : Int} (named : Names number)
    (value : Int) :
    registers.write number value =
      (orTrap .notAByte (Byte.ofInt? value)).map fun byte => registers.assign number byte := by
  obtain ⟨index, found⟩ := Option.isSome_iff_exists.mp named
  simp only [write, assign, found]
  cases Byte.ofInt? value <;> rfl

theorem write_of_not_names (registers : Registers) {number : Int} (unnamed : ¬ Names number)
    (value : Int) : registers.write number value = .error (.noSuchRegister number) := by
  have missing : index? number = none := by simpa [Names] using unnamed
  simp only [write, missing]
  rfl

theorem block_succ (registers : Registers) (start count : Nat) :
    registers.block start (count + 1) =
      registers.value (start : Nat) :: registers.block (start + 1) count := rfl

end Registers

theorem Byte.ofInt?_of_fits {value : Int} (fits : 0 ≤ value ∧ value ≤ 255) :
    ofInt? value = some (low value) := by
  have same : value % 256 = value := Int.emod_eq_of_lt fits.1 (by omega)
  rw [ofInt?, if_pos fits, low, same]

/-- A byte made of an integer that fits is the integer's low byte. -/
theorem Byte.eq_low_of_ofInt? {value : Int} {byte : UInt8} (fits : ofInt? value = some byte) :
    byte = low value := by
  by_cases bounds : 0 ≤ value ∧ value ≤ 255
  · rw [ofInt?_of_fits bounds] at fits
    exact (Option.some.inj fits).symm
  · rw [ofInt?, if_neg bounds] at fits
    cases fits

/-! ### Blocks of memory -/

namespace Memory

/-- The first address of a block that does not exist. -/
def missing? (memory : Memory) (location count : Int) : Option Int :=
  if location < 0 then some location
  else if (memory.size : Int) < location + count then some (max location memory.size)
  else none

theorem missing?_eq_none_iff {memory : Memory} {location count : Int} :
    memory.missing? location count = none ↔ 0 ≤ location ∧ location + count ≤ memory.size := by
  unfold missing?
  split
  · simp only [reduceCtorEq, false_iff]
    omega
  · split
    · simp only [reduceCtorEq, false_iff]
      omega
    · simp only [true_iff]
      omega

theorem check_of_missing {memory : Memory} {location count address : Int}
    (missing : memory.missing? location count = some address) :
    memory.check location count = .error (.fault (.outOfMemory address)) := by
  unfold missing? at missing
  unfold check
  split at missing
  · next negative => rw [if_pos negative, Option.some.inj missing]
  · next nonneg =>
    split at missing
    · next beyond => rw [if_neg nonneg, if_pos beyond, Option.some.inj missing]
    · cases missing

theorem check_of_present {memory : Memory} {location count : Int}
    (present : memory.missing? location count = none) : memory.check location count = .ok () :=
  check_eq_ok_iff.mpr (missing?_eq_none_iff.mp present)

theorem readBlock_of_missing {memory : Memory} {location count address : Int}
    (missing : memory.missing? location count = some address) :
    memory.readBlock location count = .error (.fault (.outOfMemory address)) := by
  rw [readBlock, check_of_missing missing]
  rfl

theorem readBlock_of_present {memory : Memory} {location count : Int}
    (present : memory.missing? location count = none) :
    memory.readBlock location count = .ok (memory.slice location (location + count)) := by
  rw [readBlock, check_of_present present]
  rfl

theorem slice_of_readBlock {memory : Memory} {location count : Int} {block : List UInt8}
    (read : memory.readBlock location count = .ok block) :
    block = memory.slice location (location + count) := by
  cases missing : memory.missing? location count with
  | some address =>
    rw [readBlock_of_missing missing] at read
    cases read
  | none =>
    rw [readBlock_of_present missing] at read
    cases read
    rfl

/-- A block that exists is read byte by byte. -/
theorem slice_eq_map {memory : Memory} {location count : Int} (nonneg : 0 ≤ count)
    (present : memory.missing? location count = none) :
    memory.slice location (location + count) =
      (List.range count.toNat).map fun (offset : Nat) => memory.byteAt (location + offset) := by
  obtain ⟨start, inside⟩ := missing?_eq_none_iff.mp present
  have bound : location + count ≤ (memory.cells.size : Int) := inside
  have first : memory.cellOf location = location.toNat := by rw [cellOf, if_neg (by omega)]
  have last : memory.cellOf (location + count) = location.toNat + count.toNat := by
    rw [cellOf, if_neg (by omega)]
    omega
  rw [slice, first, last]
  refine List.ext_getElem ?_ fun offset inSlice inRange => ?_
  · rw [Array.length_toList, Array.size_extract, List.length_map, List.length_range]
    omega
  · rw [List.length_map, List.length_range] at inRange
    have place : (location + offset).toNat = location.toNat + offset := by omega
    rw [List.getElem_map, List.getElem_range, byteAt, if_neg (by omega), Array.getElem_toList,
      Array.getElem_extract, place]
    exact Array.getElem_eq_getD 0

theorem length_slice {memory : Memory} {location count : Int} (nonneg : 0 ≤ count)
    (present : memory.missing? location count = none) :
    (memory.slice location (location + count)).length = count.toNat := by
  rw [slice_eq_map nonneg present, List.length_map, List.length_range]

theorem store_of_present {memory : Memory} {location : Int} (byte : UInt8)
    (present : memory.missing? location 1 = none) :
    memory.store location byte = .ok (memory.place location [byte]) := by
  rw [store, check_of_present present]
  rfl

theorem size_of_writeBlock {memory after : Memory} {location : Int} {block : List UInt8}
    (written : memory.writeBlock location block = .ok after) : after.size = memory.size := by
  rw [writeBlock] at written
  cases missing : memory.missing? location block.length with
  | some address =>
    rw [check_of_missing missing] at written
    cases written
  | none =>
    rw [check_of_present missing] at written
    cases written
    exact size_place _ _ _

/-- A program is loaded where there is room for it. -/
theorem loadRom_eq (memory : Memory) (rom : List UInt8) :
    memory.loadRom rom =
      if (rom.length : Int) ≤ memory.room then .ok (memory.place Layout.programStart rom)
      else .error (.fault (.romTooLarge rom.length memory.room)) := by
  rw [loadRom]
  by_cases fits : (rom.length : Int) ≤ memory.room
  · have present : memory.missing? Layout.programStart rom.length = none := by
      rw [missing?_eq_none_iff]
      unfold room at fits
      refine ⟨by decide, by omega⟩
    rw [if_pos fits, if_neg (by omega), writeBlock, check_of_present present]
    rfl
  · rw [if_neg fits, if_pos (by omega)]
    rfl

theorem size_of_loadRom {memory after : Memory} {rom : List UInt8}
    (loaded : memory.loadRom rom = .ok after) : after.size = memory.size := by
  rw [loadRom_eq] at loaded
  split at loaded
  · cases loaded
    exact size_place _ _ _
  · cases loaded

theorem place_nil (memory : Memory) (location : Int) : memory.place location [] = memory := rfl

/-- A block is laid byte by byte. -/
theorem place_cons (memory : Memory) {location : Int} (nonneg : 0 ≤ location) (byte : UInt8)
    (rest : List UInt8) :
    memory.place location (byte :: rest) =
      (memory.place location [byte]).place (location + 1) rest := by
  have next : (location + 1).toNat = location.toNat + 1 := by omega
  simp only [place, overlay, next]

theorem byteAt_place (memory : Memory) {location : Int} (block : List UInt8)
    (nonneg : 0 ≤ location) (inside : location + block.length ≤ memory.size) (address : Int) :
    (memory.place location block).byteAt address =
      if location ≤ address ∧ address < location + block.length then
        block.getD (address - location).toNat 0
      else memory.byteAt address := by
  have room : location.toNat + block.length ≤ memory.cells.size := by
    have size : (memory.size : Int) = memory.cells.size := rfl
    omega
  unfold byteAt place
  by_cases negative : address < 0
  · rw [if_pos negative, if_pos negative, if_neg (by omega)]
  · rw [if_neg negative, if_neg negative, getD_overlay _ _ _ _ room]
    by_cases under : location ≤ address ∧ address < location + block.length
    · rw [if_pos under, if_pos (by omega), show address.toNat - location.toNat =
        (address - location).toNat by omega]
    · rw [if_neg under, if_neg (by omega)]

/-- A block as long as memory leaves nothing of what was there. -/
theorem place_whole (memory : Memory) (block : List UInt8) (whole : block.length = memory.size) :
    memory.place 0 block = ⟨block.toArray⟩ := by
  refine congrArg Memory.mk (Array.ext ?_ fun index inside outside => ?_)
  · rw [size_overlay, List.size_toArray]
    exact whole.symm
  · have room : 0 + block.length ≤ memory.cells.size := by
      rw [whole, Nat.zero_add]
      exact Nat.le_refl _
    have length : index < block.length := by simpa using outside
    have covered := getD_overlay memory.cells 0 block index room
    rw [if_pos ⟨Nat.zero_le _, by omega⟩, Nat.sub_zero] at covered
    rw [Array.getElem_eq_getD 0, Int.toNat_zero, covered, List.getElem_toArray,
      List.getD_eq_getElem?_getD, List.getElem?_eq_getElem length, Option.getD_some]

theorem zeroBlock_eq (memory : Memory) (location : Int) {count : Int} (nonneg : 0 ≤ count) :
    memory.zeroBlock location count = (memory.check location count).map fun _ =>
      memory.place location (List.replicate count.toNat 0) := by
  rw [zeroBlock, if_neg (by omega)]
  cases memory.check location count <;> rfl

theorem zeroBlock_of_present {memory : Memory} {location count : Int} (nonneg : 0 ≤ count)
    (present : memory.missing? location count = none) :
    memory.zeroBlock location count =
      .ok (memory.place location (List.replicate count.toNat 0)) := by
  rw [zeroBlock_eq memory location nonneg, check_of_present present]
  rfl

/-- Clearing is never refused. -/
theorem clear_eq_ok (memory : Memory) : memory.clear = .ok (blank memory.size) := by
  have present : memory.missing? 0 memory.size = none := missing?_eq_none_iff.mpr (by omega)
  rw [clear, zeroBlock_of_present (by omega) present, Int.toNat_natCast,
    place_whole _ _ (List.length_replicate ..), List.toArray_replicate]
  rfl

end Memory

end Chip8
