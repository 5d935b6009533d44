/-
This file is the machine's memory: a fixed number of bytes, addressed by
integers, every access checked against its ends.

A block of `count` bytes at a location may be touched when the location is not
negative and the block ends inside memory. Otherwise the access is refused, and
the refusal names the first address that does not exist: the location itself if
it is negative or lies past the end, the size of memory if the block runs over
it. The check comes before anything is read or written, so a refused access has
changed nothing.

The view of a memory is `byteAt`, the byte at an address and zero where there is
none; each writing operation below is pinned down by what it does to that view.
-/

import Chip8.Byte
import Chip8.Fault
import Chip8.Layout

namespace Chip8

structure Memory where
  cells : Array UInt8
  deriving DecidableEq

namespace Memory

/-! ### Extent and view -/

def size (memory : Memory) : Nat :=
  memory.cells.size

/-- Memory of a size with every byte zero. -/
def blank (size : Nat) : Memory :=
  ⟨Array.replicate size 0⟩

/-- Memory of this size or more is not to be had. -/
def sizeLimit : Int := 0x1000000000

/-- Memory of a requested size, which must not be negative or too large. -/
def ofSize (size : Int) : Except Trap Memory :=
  if size < 0 then .error (.negativeCount size)
  else if sizeLimit ≤ size then .error (.memoryTooLarge size)
  else .ok (blank size.toNat)

/-- The byte at an address, zero outside memory. -/
def byteAt (memory : Memory) (address : Int) : UInt8 :=
  if address < 0 then 0 else memory.cells.getD address.toNat 0

/-- Whether a block may be touched. -/
def check (memory : Memory) (location count : Int) : Except Trap Unit :=
  if location < 0 then .error (.fault (.outOfMemory location))
  else if (memory.size : Int) < location + count then
    .error (.fault (.outOfMemory (max location memory.size)))
  else .ok ()

/-! ### Reading -/

def read (memory : Memory) (location : Int) : Except Trap UInt8 := do
  memory.check location 1
  return memory.byteAt location

/-- The cell a position means. A negative position counts back from the end of memory, at most
to its start. -/
def cellOf (memory : Memory) (position : Int) : Nat :=
  (if position < 0 then position + memory.size else position).toNat

/-- The bytes from one position up to another; positions past the end mean the end. -/
def slice (memory : Memory) (start stop : Int) : List UInt8 :=
  (memory.cells.extract (memory.cellOf start) (memory.cellOf stop)).toList

/-- The `count` bytes at a location. -/
def readBlock (memory : Memory) (location count : Int) : Except Trap (List UInt8) := do
  memory.check location count
  return memory.slice location (location + count)

/-! ### Writing -/

/-- Cells with a block laid over them from an index on. -/
def overlay (cells : Array UInt8) (start : Nat) : List UInt8 → Array UInt8
  | [] => cells
  | byte :: rest => overlay (cells.setIfInBounds start byte) (start + 1) rest

/-- Memory with a block laid over it. -/
def place (memory : Memory) (location : Int) (block : List UInt8) : Memory :=
  ⟨overlay memory.cells location.toNat block⟩

/-- Stores one byte. -/
def store (memory : Memory) (location : Int) (byte : UInt8) : Except Trap Memory := do
  memory.check location 1
  return memory.place location [byte]

/-- Stores an integer that must fit in a byte; the location is checked first. -/
def write (memory : Memory) (location value : Int) : Except Trap Memory := do
  memory.check location 1
  let byte ← orTrap .notAByte (Byte.ofInt? value)
  return memory.place location [byte]

def writeBlock (memory : Memory) (location : Int) (block : List UInt8) : Except Trap Memory := do
  memory.check location block.length
  return memory.place location block

def zeroBlock (memory : Memory) (location count : Int) : Except Trap Memory := do
  memory.check location count
  if count < 0 then throw (.negativeCount count)
  return memory.place location (List.replicate count.toNat 0)

def clear (memory : Memory) : Except Trap Memory :=
  memory.zeroBlock 0 memory.size

/-- Puts the digit glyphs at their place. -/
def loadGlyphs (memory : Memory) : Except Trap Memory :=
  memory.writeBlock Layout.glyphStart Layout.glyphs

/-- The bytes between the start of programs and the end of memory; negative if memory ends
below it. -/
def room (memory : Memory) : Int :=
  memory.size - Layout.programStart

/-- Puts a program at its start, if there is room for it. -/
def loadRom (memory : Memory) (rom : List UInt8) : Except Trap Memory := do
  if memory.room < rom.length then throw (.fault (.romTooLarge rom.length memory.room))
  memory.writeBlock Layout.programStart rom

/-! ### What writing leaves -/

theorem size_overlay (cells : Array UInt8) (start : Nat) (block : List UInt8) :
    (overlay cells start block).size = cells.size := by
  induction block generalizing cells start with
  | nil => rfl
  | cons byte rest inductionHypothesis =>
    rw [overlay, inductionHypothesis, Array.size_setIfInBounds]

theorem size_place (memory : Memory) (location : Int) (block : List UInt8) :
    (memory.place location block).size = memory.size :=
  size_overlay _ _ _

theorem size_blank (size : Nat) : (blank size).size = size := by
  simp [blank, Memory.size]

theorem check_eq_ok_iff {memory : Memory} {location count : Int} :
    memory.check location count = .ok () ↔
      0 ≤ location ∧ location + count ≤ memory.size := by
  unfold check
  split
  · simp only [reduceCtorEq, false_iff]
    omega
  · split
    · simp only [reduceCtorEq, false_iff]
      omega
    · simp only [true_iff]
      omega

/-- A cell under the block holds the block's byte, any other its own. -/
theorem getD_overlay (cells : Array UInt8) (start : Nat) (block : List UInt8) (index : Nat)
    (inside : start + block.length ≤ cells.size) :
    (overlay cells start block).getD index 0 =
      if start ≤ index ∧ index < start + block.length then block.getD (index - start) 0
      else cells.getD index 0 := by
  induction block generalizing cells start with
  | nil =>
    rw [overlay, if_neg]
    simp only [List.length_nil]
    omega
  | cons byte rest inductionHypothesis =>
    simp only [List.length_cons] at inside ⊢
    rw [overlay, inductionHypothesis _ _ (by rw [Array.size_setIfInBounds]; omega)]
    by_cases under : start + 1 ≤ index ∧ index < start + 1 + rest.length
    · rw [if_pos under, if_pos (by omega),
        show index - start = (index - (start + 1)) + 1 by omega, List.getD_cons_succ]
    · rw [if_neg under]
      by_cases same : index = start
      · subst same
        rw [if_pos (by omega), Nat.sub_self, List.getD_cons_zero]
        simp [Array.getD, show index < cells.size by omega]
      · rw [if_neg (by omega)]
        simp only [Array.getD_eq_getD_getElem?]
        rw [Array.getElem?_setIfInBounds_ne (Ne.symm same)]

theorem byteAt_blank (size : Nat) (address : Int) : (blank size).byteAt address = 0 := by
  unfold byteAt blank
  split
  · rfl
  · simp only [Array.getD_eq_getD_getElem?, Array.getElem?_replicate]
    split <;> rfl

end Memory

end Chip8
