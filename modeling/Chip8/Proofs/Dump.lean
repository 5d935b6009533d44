/-
This file proves that the report of a crash loses nothing.

The report begins as the line of the machine does, and goes on with what that
line leaves out: the open calls and the count of cycles. Each stands on a line of
its own. An empty stack has a remark of its own that no list of addresses is
written like, and a count is written in decimal.
-/

import Chip8.Proofs.Counts
import Chip8.Proofs.Telling

namespace Chip8.Report

variable {snapshot other : Snapshot}

/-! ### The open calls -/

/-- The addresses of a stack as they are written. -/
def addressChars (stack : List Int) : List Char :=
  stack.flatMap fun address => ' ' :: ("0x".toList ++ Hex.chars 3 address)

theorem addressChars_injective : Function.Injective addressChars := by
  intro stack stack' same
  have written : Function.Injective fun address : Int => "0x".toList ++ Hex.chars 3 address :=
    fun _ _ same => Hex.chars_injective 3 (List.append_cancel_left same)
  have oneWord (address : Int) : ' ' ∉ "0x".toList ++ Hex.chars 3 address :=
    List.not_mem_append (by decide) (Hex.blank_not_mem_chars _ _)
  exact (append_flatMap_inj written oneWord List.not_mem_nil List.not_mem_nil same).2

theorem not_mem_addressChars {char : Char} (foreign : Foreign char) (stack : List Int) :
    char ∉ addressChars stack := by
  intro member
  obtain ⟨address, -, place⟩ := List.mem_flatMap.mp member
  have absent := foreign.not_mem_chars 3 address
  rcases foreign with rfl | rfl <;> simp [absent] at place

theorem toList_stackText (stack : List Int) :
    (stackText stack).toList = if stack = [] then " (Empty)".toList else addressChars stack := by
  cases stack with
  | nil => rfl
  | cons address stack =>
    rw [stackText, if_neg (by simp), if_neg (List.cons_ne_nil _ _), String.toList_join,
      List.flatMap_map, addressChars]
    simp only [Effect.toList_append_lower]
    rfl

theorem stackText_inj {stack stack' : List Int}
    (same : (stackText stack).toList = (stackText stack').toList) : stack = stack' := by
  have opens {stack : List Int} : '(' ∈ (stackText stack).toList ↔ stack = [] := by
    have absent := not_mem_addressChars (.inl rfl) stack
    rw [toList_stackText]
    split <;> simp [*]
  have empty : stack = [] ↔ stack' = [] := by rw [← opens, same, opens]
  rw [toList_stackText, toList_stackText] at same
  by_cases none : stack = []
  · rw [none, empty.mp none]
  · rw [if_neg none, if_neg (mt empty.mpr none)] at same
    exact addressChars_injective same

theorem line_end_not_mem_stackText (stack : List Int) : '\n' ∉ (stackText stack).toList := by
  have absent := not_mem_addressChars (.inr rfl) stack
  rw [toList_stackText]
  split
  · decide
  · exact absent

/-! ### The whole report -/

/-- A report, character by character. -/
def crashChars (snapshot : Snapshot) : List Char :=
  numberChars snapshot ((snapshot.mnemonic.toList ++ remark snapshot.waiting) ++ '\n' ::
    ("Stack:".toList ++ ((stackText snapshot.stack).toList ++ '\n' ::
    ("Cycles: ".toList ++ (toString snapshot.cycles).toList))))

theorem toList_crash (snapshot : Snapshot) : (crash snapshot).toList = crashChars snapshot := by
  simp only [crash, String.toList_append, toList_stateLine, stateChars, crashChars, numberChars,
    List.append_assoc, List.cons_append]
  rfl

/-- A snapshot whose mnemonic is unmarked, and whose count of cycles is a count. -/
structure Plain (snapshot : Snapshot) : Prop where
  mnemonic : Unmarked snapshot.mnemonic
  cycles : 0 ≤ snapshot.cycles

theorem plain_snapshot (machine : Machine) : Plain machine.snapshot where
  mnemonic := unmarked_mnemonic machine
  cycles := Int.natCast_nonneg machine.cycles

/-- A count can be read off its decimal text. -/
theorem toString_inj {count other : Int} (nonneg : 0 ≤ count) (nonneg' : 0 ≤ other)
    (same : (toString count).toList = (toString other).toList) : count = other := by
  obtain ⟨count, rfl⟩ := Int.eq_ofNat_of_zero_le nonneg
  obtain ⟨other, rfl⟩ := Int.eq_ofNat_of_zero_le nonneg'
  have digits (count : Nat) : (toString (count : Int)).toList = Nat.toDigits 10 count :=
    Nat.toList_repr
  rw [digits, digits] at same
  exact congrArg Int.ofNat (Figures.toDigits_inj same)

/-- A report gives back all that is in a snapshot. -/
theorem crash_inj (plain : Plain snapshot) (plain' : Plain other)
    (same : crash snapshot = crash other) : snapshot = other := by
  have chars := congrArg String.toList same
  rw [toList_crash, toList_crash] at chars
  obtain ⟨registers, index, delay, sound, programCounter, opcode, chars⟩ := numberChars_inj chars
  obtain ⟨told, chars⟩ := Effect.append_cons_inj (line_end_not_mem_remark plain.mnemonic _)
    (line_end_not_mem_remark plain'.mnemonic _) chars
  obtain ⟨mnemonic, waiting⟩ := remark_inj plain.mnemonic plain'.mnemonic told
  obtain ⟨written, chars⟩ := Effect.append_cons_inj (line_end_not_mem_stackText _)
    (line_end_not_mem_stackText _) (List.append_cancel_left chars)
  have stack := stackText_inj written
  have cycles := toString_inj plain.cycles plain'.cycles (List.append_cancel_left chars)
  obtain ⟨_, _, _, _, _, _, _, _, _, _⟩ := snapshot
  obtain ⟨_, _, _, _, _, _, _, _, _, _⟩ := other
  simp only [Snapshot.mk.injEq]
  exact ⟨registers, index, programCounter, stack, delay, sound, opcode, mnemonic, waiting, cycles⟩

/-- Two machines whose reports after a crash are the same, whatever programs they ran and whatever
else was asked of them, are the same in all that a snapshot shows, and a snapshot shows a machine
in every part. -/
theorem crash_lossless (machine other : Machine) :
    (state machine.snapshot true = state other.snapshot true ↔
        machine.snapshot = other.snapshot) ∧
      machine.Depicted machine.snapshot ∧ other.Depicted other.snapshot :=
  ⟨⟨crash_inj (plain_snapshot machine) (plain_snapshot other), congrArg (state · true)⟩,
    Machine.depicted_snapshot machine, Machine.depicted_snapshot other⟩

end Chip8.Report
