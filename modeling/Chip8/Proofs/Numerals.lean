/-
This file proves that a number can be read back from the way it is written.

Padding does not come in the way: the zeros in front of a numeral do not change
its value, and since the width counts the sign, negative numbers keep apart from
the others by their sign alone. A numeral is made of digits, so it holds none of
the characters that stand between numerals in a line of text.
-/

import Mathlib.Data.List.Basic
import Chip8.Hex

namespace Chip8.Hex

/-- What a digit is worth. -/
def worth (digit : Char) : Nat :=
  if digit.isDigit then digit.toNat - 48 else digit.toNat - 87

/-- The number that digits stand for. -/
def valueOf (text : List Char) : Nat :=
  text.foldl (fun value digit => 16 * value + worth digit) 0

theorem worth_digitChar : ∀ value < 16, worth (Nat.digitChar value) = value := by
  decide

theorem valueOf_concat (text : List Char) (digit : Char) :
    valueOf (text ++ [digit]) = 16 * valueOf text + worth digit :=
  List.foldl_concat _ _ _ _

theorem valueOf_digits (value : Nat) : valueOf (digits value) = value := by
  induction value using Nat.strongRecOn with
  | ind value inductionHypothesis =>
    unfold digits at inductionHypothesis ⊢
    by_cases small : value < 16
    · rw [Nat.toDigits_of_lt_base small]
      show 16 * 0 + worth (Nat.digitChar value) = value
      rw [worth_digitChar value small, Nat.mul_zero, Nat.zero_add]
    · rw [Nat.toDigits_of_base_le (by decide) (by omega), valueOf_concat,
        inductionHypothesis (value / 16) (by omega),
        worth_digitChar (value % 16) (Nat.mod_lt _ (by decide))]
      exact Nat.div_add_mod value 16

theorem valueOf_padded (width : Nat) (text : List Char) :
    valueOf (padded width text) = valueOf text := by
  unfold padded
  generalize width - text.length = zeros
  induction zeros with
  | zero => rfl
  | succ zeros inductionHypothesis => exact inductionHypothesis

/-- Padded to at least two digits, a number ends in its last digit. -/
theorem padded_digits {width : Nat} (more : 0 < width) (value : Nat) :
    padded (width + 1) (digits value) =
      padded width (digits (value / 0x10)) ++ [Nat.digitChar (value % 0x10)] := by
  unfold padded digits
  by_cases small : value < 0x10
  · obtain ⟨width, rfl⟩ := Nat.exists_eq_succ_of_ne_zero (Nat.ne_of_gt more)
    rw [Nat.toDigits_of_lt_base small, Nat.div_eq_of_lt small, Nat.mod_eq_of_lt small,
      Nat.toDigits_of_lt_base (by decide)]
    show List.replicate (width + 1) '0' ++ _ = (List.replicate width '0' ++ ['0']) ++ _
    rw [List.replicate_succ']
  · rw [Nat.toDigits_of_base_le (by decide) (by omega), List.length_append, List.append_assoc,
      List.length_singleton, Nat.add_sub_add_right]

theorem padded_digit {value : Nat} (small : value < 0x10) :
    padded 1 (digits value) = [Nat.digitChar value] := by
  rw [digits, Nat.toDigits_of_lt_base small]
  rfl

theorem mem_digits {value : Nat} {char : Char} (member : char ∈ digits value) :
    ∃ digit < 16, char = Nat.digitChar digit := by
  induction value using Nat.strongRecOn with
  | ind value inductionHypothesis =>
    unfold digits at inductionHypothesis member
    by_cases small : value < 16
    · rw [Nat.toDigits_of_lt_base small] at member
      exact ⟨value, small, List.mem_singleton.mp member⟩
    · rw [Nat.toDigits_of_base_le (by decide) (by omega)] at member
      rcases List.mem_append.mp member with leading | last
      · exact inductionHypothesis (value / 16) (by omega) leading
      · exact ⟨value % 16, Nat.mod_lt _ (by decide), List.mem_singleton.mp last⟩

theorem mem_padded {width value : Nat} {char : Char}
    (member : char ∈ padded width (digits value)) : ∃ digit < 16, char = Nat.digitChar digit := by
  rcases List.mem_append.mp member with zero | digit
  · exact ⟨0, by decide, List.eq_of_mem_replicate zero⟩
  · exact mem_digits digit

/-- The characters that numerals are made of. -/
theorem mem_chars {width : Nat} {value : Int} {char : Char} (member : char ∈ chars width value) :
    char = '-' ∨ ∃ digit < 16, char = Nat.digitChar digit := by
  unfold chars at member
  split at member
  · rcases List.mem_cons.mp member with sign | digit
    · exact .inl sign
    · exact .inr (mem_padded digit)
  · exact .inr (mem_padded member)

/-- A character that is neither a sign nor a digit is in no numeral. -/
theorem not_mem_chars {char : Char} (sign : char ≠ '-')
    (digit : ∀ value < 16, char ≠ Nat.digitChar value) (width : Nat) (value : Int) :
    char ∉ chars width value := by
  intro member
  rcases mem_chars member with minus | ⟨value, small, same⟩
  · exact sign minus
  · exact digit value small same

theorem chars_injective (width : Nat) : Function.Injective (chars width) := by
  have unsigned (value : Nat) (text : List Char) : padded width (digits value) ≠ '-' :: text := by
    intro same
    have member : '-' ∈ padded width (digits value) := same ▸ List.mem_cons_self
    obtain ⟨digit, small, sign⟩ := mem_padded member
    revert digit
    decide
  have reads {width value other : Nat}
      (same : padded width (digits value) = padded width (digits other)) : value = other := by
    have worth := congrArg valueOf same
    rwa [valueOf_padded, valueOf_padded, valueOf_digits, valueOf_digits] at worth
  intro value other same
  unfold chars at same
  split at same
  · split at same
    · have magnitude := reads (List.tail_eq_of_cons_eq same)
      omega
    · exact absurd same.symm (unsigned _ _)
  · split at same
    · exact absurd same (unsigned _ _)
    · have magnitude := reads same
      omega

end Chip8.Hex
