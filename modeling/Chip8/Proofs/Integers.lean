/-
This file says how an integer is written in a setting, and proves that just what
is written so is read.

There may be blanks on both sides, and a sign; then come the digits, of any
script and with a single underscore between two of them, if at all. What the
digits are worth depends on their places alone, so leading zeros make another
text of the same number, but not another number. The blanks can be taken off
without regard to the rest, because no sign, digit or underscore is one.
-/

import Mathlib.Data.List.Basic
import Mathlib.Data.List.Induction
import Mathlib.Data.List.TakeWhile
import Mathlib.Data.Nat.Digits.Defs
import Chip8.Text.Integer

namespace Chip8.Text

/-- Digits one after the other, or parted by single underscores, and what each is worth. -/
inductive Digits : List Char → List Nat → Prop
  | last {char : Char} {digit : Nat} (worth : digitValue? char = some digit) :
      Digits [char] [digit]
  | adjacent {char : Char} {digit : Nat} {run : List Char} {digits : List Nat}
      (worth : digitValue? char = some digit) (rest : Digits run digits) :
      Digits (char :: run) (digit :: digits)
  | parted {char : Char} {digit : Nat} {run : List Char} {digits : List Nat}
      (worth : digitValue? char = some digit) (rest : Digits run digits) :
      Digits (char :: '_' :: run) (digit :: digits)

/-- A sign, or none, and what the digits behind it are multiplied by. -/
inductive Signs : List Char → Int → Prop
  | none : Signs [] 1
  | plus : Signs ['+'] 1
  | minus : Signs ['-'] (-1)

/-- How an integer is written. The digits are worth what they are in their places, the last of them
units. -/
inductive Spells : List Char → Int → Prop
  | intro {before sign run after : List Char} {unit : Int} {digits : List Nat}
      (leading : ∀ char ∈ before, isBlank char) (signed : Signs sign unit)
      (spelled : Digits run digits) (few : digits.length ≤ digitLimit)
      (trailing : ∀ char ∈ after, isBlank char) :
      Spells (before ++ (sign ++ run) ++ after) (unit * (Nat.ofDigits 10 digits.reverse : Nat))

variable {text run : List Char} {digits : List Nat} {char : Char} {digit : Nat} {value : Int}

/-! ### Digits -/

/-- No digit is anything else that an integer is written with. -/
theorem notMem_of_digit (worth : digitValue? char = some digit) : char ∉ ['_', '+', '-'] := by
  intro member
  simp only [List.mem_cons, List.not_mem_nil, or_false] at member
  rcases member with rfl | rfl | rfl
  all_goals cases worth

theorem not_isBlank_of_digit (worth : digitValue? char = some digit) : ¬ isBlank char := by
  have apart : ∀ start ∈ digitZeros, ∀ run ∈ blankRuns, start + 10 ≤ run.1 ∨ run.2 < start := by
    decide
  obtain ⟨start, found, -⟩ := Option.map_eq_some_iff.mp worth
  have inside := List.find?_some found
  intro blank
  obtain ⟨run, listed, within⟩ := List.any_eq_true.mp blank
  simp only [Bool.and_eq_true, decide_eq_true_eq] at inside within
  have := apart start (List.mem_of_find?_eq_some found) run listed
  omega

theorem Digits.starts (spelled : Digits run digits) :
    ∃ char rest digit, run = char :: rest ∧ digitValue? char = some digit := by
  cases spelled with
  | last worth | adjacent worth | parted worth => exact ⟨_, _, _, rfl, worth⟩

theorem Digits.ends (spelled : Digits run digits) :
    ∃ front char digit, run = front ++ [char] ∧ digitValue? char = some digit := by
  induction spelled with
  | last worth => exact ⟨[], _, _, rfl, worth⟩
  | adjacent _ _ inductionHypothesis =>
    obtain ⟨front, last, digit, rfl, worth⟩ := inductionHypothesis
    exact ⟨_ :: front, last, digit, rfl, worth⟩
  | parted _ _ inductionHypothesis =>
    obtain ⟨front, last, digit, rfl, worth⟩ := inductionHypothesis
    exact ⟨_ :: '_' :: front, last, digit, rfl, worth⟩

theorem digitRun?_of_digits (spelled : Digits run digits) : digitRun? run = some digits := by
  induction spelled with
  | last worth => simp [digitRun?, worth]
  | adjacent worth rest inductionHypothesis =>
    obtain ⟨next, tail, _, rfl, digit⟩ := rest.starts
    rw [digitRun?.eq_4 _ _ (by simp) fun _ same =>
      notMem_of_digit digit (by simp [(List.cons.inj same).1]),
      worth, inductionHypothesis]
    rfl
  | parted worth rest inductionHypothesis => simp [digitRun?, worth, inductionHypothesis]

theorem digits_of_digitRun? (read : digitRun? run = some digits) : Digits run digits := by
  fun_induction digitRun? run generalizing digits with
  | case1 => cases read
  | case2 char =>
    obtain ⟨digit, worth, rfl⟩ := Option.map_eq_some_iff.mp read
    exact .last worth
  | case3 char rest inductionHypothesis =>
    obtain ⟨digit, worth, read⟩ := Option.bind_eq_some_iff.mp read
    obtain ⟨digits, more, read⟩ := Option.bind_eq_some_iff.mp read
    cases read
    exact .parted worth (inductionHypothesis more)
  | case4 char rest _ _ inductionHypothesis =>
    obtain ⟨digit, worth, read⟩ := Option.bind_eq_some_iff.mp read
    obtain ⟨digits, more, read⟩ := Option.bind_eq_some_iff.mp read
    cases read
    exact .adjacent worth (inductionHypothesis more)

/-- What digits spell is what they are worth in their places. -/
theorem ofDigits_eq (digits : List Nat) : ofDigits digits = Nat.ofDigits 10 digits.reverse := by
  induction digits using List.reverseRecOn with
  | nil => rfl
  | append_singleton digits digit inductionHypothesis =>
    have last : ofDigits (digits ++ [digit]) = 10 * ofDigits digits + digit :=
      List.foldl_concat _ _ _ _
    rw [last, inductionHypothesis, List.reverse_append, List.reverse_singleton,
      List.singleton_append, Nat.ofDigits_cons, Nat.add_comm]

theorem natural?_eq_some_iff {value : Nat} :
    natural? run = some value ↔
      ∃ digits, Digits run digits ∧ digits.length ≤ digitLimit ∧
        value = Nat.ofDigits 10 digits.reverse := by
  constructor
  · intro read
    obtain ⟨digits, spelled, few⟩ := Option.bind_eq_some_iff.mp read
    split at few
    · next small =>
      cases few
      exact ⟨digits, digits_of_digitRun? spelled, small, ofDigits_eq digits⟩
    · cases few
  · rintro ⟨digits, spelled, few, rfl⟩
    unfold natural?
    rw [digitRun?_of_digits spelled, ← ofDigits_eq]
    exact if_pos few

/-! ### Blanks -/

/-- Of a text between blanks, those on both sides are taken off and nothing else. -/
theorem trimBlanks_eq {before core after : List Char} (leading : ∀ char ∈ before, isBlank char)
    (trailing : ∀ char ∈ after, isBlank char) {first last : Char} {front rest : List Char}
    (starts : core = first :: rest) (ends : core = front ++ [last]) (nonblank : ¬ isBlank first)
    (nonblank' : ¬ isBlank last) : trimBlanks (before ++ core ++ after) = core := by
  have trailing : ∀ char ∈ after.reverse, isBlank char :=
    fun char member => trailing char (List.mem_reverse.mp member)
  have kept : (core ++ after).dropWhile isBlank = core ++ after := by
    rw [starts, List.cons_append, List.dropWhile_cons_of_neg nonblank]
  have kept' : core.reverse.dropWhile isBlank = core.reverse := by
    rw [ends, List.reverse_append, List.reverse_singleton, List.singleton_append,
      List.dropWhile_cons_of_neg nonblank']
  rw [trimBlanks, List.append_assoc, List.dropWhile_append_of_pos leading, kept,
    List.reverse_append, List.dropWhile_append_of_pos trailing, kept', List.reverse_reverse]

theorem exists_trimBlanks (text : List Char) :
    ∃ before after, text = before ++ trimBlanks text ++ after ∧
      (∀ char ∈ before, isBlank char) ∧ ∀ char ∈ after, isBlank char := by
  have split := List.takeWhile_append_dropWhile (p := isBlank) (l := text)
  have split' := List.takeWhile_append_dropWhile (p := isBlank)
    (l := (text.dropWhile isBlank).reverse)
  refine ⟨text.takeWhile isBlank, ((text.dropWhile isBlank).reverse.takeWhile isBlank).reverse,
    ?_, fun char => List.mem_takeWhile_imp, fun char member => ?_⟩
  · rw [trimBlanks, List.append_assoc, ← List.reverse_append, split', List.reverse_reverse, split]
  · exact List.mem_takeWhile_imp (List.mem_reverse.mp member)

/-! ### Integers -/

theorem spells_of_integer? {text : String} (read : integer? text = some value) :
    Spells text.toList value := by
  obtain ⟨before, after, whole, leading, trailing⟩ := exists_trimBlanks text.toList
  have spells {sign run : List Char} {unit value : Int} (signed : Signs sign unit)
      (core : trimBlanks text.toList = sign ++ run)
      (natural : (natural? run).bind (fun value => some (value : Int)) = some value) :
      Spells text.toList (unit * value) := by
    obtain ⟨magnitude, counted, same⟩ := Option.bind_eq_some_iff.mp natural
    cases same
    obtain ⟨digits, spelled, few, rfl⟩ := natural?_eq_some_iff.mp counted
    rw [whole, core]
    exact .intro leading signed spelled few trailing
  unfold integer? at read
  split at read
  · next rest core =>
    obtain ⟨value, natural, rfl⟩ := Option.map_eq_some_iff.mp read
    rw [← Int.neg_one_mul]
    exact spells .minus core natural
  · next rest core =>
    obtain ⟨value, natural, rfl⟩ := Option.map_eq_some_iff.mp read
    rw [← Int.one_mul value]
    exact spells .plus core natural
  · next rest _ _ =>
    obtain ⟨value, natural, rfl⟩ := Option.map_eq_some_iff.mp read
    rw [← Int.one_mul value]
    exact spells .none rfl natural

theorem integer?_of_spells {text : String} (spelled : Spells text.toList value) :
    integer? text = some value := by
  generalize whole : text.toList = chars at spelled
  obtain ⟨leading, signed, spelled, few, trailing⟩ := spelled
  next before sign run after unit digits =>
  have natural := natural?_eq_some_iff.mpr ⟨digits, spelled, few, rfl⟩
  obtain ⟨first, rest, _, starts, worth⟩ := spelled.starts
  obtain ⟨front, last, _, ends, worth'⟩ := spelled.ends
  have ends : sign ++ run = (sign ++ front) ++ [last] := by rw [ends, List.append_assoc]
  have trimmed {first : Char} {rest : List Char} (starts : sign ++ run = first :: rest)
      (nonblank : ¬ isBlank first) : trimBlanks text.toList = sign ++ run := by
    rw [whole]
    exact trimBlanks_eq leading trailing starts ends nonblank (not_isBlank_of_digit worth')
  unfold integer?
  cases signed with
  | none =>
    -- Without a sign it is the first digit that tells the text from one with a sign.
    have unsigned := notMem_of_digit worth
    rw [trimmed starts (not_isBlank_of_digit worth), List.nil_append, Int.one_mul]
    split
    · cases starts
      exact absurd (by decide) unsigned
    · cases starts
      exact absurd (by decide) unsigned
    · rw [natural]
      rfl
  | plus =>
    rw [trimmed rfl (by decide), Int.one_mul, List.singleton_append]
    simp only [natural]
    rfl
  | minus =>
    rw [trimmed rfl (by decide), Int.neg_one_mul, List.singleton_append]
    simp only [natural]
    rfl

/-- An integer is read from a text if and only if the text spells it. -/
theorem integer?_eq_some_iff {text : String} :
    integer? text = some value ↔ Spells text.toList value :=
  ⟨spells_of_integer?, integer?_of_spells⟩

end Chip8.Text
