/-
This file proves that what is printed of a cycle tells what the cycle did.

A line is made of labels, numerals and a mnemonic. A numeral is followed by a
blank or a bracket, and no digit is one, so it does not matter whether it kept
to its width; only the digits of the registers run together, and those are two
for each register, whatever byte it holds. A mnemonic has neither brackets nor
line ends in it: the remark that a machine is waiting for a key is no part of
any, and where the line ends, so does the mnemonic. Nor does an effect go beyond
its line. That holds of machines that were given instructions put together by
hand, too, whose operands may be any integers.

So the lines give back every report, and every machine but for its open calls
and its count of cycles, which its line leaves out. Whether the machine waits is
always in that line; the lines of the report mention it only of a cycle that did
nothing.
-/

import Mathlib.Data.List.Basic
import Chip8.Proofs.Lines
import Chip8.Proofs.Stint

namespace Chip8

variable {rest rest' : List Char} {char : Char}

/-! ### Characters that end a text -/

/-- A character that no mnemonic has in it. -/
def Foreign (char : Char) : Prop :=
  char = '(' ∨ char = '\n'

/-- A mnemonic that keeps to one line and to no brackets. -/
def Unmarked (mnemonic : String) : Prop :=
  ∀ char, Foreign char → char ∉ mnemonic.toList

theorem Hex.blank_not_mem_chars (width : Nat) (value : Int) : ' ' ∉ chars width value :=
  not_mem_chars (by decide) (by decide) width value

theorem Hex.bracket_not_mem_chars (width : Nat) (value : Int) : ']' ∉ chars width value :=
  not_mem_chars (by decide) (by decide) width value

theorem Foreign.not_mem_chars (foreign : Foreign char) (width : Nat) (value : Int) :
    char ∉ Hex.chars width value := by
  rcases foreign with rfl | rfl <;> exact Hex.not_mem_chars (by decide) (by decide) width value

theorem Foreign.not_mem_capitals (foreign : Foreign char) (value : Int) :
    char ∉ (Hex.chars 0 value).map Char.toUpper := by
  rw [List.mem_map]
  rintro ⟨digit, member, same⟩
  rcases Hex.mem_chars member with rfl | ⟨number, small, rfl⟩
  · rcases foreign with rfl | rfl <;> exact absurd same (by decide)
  · have capital : ∀ number < 16, (Nat.digitChar number).toUpper ≠ '(' ∧
        (Nat.digitChar number).toUpper ≠ '\n' := by decide
    rcases foreign with rfl | rfl
    · exact (capital number small).1 same
    · exact (capital number small).2 same

theorem Foreign.not_mem_instruction (foreign : Foreign char) (instruction : Instruction) :
    char ∉ instruction.mnemonic.toList := by
  have lower (width : Nat) (value : Int) : char ∉ (Hex.lower width value).toList := by
    rw [Hex.lower, String.toList_ofList]
    exact foreign.not_mem_chars width value
  have upper (value : Int) : char ∉ (Hex.upper value).toList := by
    rw [Hex.upper, String.toList_ofList]
    exact foreign.not_mem_capitals value
  unfold Instruction.mnemonic
  rcases foreign with rfl | rfl <;> dsimp only <;> split <;>
    simp [String.toList_append, upper, lower]

theorem unmarked_mnemonic (machine : Machine) : Unmarked machine.mnemonic := by
  intro char foreign
  unfold Machine.mnemonic
  cases machine.instruction with
  | none => rcases foreign with rfl | rfl <;> decide
  | some instruction => exact foreign.not_mem_instruction instruction

namespace Effect

theorem chars_injective : Function.Injective chars := by
  intro effect other same
  rw [← toList_text, ← toList_text, String.toList_inj] at same
  exact text_injective same

/-- An effect keeps to its line. -/
theorem line_end_not_mem_chars (effect : Effect) : '\n' ∉ effect.chars := by
  have foreign : Foreign '\n' := .inr rfl
  have numeral := foreign.not_mem_chars
  have changed (width : Nat) (old new : Int) : '\n' ∉ fromTo width old new :=
    List.not_mem_append (by decide) (List.not_mem_append (numeral _ _)
      (List.not_mem_append (by decide) (numeral _ _)))
  cases effect with
  | displayCleared => decide
  | displayDrawn hit => cases hit <;> decide
  | pushed | popped => exact List.not_mem_append (by decide) (numeral _ _)
  | stored =>
    exact List.not_mem_append (by decide) (List.not_mem_append (numeral _ _)
      (List.not_mem_append (by decide) (numeral _ _)))
  | index | delay | sound | programCounter =>
    exact List.not_mem_append (by decide) (changed _ _ _)
  | register =>
    exact List.not_mem_append (by decide)
      (List.not_mem_append (foreign.not_mem_capitals _) (changed _ _ _))

end Effect

namespace Report

/-! ### Pieces of a text -/

/-- Where texts stand behind a character that is in none of them, nor in front of the first,
they can be told from each other and from what is in front. -/
theorem append_flatMap_inj {α : Type} {separator : Char} {write : α → List Char}
    (injective : Function.Injective write) (absent : ∀ value, separator ∉ write value)
    {head head' : List Char} (inHead : separator ∉ head) (inHead' : separator ∉ head')
    {values others : List α}
    (same : head ++ values.flatMap (fun value => separator :: write value) =
      head' ++ others.flatMap (fun value => separator :: write value)) :
    head = head' ∧ values = others := by
  have pieces (values : List α) (head : List Char) :
      head ++ values.flatMap (fun value => separator :: write value) =
        [separator].intercalate (head :: values.map write) := by
    induction values generalizing head with
    | nil => rw [List.flatMap_nil, List.append_nil, List.map_nil, List.intercalate_singleton]
    | cons value values inductionHypothesis =>
      rw [List.flatMap_cons, List.map_cons, List.intercalate_cons_cons, ← inductionHypothesis]
      simp
  have split (values : List α) {head : List Char} (inHead : separator ∉ head) :
      List.splitOn separator ([separator].intercalate (head :: values.map write)) =
        head :: values.map write := by
    refine List.splitOn_intercalate separator ?_ (List.cons_ne_nil _ _)
    exact List.forall_mem_cons.mpr ⟨inHead, List.forall_mem_map.mpr fun value _ => absent value⟩
  have parts := congrArg (List.splitOn separator) same
  rw [pieces, pieces, split values inHead, split others inHead', List.cons.injEq] at parts
  exact ⟨parts.1, List.map_injective_iff.mpr injective parts.2⟩

/-- A numeral after its label, up to the character behind it. -/
theorem field_inj {label : List Char} {separator : Char} {width : Nat} {value other : Int}
    (outside : ∀ width value, separator ∉ Hex.chars width value)
    (same : label ++ (Hex.chars width value ++ separator :: rest) =
      label ++ (Hex.chars width other ++ separator :: rest')) : value = other ∧ rest = rest' := by
  obtain ⟨digits, ends⟩ := Effect.append_cons_inj (outside width value) (outside width other)
    (List.append_cancel_left same)
  exact ⟨Hex.chars_injective width digits, ends⟩

/-- Every byte is written with two digits. -/
theorem length_byte (byte : UInt8) : (Hex.chars 2 byte.toNat).length = 2 := by
  have few : (Hex.digits byte.toNat).length ≤ 2 :=
    (Nat.length_toDigits_le_iff (by decide) (by decide)).mpr byte.toNat_lt
  rw [Hex.chars_of_nonneg _ _ (Int.natCast_nonneg _), Int.toNat_natCast, Hex.length_padded,
    Nat.max_eq_left few]

theorem flatMap_byte_inj {bytes others : List UInt8} (length : bytes.length = others.length)
    (same : (bytes.flatMap fun byte => Hex.chars 2 byte.toNat) ++ rest =
      (others.flatMap fun byte => Hex.chars 2 byte.toNat) ++ rest') :
    bytes = others ∧ rest = rest' := by
  induction bytes generalizing others with
  | nil =>
    cases others with
    | nil => exact ⟨rfl, same⟩
    | cons => cases length
  | cons byte bytes inductionHypothesis =>
    cases others with
    | nil => cases length
    | cons other others =>
      rw [List.flatMap_cons, List.flatMap_cons, List.append_assoc, List.append_assoc] at same
      obtain ⟨digits, more⟩ :=
        List.append_inj same ((length_byte byte).trans (length_byte other).symm)
      obtain ⟨rfl, ends⟩ := inductionHypothesis (Nat.succ.inj length) more
      have value := Int.natCast_inj.mp (Hex.chars_injective 2 digits)
      exact ⟨congrArg (· :: bytes) (UInt8.toNat_inj.mp value), ends⟩

/-- The registers as they are written, `VF` first. -/
def registerChars (registers : Registers) : List Char :=
  registers.values.toList.reverse.flatMap fun byte => Hex.chars 2 byte.toNat

theorem toList_registerDigits (registers : Registers) :
    (registerDigits registers).toList = registerChars registers := by
  rw [registerDigits, String.toList_join, List.flatMap_map]
  simp only [Hex.byte, Hex.lower, String.toList_ofList, registerChars]

theorem registerChars_inj {registers others : Registers}
    (same : registerChars registers ++ rest = registerChars others ++ rest') :
    registers = others ∧ rest = rest' := by
  have length : registers.values.toList.reverse.length = others.values.toList.reverse.length := by
    simp
  obtain ⟨values, ends⟩ := flatMap_byte_inj length same
  refine ⟨?_, ends⟩
  rw [List.reverse_inj, Vector.toList_inj] at values
  exact congrArg Registers.mk values

/-- What stands behind a mnemonic if there is waiting to be told of. -/
def remark (waiting : Bool) : List Char :=
  if waiting then " (waiting for key)".toList else []

theorem remark_inj {mnemonic other : String} {waiting waiting' : Bool}
    (unmarked : Unmarked mnemonic) (unmarked' : Unmarked other)
    (same : mnemonic.toList ++ remark waiting = other.toList ++ remark waiting') :
    mnemonic = other ∧ waiting = waiting' := by
  have bracket {mnemonic : String} {waiting : Bool} (unmarked : Unmarked mnemonic) :
      '(' ∈ mnemonic.toList ++ remark waiting ↔ waiting = true := by
    have absent := unmarked '(' (.inl rfl)
    cases waiting <;> simp [remark, absent]
  have waits : waiting = waiting' := by
    rw [Bool.eq_iff_iff, ← bracket unmarked, same, bracket unmarked']
  rw [waits] at same
  exact ⟨String.toList_inj.mp (List.append_cancel_right same), waits⟩

theorem line_end_not_mem_remark {mnemonic : String} (unmarked : Unmarked mnemonic)
    (waiting : Bool) : '\n' ∉ mnemonic.toList ++ remark waiting := by
  have absent := unmarked '\n' (.inr rfl)
  cases waiting <;> simp [remark, absent]

/-! ### The line of a machine -/

/-- The numbers of a machine with their labels, and what comes after them. -/
def numberChars (snapshot : Snapshot) (rest : List Char) : List Char :=
  "V: 0x".toList ++ (registerChars snapshot.registers ++ ' ' ::
    ("I: 0x".toList ++ (Hex.chars 4 snapshot.index ++ ' ' ::
    ("DT: 0x".toList ++ (Hex.chars 2 snapshot.delay ++ ' ' ::
    ("ST: 0x".toList ++ (Hex.chars 2 snapshot.sound ++ ' ' ::
    ("PC: 0x".toList ++ (Hex.chars 3 snapshot.programCounter ++ ' ' ::
    ("OP: 0x".toList ++ (Hex.chars 4 snapshot.opcode ++ ' ' ::
    ("IN: ".toList ++ rest))))))))))))

theorem numberChars_inj {snapshot other : Snapshot}
    (same : numberChars snapshot rest = numberChars other rest') :
    snapshot.registers = other.registers ∧ snapshot.index = other.index ∧
      snapshot.delay = other.delay ∧ snapshot.sound = other.sound ∧
      snapshot.programCounter = other.programCounter ∧ snapshot.opcode = other.opcode ∧
      rest = rest' := by
  have blank := Hex.blank_not_mem_chars
  obtain ⟨registers, chars⟩ := registerChars_inj (List.append_cancel_left same)
  obtain ⟨index, chars⟩ := field_inj blank (List.tail_eq_of_cons_eq chars)
  obtain ⟨delay, chars⟩ := field_inj blank chars
  obtain ⟨sound, chars⟩ := field_inj blank chars
  obtain ⟨programCounter, chars⟩ := field_inj blank chars
  obtain ⟨opcode, chars⟩ := field_inj blank chars
  exact ⟨registers, index, delay, sound, programCounter, opcode, List.append_cancel_left chars⟩

/-- The line of a machine, character by character. -/
def stateChars (snapshot : Snapshot) : List Char :=
  numberChars snapshot (snapshot.mnemonic.toList ++ remark snapshot.waiting)

theorem toList_stateLine (snapshot : Snapshot) :
    (stateLine snapshot).toList = stateChars snapshot := by
  unfold stateLine
  unfold stateChars numberChars remark
  simp only [String.toList_append, List.append_assoc, toList_registerDigits, Hex.lower,
    String.toList_ofList]
  cases snapshot.waiting <;> rfl

end Report

/-- What the line of a machine shows: the open calls and the count of cycles are not in it. -/
def Snapshot.shown (snapshot : Snapshot) : Snapshot :=
  { snapshot with stack := [], cycles := 0 }

namespace Report

theorem stateChars_inj {snapshot other : Snapshot} (unmarked : Unmarked snapshot.mnemonic)
    (unmarked' : Unmarked other.mnemonic) (same : stateChars snapshot = stateChars other) :
    snapshot.shown = other.shown := by
  obtain ⟨registers, index, delay, sound, programCounter, opcode, told⟩ := numberChars_inj same
  obtain ⟨mnemonic, waiting⟩ := remark_inj unmarked unmarked' told
  simp only [Snapshot.shown, Snapshot.mk.injEq]
  exact ⟨registers, index, programCounter, trivial, delay, sound, opcode, mnemonic, waiting,
    trivial⟩

/-! ### The lines of a cycle -/

/-- The report of a cycle, character by character. -/
def cycleChars (report : CycleReport) : List Char :=
  "[PC:0x".toList ++ (Hex.chars 3 report.programCounter ++ ']' ::
    (" [RAW:0x".toList ++ (Hex.chars 4 report.opcode ++ ']' ::
    (' ' :: ((report.mnemonic.toList ++ remark (report.waiting && report.effects.isEmpty)) ++
      report.effects.flatMap fun effect => '\n' :: ("    ".toList ++ effect.chars))))))

theorem toList_cycle (report : CycleReport) : (cycle report).toList = cycleChars report := by
  have effects : (String.join ((report.effects.map Effect.text).map fun effect =>
      "\n    " ++ effect)).toList =
        report.effects.flatMap fun effect => '\n' :: ("    ".toList ++ effect.chars) := by
    rw [String.toList_join, List.flatMap_map, List.flatMap_map]
    simp only [String.toList_append, Effect.toList_text]
    rfl
  have heading : ("[PC:0x" ++ Hex.lower 3 report.programCounter ++ "] [RAW:0x" ++
      Hex.lower 4 report.opcode ++ "] " ++ report.mnemonic).toList =
        "[PC:0x".toList ++ (Hex.chars 3 report.programCounter ++ ']' ::
          (" [RAW:0x".toList ++ (Hex.chars 4 report.opcode ++ ']' ::
          (' ' :: report.mnemonic.toList)))) := by
    simp only [String.toList_append, Hex.lower, String.toList_ofList, List.append_assoc]
    rfl
  unfold cycle cycleLines cycleChars
  rw [List.isEmpty_map]
  dsimp only
  split
  · next silent =>
    obtain ⟨-, none⟩ := Bool.and_eq_true_iff.mp silent
    rw [silent, String.toList_append, heading, List.isEmpty_iff.mp none, List.flatMap_nil,
      List.append_nil]
    simp only [List.append_assoc, List.cons_append]
    rfl
  · next told =>
    rw [Bool.eq_false_iff.mpr told, String.toList_append, heading, effects]
    simp [remark]

theorem cycleChars_inj {report other : CycleReport} (unmarked : Unmarked report.mnemonic)
    (unmarked' : Unmarked other.mnemonic) (waiting : report.waiting = other.waiting)
    (same : cycleChars report = cycleChars other) : report = other := by
  have bracket := Hex.bracket_not_mem_chars
  obtain ⟨programCounter, chars⟩ := field_inj bracket same
  obtain ⟨opcode, chars⟩ := field_inj bracket chars
  have indented : Function.Injective fun effect : Effect => "    ".toList ++ effect.chars :=
    fun _ _ same => Effect.chars_injective (List.append_cancel_left same)
  have oneLine (effect : Effect) : '\n' ∉ "    ".toList ++ effect.chars := by
    simp [effect.line_end_not_mem_chars]
  obtain ⟨told, effects⟩ := append_flatMap_inj indented oneLine
    (line_end_not_mem_remark unmarked _) (line_end_not_mem_remark unmarked' _)
    (List.tail_eq_of_cons_eq chars)
  obtain ⟨mnemonic, -⟩ := remark_inj unmarked unmarked' told
  obtain ⟨_, _, _, _, _⟩ := report
  obtain ⟨_, _, _, _, _⟩ := other
  simp only [CycleReport.mk.injEq]
  exact ⟨programCounter, opcode, mnemonic, effects, waiting⟩

end Report

/-! ### The lines of some cycles -/

namespace Observation

/-- Some machine has a cycle of which this can be observed. -/
def Occurs (seen : Observation) : Prop :=
  ∃ machine after, Machine.step true machine = .ok seen.report after ∧ after.Depicted seen.after

/-- What the lines of a cycle show. -/
def shown (seen : Observation) : Observation :=
  { seen with after := seen.after.shown }

variable {seen other : Observation}

/-- The mnemonics are unmarked, and the report agrees with the machine after it on waiting. -/
theorem Occurs.agrees (occurs : seen.Occurs) :
    Unmarked seen.report.mnemonic ∧ Unmarked seen.after.mnemonic ∧
      seen.report.waiting = seen.after.waiting := by
  obtain ⟨machine, after, ran, depicted⟩ := occurs
  rcases Machine.step_of_traced machine with ⟨left, notes, same⟩ | ⟨trap, left, same⟩
  · rw [same] at ran
    injection ran with report reached
    rw [depicted.eq_snapshot, ← report, ← reached]
    exact ⟨unmarked_mnemonic left, unmarked_mnemonic left, rfl⟩
  · rw [same] at ran
    cases ran

/-- The two lines of a cycle show all that they should. -/
theorem Occurs.shown_eq (occurs : seen.Occurs) (occurs' : other.Occurs)
    (report : Report.cycle seen.report = Report.cycle other.report)
    (state : Report.stateLine seen.after = Report.stateLine other.after) :
    seen.shown = other.shown := by
  obtain ⟨unmarked, inAfter, waiting⟩ := occurs.agrees
  obtain ⟨unmarked', inAfter', waiting'⟩ := occurs'.agrees
  rw [← String.toList_inj, Report.toList_stateLine, Report.toList_stateLine] at state
  rw [← String.toList_inj, Report.toList_cycle, Report.toList_cycle] at report
  have after := Report.stateChars_inj inAfter inAfter' state
  have waits := congrArg Snapshot.waiting after
  have reported := Report.cycleChars_inj unmarked unmarked'
    (waiting.trans (waits.trans waiting'.symm)) report
  rw [shown, shown, reported, after]

end Observation

theorem Machine.Steps.occur {machine last : Machine} {observed : List Observation}
    (steps : Steps true machine observed last) : ∀ seen ∈ observed, seen.Occurs := by
  induction steps with
  | none => exact List.forall_mem_nil _
  | more ran depicted _ inductionHypothesis =>
    exact List.forall_mem_cons.mpr ⟨⟨_, _, ran, depicted⟩, inductionHypothesis⟩

namespace Report

variable {observed : List Observation}

/-- What lines have to tell of some cycles. -/
structure Tells (lines : List String) (observed : List Observation) : Prop where
  /-- There are two for each cycle, its report and the machine after it. -/
  spelled : lines.map String.toList =
    observed.flatMap fun seen => [cycleChars seen.report, stateChars seen.after]
  /-- No other cycles are printed in the same lines, up to what those leave out. -/
  determined : ∀ others : List Observation, (∀ other ∈ others, other.Occurs) →
    Report.lines others = lines → others.map Observation.shown = observed.map Observation.shown

theorem map_toList_lines (observed : List Observation) : (lines observed).map String.toList =
    observed.flatMap fun seen => [cycleChars seen.report, stateChars seen.after] := by
  rw [lines, List.map_flatMap]
  simp only [List.map_cons, List.map_nil, toList_cycle, toList_stateLine]

theorem map_shown_of_lines (occur : ∀ seen ∈ observed, seen.Occurs) {others : List Observation}
    (occur' : ∀ other ∈ others, other.Occurs) (same : lines others = lines observed) :
    others.map Observation.shown = observed.map Observation.shown := by
  induction observed generalizing others with
  | nil =>
    cases others with
    | nil => rfl
    | cons => cases same
  | cons seen rest inductionHypothesis =>
    cases others with
    | nil => cases same
    | cons other others =>
      obtain ⟨first, later⟩ := List.forall_mem_cons.mp occur
      obtain ⟨first', later'⟩ := List.forall_mem_cons.mp occur'
      injection same with report same
      injection same with state same
      rw [List.map_cons, List.map_cons, first'.shown_eq first report state,
        inductionHypothesis later later' same]

/-- The lines that cycles are printed in tell them. -/
theorem tells_lines (occur : ∀ seen ∈ observed, seen.Occurs) : Tells (lines observed) observed where
  spelled := map_toList_lines observed
  determined _ occur' := map_shown_of_lines occur occur'

end Report

end Chip8
