/-
This file proves that no two words share their text.

The text of an instruction has as many characters as its operation has, and each
of them is either the same for all words of the operation or one digit of the
word. Written down in this way the texts of two operations can be compared
without regard to operands: they differ in length, or somewhere they cannot have
the same character, whatever the digits are. That takes care of texts such as
those that end in the name of a register and of a timer, or in a register and a
byte. Within one operation the characters show every digit that its pattern
leaves open, so the text gives back the word.
-/

import Chip8.Proofs.Pattern

namespace Chip8

/-- A character in the text of an instruction: one that is always the same, or one that shows a
digit of the word. -/
inductive Letter where
  | literal (char : Char)
  | upper (place : Nat)
  | lower (place : Nat)
  deriving DecidableEq

namespace Letter

/-- The character for a word. -/
def read (opcode : Int) : Letter → Char
  | literal char => char
  | upper place => (Nat.digitChar (digitAt opcode place)).toUpper
  | lower place => Nat.digitChar (digitAt opcode place)

/-- The characters for all words. -/
def shows : Letter → List Char
  | literal char => [char]
  | upper _ => (List.range 0x10).map fun digit => (Nat.digitChar digit).toUpper
  | lower _ => (List.range 0x10).map Nat.digitChar

/-- A text that is the same for all words. -/
def plain (text : String) : List Letter :=
  text.toList.map literal

variable {opcode other : Int} {place : Nat}

theorem map_read_plain (opcode : Int) (text : String) :
    (plain text).map (read opcode) = text.toList := by
  rw [plain, List.map_map]
  exact List.map_id _

theorem read_mem_shows (opcode : Int) (letter : Letter) : letter.read opcode ∈ letter.shows := by
  cases letter with
  | literal char => exact List.mem_singleton_self char
  | upper place | lower place =>
    exact List.mem_map_of_mem (List.mem_range.mpr (digitAt_lt opcode place))

/-- A digit can be told from either of its characters. -/
theorem digitAt_of_read {letter : Letter} (shown : letter = upper place ∨ letter = lower place)
    (same : letter.read opcode = letter.read other) :
    digitAt opcode place = digitAt other place := by
  have small : ∀ digit < 0x10, ∀ digit' < 0x10,
      Nat.digitChar digit = Nat.digitChar digit' → digit = digit' := by decide
  have capital : ∀ digit < 0x10, ∀ digit' < 0x10,
      (Nat.digitChar digit).toUpper = (Nat.digitChar digit').toUpper → digit = digit' := by decide
  rcases shown with rfl | rfl
  · exact capital _ (digitAt_lt _ _) _ (digitAt_lt _ _) same
  · exact small _ (digitAt_lt _ _) _ (digitAt_lt _ _) same

end Letter

open Letter

/-- The text of an operation's instructions, character by character. -/
def Operation.wording (operation : Operation) : List Letter :=
  let vx := plain "V" ++ [upper 2]
  let vy := plain "V" ++ [upper 1]
  let nibble := plain "0x" ++ [lower 0]
  let byte := plain "0x" ++ [lower 1, lower 0]
  let address := plain "0x" ++ [lower 2, lower 1, lower 0]
  match operation with
  | .clearDisplay => plain "CLS"
  | .returnFromCall => plain "RET"
  | .machineCode => plain "SYS " ++ address
  | .jump => plain "JP " ++ address
  | .call => plain "CALL " ++ address
  | .skipIfByte => plain "SE " ++ vx ++ plain ", " ++ byte
  | .skipUnlessByte => plain "SNE " ++ vx ++ plain ", " ++ byte
  | .skipIfEqual => plain "SE " ++ vx ++ plain ", " ++ vy
  | .loadByte => plain "LD " ++ vx ++ plain ", " ++ byte
  | .addByte => plain "ADD " ++ vx ++ plain ", " ++ byte
  | .copyRegister => plain "LD " ++ vx ++ plain ", " ++ vy
  | .bitOr => plain "OR " ++ vx ++ plain ", " ++ vy
  | .bitAnd => plain "AND " ++ vx ++ plain ", " ++ vy
  | .bitXor => plain "XOR " ++ vx ++ plain ", " ++ vy
  | .addRegister => plain "ADD " ++ vx ++ plain ", " ++ vy
  | .subtract => plain "SUB " ++ vx ++ plain ", " ++ vy
  | .shiftRight => plain "SHR " ++ vx ++ plain ", " ++ vy
  | .subtractFrom => plain "SUBN " ++ vx ++ plain ", " ++ vy
  | .shiftLeft => plain "SHL " ++ vx ++ plain ", " ++ vy
  | .skipUnlessEqual => plain "SNE " ++ vx ++ plain ", " ++ vy
  | .loadIndex => plain "LD I, " ++ address
  | .jumpOffset => plain "JP V0, " ++ address
  | .randomByte => plain "RND " ++ vx ++ plain ", " ++ byte
  | .drawSprite => plain "DRW " ++ vx ++ plain ", " ++ vy ++ plain ", " ++ nibble
  | .skipIfHeld => plain "SKP " ++ vx
  | .skipUnlessHeld => plain "SKNP " ++ vx
  | .readDelay => plain "LD " ++ vx ++ plain ", DT"
  | .awaitKey => plain "LD " ++ vx ++ plain ", K"
  | .setDelay => plain "LD DT, " ++ vx
  | .setSound => plain "LD ST, " ++ vx
  | .addIndex => plain "ADD I, " ++ vx
  | .pointAtGlyph => plain "LD F, " ++ vx
  | .storeDecimal => plain "LD B, " ++ vx
  | .storeRegisters => plain "LD [I], " ++ vx
  | .loadRegisters => plain "LD " ++ vx ++ plain ", [I]"

variable {opcode other address address' : Int} {operation operation' : Operation}

/-! ### The digits of operands -/

theorem toList_upper (opcode : Int) (place : Nat) :
    (Hex.upper (opcode / 0x10 ^ place % 0x10)).toList = [(upper place).read opcode] := by
  have digit : digitAt opcode place < 0x10 := digitAt_lt opcode place
  rw [Hex.upper, String.toList_ofList, Hex.chars_of_nonneg _ _ (by omega), ← digitAt,
    Hex.digits, Nat.toDigits_of_lt_base digit]
  rfl

/-- A padded number that does not need more room than its width is written digit by digit. -/
theorem padded_eq_digits {width value : Nat} (small : value < 0x10 ^ (width + 1)) :
    Hex.padded (width + 1) (Hex.digits value) =
      (List.range (width + 1)).reverse.map fun place => Nat.digitChar (digitAt value place) := by
  induction width generalizing value with
  | zero =>
    have below : value < 0x10 := small
    have last : value = digitAt value 0 := by
      rw [digitAt_natCast, Nat.pow_zero, Nat.div_one, Nat.mod_eq_of_lt below]
    rw [Hex.padded_digit small]
    exact congrArg (fun digit => [Nat.digitChar digit]) last
  | succ width inductionHypothesis =>
    have rest : value / 0x10 < 0x10 ^ (width + 1) := Nat.div_lt_of_lt_mul (by
      rwa [Nat.mul_comm, ← Nat.pow_succ])
    have shifted (place : Nat) :
        digitAt (value / 0x10 : Nat) place = digitAt value (place + 1) := by
      rw [digitAt_natCast, digitAt_natCast, Nat.div_div_eq_div_mul, Nat.pow_succ']
    have last : digitAt value 0 = value % 0x10 := by
      rw [digitAt_natCast, Nat.pow_zero, Nat.div_one]
    rw [Hex.padded_digits (Nat.succ_pos width), inductionHypothesis rest,
      List.range_succ_eq_map (n := width + 1), List.reverse_cons, List.map_append,
      ← List.map_reverse, List.map_map, ← last]
    simp only [shifted]
    rfl

theorem toList_lower (opcode : Int) (width : Nat) :
    (Hex.lower (width + 1) (opcode % 0x10 ^ (width + 1))).toList =
      ((List.range (width + 1)).reverse.map lower).map (read opcode) := by
  have power : ((0x10 ^ (width + 1) : Nat) : Int) = 0x10 ^ (width + 1) := Int.natCast_pow _ _
  have positive : (0 : Int) < 0x10 ^ (width + 1) := Int.pow_pos (by decide)
  have nonneg := Int.emod_nonneg opcode (Int.ne_of_gt positive)
  have below := Int.emod_lt_of_pos opcode positive
  rw [Hex.lower, String.toList_ofList, Hex.chars_of_nonneg _ _ nonneg,
    padded_eq_digits (by omega), List.map_map, Int.toNat_of_nonneg nonneg]
  refine List.map_congr_left fun place member => ?_
  rw [List.mem_reverse, List.mem_range] at member
  rw [digitAt_mod member]
  rfl

namespace Instruction

/-- The text of an instruction is its operation's, with the digits of the word filled in. -/
theorem toList_mnemonic (operation : Operation) (opcode : Int) :
    (ofFields operation opcode).mnemonic.toList = operation.wording.map (read opcode) := by
  have x : (Hex.upper (opcode / 0x100 % 0x10)).toList = [upper 2].map (read opcode) :=
    toList_upper opcode 2
  have y : (Hex.upper (opcode / 0x10 % 0x10)).toList = [upper 1].map (read opcode) :=
    toList_upper opcode 1
  have nibble : (Hex.lower 1 (opcode % 0x10)).toList = [lower 0].map (read opcode) :=
    toList_lower opcode 0
  have byte : (Hex.lower 2 (opcode % 0x100)).toList = [lower 1, lower 0].map (read opcode) :=
    toList_lower opcode 1
  have address :
      (Hex.lower 3 (opcode % 0x1000)).toList = [lower 2, lower 1, lower 0].map (read opcode) :=
    toList_lower opcode 2
  unfold mnemonic ofFields Operation.wording
  cases operation <;>
    simp only [String.toList_append, List.map_append, map_read_plain, x, y, nibble, byte, address]

end Instruction

/-! ### Telling texts apart -/

/-- Two texts differ for all words: in length, or in a character that they cannot share. -/
def clash (first second : List Letter) : Bool :=
  first.length != second.length ||
    (first.zip second).any fun pair => pair.1.shows.all fun char => !pair.2.shows.contains char

/-- Where two texts are the same, so are their characters one by one. -/
theorem read_eq_of_mem_zip {first second : List Letter} {letter letter' : Letter}
    (same : first.map (read opcode) = second.map (read other))
    (together : (letter, letter') ∈ first.zip second) :
    letter.read opcode = letter'.read other := by
  induction first generalizing second with
  | nil => cases together
  | cons head rest inductionHypothesis =>
    cases second with
    | nil => cases together
    | cons head' rest' =>
      rw [List.map_cons, List.map_cons, List.cons.injEq] at same
      rw [List.zip_cons_cons, List.mem_cons, Prod.mk.injEq] at together
      rcases together with ⟨rfl, rfl⟩ | later
      · exact same.1
      · exact inductionHypothesis same.2 later

theorem map_read_ne {first second : List Letter} (clashes : clash first second = true) :
    first.map (read opcode) ≠ second.map (read other) := by
  intro same
  simp only [clash, Bool.or_eq_true, bne_iff_ne, List.any_eq_true, List.all_eq_true,
    Bool.not_eq_true', List.contains_eq_mem, decide_eq_false_iff_not] at clashes
  rcases clashes with length | ⟨⟨letter, letter'⟩, together, apart⟩
  · rw [← List.length_map (read opcode), same, List.length_map] at length
    exact length rfl
  · refine apart _ (read_mem_shows opcode letter) ?_
    rw [read_eq_of_mem_zip same together]
    exact read_mem_shows other letter'

theorem wording_clash (different : operation ≠ operation') :
    clash operation.wording operation'.wording = true := by
  have table : ∀ operation ∈ Operation.all, ∀ operation' ∈ Operation.all,
      operation ≠ operation' → clash operation.wording operation'.wording = true := by
    decide +kernel
  exact table operation operation.mem_all operation' operation'.mem_all different

/-- No digit that a pattern leaves open goes unsaid. -/
theorem wording_shows {place : Nat} (inside : place < 4) (free : operation.fixed? place = none) :
    ∃ letter ∈ operation.wording, letter = upper place ∨ letter = lower place := by
  have table : ∀ operation ∈ Operation.all, ∀ place < 4, operation.fixed? place = none →
      ∃ letter ∈ operation.wording, letter = upper place ∨ letter = lower place := by
    decide +kernel
  exact table operation operation.mem_all place inside free

/-- The text of an instruction gives back its word. -/
theorem word_of_mnemonic (word : 0 ≤ opcode ∧ opcode ≤ 0xFFFF) (word' : 0 ≤ other ∧ other ≤ 0xFFFF)
    (fits : operation.Fits opcode) (fits' : operation'.Fits other)
    (same : (Instruction.ofFields operation opcode).mnemonic =
      (Instruction.ofFields operation' other).mnemonic) : opcode = other := by
  have text := congrArg String.toList same
  rw [Instruction.toList_mnemonic, Instruction.toList_mnemonic] at text
  have one : operation = operation' := by
    by_contra different
    exact map_read_ne (wording_clash different) text
  subst one
  refine eq_of_digits word word' fun place inside => ?_
  cases fixed : operation.fixed? place with
  | some digit => rw [fits place inside digit fixed, fits' place inside digit fixed]
  | none =>
    obtain ⟨letter, member, shown⟩ := wording_shows inside fixed
    exact digitAt_of_read shown (List.map_inj_left.mp text letter member)

/-! ### The decoder -/

namespace Instruction

/-- What the decoder makes of an integer that is found at an address. -/
structure Decoding (opcode address : Int) : Prop where
  answers : (∃ instruction, decode opcode address = .ok instruction) ∨
    decode opcode address = .error (.unknownOpcode opcode address)
  holds : ∀ instruction, decode opcode address = .ok instruction → instruction.Holds opcode
  /-- The words of the instruction set are accepted, each as what it is. -/
  accepts : 0 ≤ opcode → opcode ≤ 0xFFFF → ∀ instruction,
    decode opcode address = .ok instruction ↔
      ∃ operation : Operation, operation.Matches opcode ∧ instruction = ofFields operation opcode
  exclusive : 0 ≤ opcode → opcode ≤ 0xFFFF → ∀ operation operation' : Operation,
    operation.Matches opcode → operation'.Matches opcode → operation = operation'
  encodes : 0 ≤ opcode → opcode ≤ 0xFFFF → ∀ instruction,
    decode opcode address = .ok instruction → instruction.encode = opcode
  /-- No other word has the same text. -/
  tells : 0 ≤ opcode → opcode ≤ 0xFFFF → ∀ other, 0 ≤ other → other ≤ 0xFFFF →
    ∀ address' instruction instruction', decode opcode address = .ok instruction →
      decode other address' = .ok instruction' → opcode ≠ other →
        instruction.mnemonic ≠ instruction'.mnemonic
  /-- Of an integer that is no word one digit decides. -/
  beyond : ¬ (0 ≤ opcode ∧ opcode ≤ 0xFFFF) →
    ((∃ instruction, decode opcode address = .ok instruction) ↔
        1 ≤ bits opcode 12 4 ∧ bits opcode 12 4 ≤ 0xD) ∧
      ∀ instruction, decode opcode address = .ok instruction →
        instruction.operation.selector = some ((opcode % 0x10000).toNat &&& 0xF000)

/-- The decoder accepts the instruction set and nothing else, and loses nothing of a word. -/
theorem decoding_exact (opcode address : Int) : Decoding opcode address where
  answers := (decode_cases opcode address).imp_left fun ⟨_, decoded⟩ => ⟨_, decoded⟩
  holds instruction decoded := holds_of_decode decoded
  accepts bottom top instruction := decode_eq_ok_iff ⟨bottom, top⟩
  exclusive bottom top operation operation' belongs also :=
    matches_unique ⟨bottom, top⟩ belongs also
  encodes bottom top instruction decoded := by
    obtain ⟨operation, belongs, rfl⟩ := matches_of_decode ⟨bottom, top⟩ decoded
    exact encode_of_fits ⟨bottom, top⟩ belongs.1
  tells bottom top other bottom' top' address' instruction instruction' decoded decoded' := by
    obtain ⟨operation, belongs, rfl⟩ := matches_of_decode ⟨bottom, top⟩ decoded
    obtain ⟨operation', belongs', rfl⟩ := matches_of_decode ⟨bottom', top'⟩ decoded'
    exact mt (word_of_mnemonic ⟨bottom, top⟩ ⟨bottom', top'⟩ belongs.1 belongs'.1)
  beyond outside := by
    rw [← digitAt_lead]
    exact decode_of_not_word outside

/-- The sum of two registers, read from its word and told from all others. -/
theorem decoding_exact_sum :
    ∃ instruction, decode 0x8AB4 0x200 = .ok instruction ∧
      instruction = ⟨.addRegister, 0x8AB4, 0xA, 0xB, 0x4, 0xB4, 0xAB4⟩ ∧
      instruction.encode = 0x8AB4 ∧
      ∀ other, 0 ≤ other → other ≤ 0xFFFF → 0x8AB4 ≠ other → ∀ instruction',
        decode other 0x200 = .ok instruction' → instruction.mnemonic ≠ instruction'.mnemonic := by
  have decoding := decoding_exact 0x8AB4 0x200
  have bottom : (0 : Int) ≤ 0x8AB4 := by decide
  have top : (0x8AB4 : Int) ≤ 0xFFFF := by decide
  have decoded := (decoding.accepts bottom top _).mpr ⟨.addRegister, by decide, rfl⟩
  exact ⟨_, decoded, rfl, decoding.encodes bottom top _ decoded,
    fun other bottom' top' different instruction' decoded' =>
      decoding.tells bottom top other bottom' top' _ _ _ decoded decoded' different⟩

end Instruction

end Chip8
