/-
This file proves that the decoder accepts the words of the instruction set and
no others.

The instruction set is given by patterns of four hexadecimal digits, with small
letters in the places of the operands. The decoder knows no patterns: it keeps
some bits of a word and looks up what it kept. The two come to the same because
their tables agree digit by digit. Where a pattern has a digit, the mask keeps
all four bits and the selector holds that digit; where it has a letter, both hold
none. So everything is argued for one digit at a time, and no operation is looked
at but when the tables are compared.

Machine code is what is left over under a leading zero. Integers that are no
sixteen-bit words are masked down to one digit, whatever that digit is.
-/

import Mathlib.Algebra.GroupWithZero.Nat
import Mathlib.Algebra.Ring.Int.Defs
import Chip8.Instruction.Encode
import Chip8.Proofs.Meaning
import Chip8.Proofs.Numerals

namespace Chip8

/-! ### Digits -/

/-- A hexadecimal digit of an integer, counted from the last. Negative integers have the digits
of their two's complement. -/
def digitAt (opcode : Int) (place : Nat) : Nat :=
  (opcode / 0x10 ^ place % 0x10).toNat

/-- Some bits of an integer, in two's complement. -/
def bits (opcode : Int) (start count : Nat) : Nat :=
  ((BitVec.ofInt 16 opcode).extractLsb' start count).toNat

variable {opcode other address : Int} {place : Nat}

theorem digitAt_natCast (word place : Nat) : digitAt word place = word / 0x10 ^ place % 0x10 := by
  unfold digitAt
  norm_cast

theorem bits_eq (opcode : Int) (start count : Nat) :
    (bits opcode start count : Int) = opcode % 0x10000 / 2 ^ start % 2 ^ count := by
  rw [bits, BitVec.extractLsb'_toNat, BitVec.toNat_ofInt, Nat.shiftRight_eq_div_pow,
    Int.natCast_emod, Int.natCast_ediv, Int.natCast_pow, Int.natCast_pow,
    Int.toNat_of_nonneg (Int.emod_nonneg _ (by decide))]
  rfl

theorem digitAt_lead (opcode : Int) : digitAt opcode 3 = bits opcode 12 4 := by
  have lead := bits_eq opcode 12 4
  unfold digitAt
  omega

theorem digitAt_and (word mask place : Nat) :
    digitAt (word &&& mask : Nat) place = digitAt word place &&& digitAt mask place := by
  have power : 0x10 ^ place = 2 ^ (4 * place) := (Nat.pow_mul 2 4 place).symm
  simp only [digitAt_natCast, power, Nat.and_div_two_pow]
  exact Nat.and_mod_two_pow (n := 4)

theorem digitAt_lt (opcode : Int) (place : Nat) : digitAt opcode place < 0x10 := by
  unfold digitAt
  omega

/-- A word is made of its four digits. -/
theorem eq_digits (word : 0 ≤ opcode ∧ opcode ≤ 0xFFFF) :
    opcode = digitAt opcode 0 + 0x10 * digitAt opcode 1 + 0x100 * digitAt opcode 2 +
      0x1000 * digitAt opcode 3 := by
  unfold digitAt
  omega

theorem eq_of_digits (word : 0 ≤ opcode ∧ opcode ≤ 0xFFFF) (word' : 0 ≤ other ∧ other ≤ 0xFFFF)
    (same : ∀ place < 4, digitAt opcode place = digitAt other place) : opcode = other := by
  rw [eq_digits word, eq_digits word', same 0 (by decide), same 1 (by decide), same 2 (by decide),
    same 3 (by decide)]

/-- What is left of an integer by a power of sixteen has its last digits. -/
theorem digitAt_mod {count : Nat} (inside : place < count) :
    digitAt (opcode % 0x10 ^ count) place = digitAt opcode place := by
  obtain ⟨more, rfl⟩ := Nat.exists_eq_add_of_le (Nat.succ_le_of_lt inside)
  have power : (0x10 : Int) ^ (place + 1 + more) = 0x10 ^ place * (0x10 * 0x10 ^ more) := by
    rw [Int.pow_add, Int.pow_succ, Int.mul_assoc]
  have whole := Int.emod_add_mul_ediv opcode (0x10 ^ (place + 1 + more))
  rw [power, Int.mul_assoc, Int.mul_assoc] at whole
  have nonzero : (0x10 : Int) ^ place ≠ 0 := Int.pow_ne_zero (by decide)
  unfold digitAt
  conv_rhs => rw [← whole, Int.add_mul_ediv_left _ _ nonzero, Int.add_mul_emod_self_left]
  rw [← power]

/-- The low sixteen bits of an integer hold its last four digits. -/
theorem digitAt_low (inside : place < 4) :
    digitAt (opcode % 0x10000).toNat place = digitAt opcode place := by
  rw [Int.toNat_of_nonneg (Int.emod_nonneg _ (by decide))]
  exact digitAt_mod inside

/-! ### Patterns -/

/-- The places of the digits that operands fill. -/
def Operands.places : Operands → List Nat
  | .none => []
  | .register => [2]
  | .registers => [1, 2]
  | .address | .registerByte | .sprite => [0, 1, 2]

theorem Operands.lt_of_mem_places {operands : Operands} (filled : place ∈ operands.places) :
    place < 3 := by
  have table : ∀ place ∈ operands.places, place < 3 := by cases operands <;> decide
  exact table place filled

namespace Operation

/-- The words of an operation: the digits they have, and letters in the places of operands. -/
def pattern : Operation → String
  | clearDisplay => "00E0"
  | returnFromCall => "00EE"
  | machineCode => "0nnn"
  | jump => "1nnn"
  | call => "2nnn"
  | skipIfByte => "3xkk"
  | skipUnlessByte => "4xkk"
  | skipIfEqual => "5xy0"
  | loadByte => "6xkk"
  | addByte => "7xkk"
  | copyRegister => "8xy0"
  | bitOr => "8xy1"
  | bitAnd => "8xy2"
  | bitXor => "8xy3"
  | addRegister => "8xy4"
  | subtract => "8xy5"
  | shiftRight => "8xy6"
  | subtractFrom => "8xy7"
  | shiftLeft => "8xyE"
  | skipUnlessEqual => "9xy0"
  | loadIndex => "Annn"
  | jumpOffset => "Bnnn"
  | randomByte => "Cxkk"
  | drawSprite => "Dxyn"
  | skipIfHeld => "Ex9E"
  | skipUnlessHeld => "ExA1"
  | readDelay => "Fx07"
  | awaitKey => "Fx0A"
  | setDelay => "Fx15"
  | setSound => "Fx18"
  | addIndex => "Fx1E"
  | pointAtGlyph => "Fx29"
  | storeDecimal => "Fx33"
  | storeRegisters => "Fx55"
  | loadRegisters => "Fx65"

/-- The digit that all words of an operation have at a place, if its pattern has one there. -/
def fixed? (operation : Operation) (place : Nat) : Option Nat :=
  operation.pattern.toList[3 - place]?.bind fun char =>
    if char.isLower then none else some (Hex.worth char.toLower)

/-- A word has the digits of a pattern. -/
def Fits (operation : Operation) (opcode : Int) : Prop :=
  ∀ place < 4, ∀ digit ∈ operation.fixed? place, digitAt opcode place = digit

/-- A word belongs to an operation. Machine code is any other word under a leading zero. -/
def Matches (operation : Operation) (opcode : Int) : Prop :=
  operation.Fits opcode ∧ (operation = machineCode →
    ¬ clearDisplay.Fits opcode ∧ ¬ returnFromCall.Fits opcode)

instance (operation : Operation) (opcode : Int) : Decidable (operation.Fits opcode) :=
  inferInstanceAs (Decidable (∀ place < 4, _))

instance (operation : Operation) (opcode : Int) : Decidable (operation.Matches opcode) :=
  inferInstanceAs (Decidable (_ ∧ _))

variable {operation : Operation} {selector : Nat}

/-- Where a pattern has a digit, the selector has it too, and the mask keeps it. -/
theorem selector_fixed (selects : operation.selector = some selector) (inside : place < 4)
    {digit : Nat} (fixed : operation.fixed? place = some digit) :
    digitAt selector place = digit ∧
      digitAt (Instruction.selectorMask (digitAt selector 3)) place = 0xF := by
  have table : ∀ operation ∈ all, ∀ selector ∈ operation.selector, ∀ place < 4,
      ∀ digit ∈ operation.fixed? place, digitAt selector place = digit ∧
        digitAt (Instruction.selectorMask (digitAt selector 3)) place = 0xF := by decide +kernel
  exact table operation operation.mem_all selector selects place inside digit fixed

/-- Where a pattern has a letter, the mask keeps nothing, and the selector has nothing. -/
theorem selector_free (selects : operation.selector = some selector) (inside : place < 4)
    (free : operation.fixed? place = none) :
    digitAt selector place = 0 ∧
      digitAt (Instruction.selectorMask (digitAt selector 3)) place = 0 := by
  have table : ∀ operation ∈ all, ∀ selector ∈ operation.selector, ∀ place < 4,
      operation.fixed? place = none → digitAt selector place = 0 ∧
        digitAt (Instruction.selectorMask (digitAt selector 3)) place = 0 := by decide +kernel
  exact table operation operation.mem_all selector selects place inside free

theorem selector_lt (operation : Operation) : operation.selector.getD 0 < 0x10000 := by
  have table : ∀ operation ∈ all, operation.selector.getD 0 < 0x10000 := by decide
  exact table operation operation.mem_all

/-- Only machine code is not selected. -/
theorem selector_eq_none_iff : operation.selector = none ↔ operation = machineCode := by
  have table : ∀ operation ∈ all, operation.selector = none ↔ operation = machineCode := by decide
  exact table operation operation.mem_all

/-- What an operation's words have in common has the digits of its pattern, and nothing in the
places that its operands fill. -/
theorem selector_filled (operation : Operation) (inside : place < 4) :
    digitAt (operation.selector.getD 0 : Nat) place = (operation.fixed? place).getD 0 ∧
      (place ∈ operation.operands.places ↔ operation.fixed? place = none) := by
  have table : ∀ operation ∈ all, ∀ place < 4,
      digitAt (operation.selector.getD 0 : Nat) place = (operation.fixed? place).getD 0 ∧
        (place ∈ operation.operands.places ↔ operation.fixed? place = none) := by decide +kernel
  exact table operation operation.mem_all place inside

end Operation

/-! ### Masks -/

namespace Instruction

/-- What the decoder keeps of a word. -/
def kept (opcode : Int) : Nat :=
  (opcode % 0x10000).toNat &&& selectorMask (opcode / 0x1000)

theorem digitAt_kept (inside : place < 4) :
    digitAt (kept opcode) place =
      digitAt opcode place &&& digitAt (selectorMask (opcode / 0x1000)) place := by
  rw [kept, digitAt_and, digitAt_low inside]

theorem kept_le (opcode : Int) : 0 ≤ (kept opcode : Int) ∧ (kept opcode : Int) ≤ 0xFFFF := by
  have bound : kept opcode ≤ (opcode % 0x10000).toNat := Nat.and_le_left
  omega

/-- A digit under a full mask is kept. -/
theorem and_full (opcode : Int) (place : Nat) :
    digitAt opcode place &&& 0xF = digitAt opcode place :=
  Nat.and_two_pow_sub_one_of_lt_two_pow (n := 4) (digitAt_lt opcode place)

/-- Every mask keeps the leading digit. -/
theorem digitAt_selectorMask (lead : Int) : digitAt (selectorMask lead) 3 = 0xF := by
  unfold selectorMask
  split_ifs <;> rfl

theorem lead_kept (opcode : Int) : digitAt (kept opcode) 3 = digitAt opcode 3 := by
  rw [digitAt_kept (by decide), digitAt_selectorMask, and_full]

theorem lead_of_word (word : 0 ≤ opcode ∧ opcode ≤ 0xFFFF) :
    opcode / 0x1000 = digitAt opcode 3 := by
  unfold digitAt
  omega

/-- What is kept of a word selects an operation if the word has the digits of its pattern. -/
theorem selector_eq_kept_iff {operation : Operation} (word : 0 ≤ opcode ∧ opcode ≤ 0xFFFF)
    (selected : operation ≠ .machineCode) :
    operation.selector = some (kept opcode) ↔ operation.Fits opcode := by
  constructor
  · intro selects place inside digit fixed
    obtain ⟨here, full⟩ := operation.selector_fixed selects inside fixed
    rw [lead_kept, ← lead_of_word word] at full
    rw [← here, digitAt_kept inside, full, and_full]
  · intro fits
    cases selects : operation.selector with
    | none => exact absurd (Operation.selector_eq_none_iff.mp selects) selected
    | some selector =>
      -- The mask goes by the leading digit of the word, the tables by that of the selector.
      have lead : opcode / 0x1000 = digitAt selector 3 := by
        rw [lead_of_word word]
        cases fixed : operation.fixed? 3 with
        | none =>
          have nothing := (operation.selector_free selects (by decide) fixed).2
          rw [digitAt_selectorMask] at nothing
          cases nothing
        | some digit =>
          rw [fits 3 (by decide) digit fixed,
            (operation.selector_fixed selects (by decide) fixed).1]
      have bound := operation.selector_lt
      rw [selects, Option.getD_some] at bound
      have same : (selector : Int) = kept opcode := by
        refine eq_of_digits (by omega) (kept_le opcode) fun place inside => ?_
        rw [digitAt_kept inside, lead]
        cases fixed : operation.fixed? place with
        | none =>
          obtain ⟨here, empty⟩ := operation.selector_free selects inside fixed
          rw [here, empty, Nat.and_zero]
        | some digit =>
          obtain ⟨here, full⟩ := operation.selector_fixed selects inside fixed
          rw [here, full, and_full, fits place inside digit fixed]
      rw [Int.ofNat_inj.mp same]

/-! ### Words -/

theorem decode_of_selector {operation : Operation}
    (selects : operation.selector = some (kept opcode)) :
    decode opcode address = .ok (ofFields operation opcode) := by
  have found := Operation.ofSelector?_selector operation _ selects
  rw [kept] at found
  simp only [decode, found]

theorem decode_of_unselected (unselected : ∀ operation : Operation,
    operation.selector ≠ some (kept opcode)) :
    decode opcode address = if opcode / 0x1000 = 0 then .ok (ofFields .machineCode opcode)
      else .error (.unknownOpcode opcode address) := by
  have absent : Operation.ofSelector? (kept opcode) = none := by
    cases found : Operation.ofSelector? (kept opcode) with
    | none => rfl
    | some operation =>
      exact absurd (Operation.ofSelector?_eq_some_iff.mp found) (unselected operation)
  rw [kept] at absent
  simp only [decode, absent]

/-- What is accepted was selected, or is machine code because nothing was. -/
theorem selected_of_decode {instruction : Instruction}
    (decoded : decode opcode address = .ok instruction) :
    (∃ operation : Operation, operation.selector = some (kept opcode) ∧
        instruction = ofFields operation opcode) ∨
      opcode / 0x1000 = 0 ∧ instruction = ofFields .machineCode opcode ∧
        ∀ operation : Operation, operation.selector ≠ some (kept opcode) := by
  by_cases selected : ∃ operation : Operation, operation.selector = some (kept opcode)
  · obtain ⟨operation, selects⟩ := selected
    rw [decode_of_selector selects] at decoded
    cases decoded
    exact .inl ⟨operation, selects, rfl⟩
  · have unselected := not_exists.mp selected
    rw [decode_of_unselected unselected] at decoded
    split at decoded
    · next lead =>
      cases decoded
      exact .inr ⟨lead, rfl, unselected⟩
    · cases decoded

theorem fits_machineCode_iff (word : 0 ≤ opcode ∧ opcode ≤ 0xFFFF) :
    Operation.machineCode.Fits opcode ↔ opcode / 0x1000 = 0 := by
  have fixed :
      ∀ place < 4, ∀ digit ∈ Operation.machineCode.fixed? place, place = 3 ∧ digit = 0 := by
    decide
  rw [lead_of_word word]
  constructor
  · intro fits
    exact congrArg Nat.cast (fits 3 (by decide) 0 rfl)
  · intro lead place inside digit member
    obtain ⟨rfl, rfl⟩ := fixed place inside digit member
    exact Int.ofNat_inj.mp lead

/-- A word is decoded as what it belongs to. -/
theorem decode_of_matches {operation : Operation} (word : 0 ≤ opcode ∧ opcode ≤ 0xFFFF)
    (belongs : operation.Matches opcode) :
    decode opcode address = .ok (ofFields operation opcode) := by
  obtain ⟨fits, other⟩ := belongs
  by_cases code : operation = .machineCode
  · subst code
    obtain ⟨clears, returns⟩ := other rfl
    have lead := (fits_machineCode_iff word).mp fits
    rw [decode_of_unselected, if_pos lead]
    -- Nothing else that begins with zero could have been selected.
    intro operation selects
    have table : ∀ operation ∈ Operation.all, ∀ selector ∈ operation.selector,
        digitAt selector 3 = 0 → operation = .clearDisplay ∨ operation = .returnFromCall := by
      decide
    have zero : digitAt (kept opcode) 3 = 0 := by
      rw [lead_kept]
      exact fits 3 (by decide) 0 rfl
    rcases table operation operation.mem_all _ selects zero with rfl | rfl
    · exact clears ((selector_eq_kept_iff word (by decide)).mp selects)
    · exact returns ((selector_eq_kept_iff word (by decide)).mp selects)
  · exact decode_of_selector ((selector_eq_kept_iff word code).mpr fits)

theorem matches_of_decode {instruction : Instruction} (word : 0 ≤ opcode ∧ opcode ≤ 0xFFFF)
    (decoded : decode opcode address = .ok instruction) :
    ∃ operation : Operation,
      operation.Matches opcode ∧ instruction = ofFields operation opcode := by
  rcases selected_of_decode decoded with ⟨operation, selects, rfl⟩ | ⟨lead, rfl, unselected⟩
  · have named : operation ≠ .machineCode := by
      rintro rfl
      cases selects
    exact ⟨operation, ⟨(selector_eq_kept_iff word named).mp selects, fun code => absurd code named⟩,
      rfl⟩
  · have unfit (operation : Operation) (named : operation ≠ .machineCode) :
        ¬ operation.Fits opcode := fun fits =>
      unselected operation ((selector_eq_kept_iff word named).mpr fits)
    exact ⟨.machineCode, ⟨(fits_machineCode_iff word).mpr lead, fun _ =>
      ⟨unfit _ (by decide), unfit _ (by decide)⟩⟩, rfl⟩

/-- The decoder accepts the words of the instruction set. -/
theorem decode_eq_ok_iff {instruction : Instruction} (word : 0 ≤ opcode ∧ opcode ≤ 0xFFFF) :
    decode opcode address = .ok instruction ↔
      ∃ operation : Operation, operation.Matches opcode ∧
        instruction = ofFields operation opcode := by
  refine ⟨matches_of_decode word, ?_⟩
  rintro ⟨operation, belongs, rfl⟩
  exact decode_of_matches word belongs

/-- A word belongs to no two operations. -/
theorem matches_unique {operation other : Operation} (word : 0 ≤ opcode ∧ opcode ≤ 0xFFFF)
    (belongs : operation.Matches opcode) (also : other.Matches opcode) : operation = other := by
  have decoded : decode opcode 0 = .ok (ofFields operation opcode) := decode_of_matches word belongs
  rw [decode_of_matches word also] at decoded
  exact (congrArg Instruction.operation (Except.ok.inj decoded)).symm

/-! ### Back to words -/

theorem operandBits_ofFields (operation : Operation) (opcode : Int) :
    (ofFields operation opcode).operandBits =
      (if 0 ∈ operation.operands.places then digitAt opcode 0 else 0 : Nat) +
        0x10 * (if 1 ∈ operation.operands.places then digitAt opcode 1 else 0 : Nat) +
        0x100 * (if 2 ∈ operation.operands.places then digitAt opcode 2 else 0 : Nat) := by
  unfold operandBits digitAt ofFields
  dsimp only
  cases operation.operands with
  | none => rfl
  | address | register | registerByte | registers | sprite =>
    simp +decide only [↓reduceIte]
    omega

/-- The digits of a pattern and the operands at their places make up the word. -/
theorem encode_of_fits {operation : Operation} (word : 0 ≤ opcode ∧ opcode ≤ 0xFFFF)
    (fits : operation.Fits opcode) : encode (ofFields operation opcode) = opcode := by
  have bound := operation.selector_lt
  have digit (place : Nat) (inside : place < 4) :
      digitAt opcode place = digitAt (operation.selector.getD 0 : Nat) place +
        if place ∈ operation.operands.places then digitAt opcode place else 0 := by
    obtain ⟨here, filled⟩ := operation.selector_filled inside
    rw [here]
    cases fixed : operation.fixed? place with
    | none =>
      rw [if_pos (filled.mpr fixed)]
      exact (Nat.zero_add _).symm
    | some digit =>
      have empty : place ∉ operation.operands.places := by
        rw [filled, fixed]
        nofun
      rw [if_neg empty, fits place inside digit fixed]
      rfl
  have last : 3 ∉ operation.operands.places := fun filled =>
    absurd (Operands.lt_of_mem_places filled) (by decide)
  have zero := digit 0 (by decide)
  have one := digit 1 (by decide)
  have two := digit 2 (by decide)
  have three := digit 3 (by decide)
  rw [if_neg last] at three
  have selects : (0 : Int) ≤ (operation.selector.getD 0 : Nat) ∧
      ((operation.selector.getD 0 : Nat) : Int) ≤ 0xFFFF := by omega
  have selector := eq_digits selects
  have whole := eq_digits word
  rw [encode, operandBits_ofFields, operation_ofFields]
  omega

/-! ### Operands -/

/-- The operands of an instruction are bits of the word that it holds, and no more than fit. -/
structure Holds (instruction : Instruction) (opcode : Int) : Prop where
  word : instruction.opcode = opcode
  range : instruction.InRange
  x : instruction.x = bits opcode 8 4
  y : instruction.y = bits opcode 4 4
  n : instruction.n = bits opcode 0 4
  kk : instruction.kk = bits opcode 0 8
  nnn : instruction.nnn = bits opcode 0 12

theorem holds_of_decode {instruction : Instruction}
    (decoded : decode opcode address = .ok instruction) : instruction.Holds opcode := by
  have range := inRange_of_decode decoded
  obtain ⟨operation, rfl⟩ := fields_of_decode decoded
  refine ⟨rfl, range, ?_, ?_, ?_, ?_, ?_⟩ <;>
    rw [bits_eq] <;> simp only [ofFields] <;> omega

/-! ### Other integers -/

theorem selectorMask_of_not_word (outside : ¬ (0 ≤ opcode ∧ opcode ≤ 0xFFFF)) :
    selectorMask (opcode / 0x1000) = 0xF000 := by
  unfold selectorMask
  rw [if_neg (by omega), if_neg (by omega), if_neg (by omega)]

/-- Of an integer that is no word only one digit is kept. -/
theorem kept_of_not_word (outside : ¬ (0 ≤ opcode ∧ opcode ≤ 0xFFFF)) :
    kept opcode = 0x1000 * digitAt opcode 3 := by
  have bound := digitAt_lt opcode 3
  have same : (kept opcode : Int) = (0x1000 * digitAt opcode 3 : Nat) := by
    refine eq_of_digits (kept_le opcode) (by omega) fun place inside => ?_
    rw [digitAt_kept inside, selectorMask_of_not_word outside]
    obtain rfl | below : place = 3 ∨ place < 3 := by omega
    · show digitAt opcode 3 &&& 0xF = _
      rw [and_full, digitAt_natCast]
      omega
    · have empty : ∀ place < 3, digitAt (0xF000 : Nat) place = 0 := by decide
      rw [empty place below, Nat.and_zero, digitAt_natCast]
      obtain rfl | rfl | rfl : place = 0 ∨ place = 1 ∨ place = 2 := by omega
      all_goals omega
  exact Int.ofNat_inj.mp same

/-- An integer that is no word is accepted if this digit selects on its own. -/
theorem decode_of_not_word (outside : ¬ (0 ≤ opcode ∧ opcode ≤ 0xFFFF)) :
    ((∃ instruction, decode opcode address = .ok instruction) ↔
        1 ≤ digitAt opcode 3 ∧ digitAt opcode 3 ≤ 0xD) ∧
      ∀ instruction, decode opcode address = .ok instruction →
        instruction.operation.selector = some ((opcode % 0x10000).toNat &&& 0xF000) := by
  have selects (instruction : Instruction) (decoded : decode opcode address = .ok instruction) :
      instruction.operation.selector = some (kept opcode) := by
    rcases selected_of_decode decoded with ⟨operation, selects, rfl⟩ | ⟨lead, -, -⟩
    · exact selects
    · omega
  have table : ∀ lead < 0x10, (∃ operation ∈ Operation.all,
      operation.selector = some (0x1000 * lead)) ↔ 1 ≤ lead ∧ lead ≤ 0xD := by decide
  have digit := table _ (digitAt_lt opcode 3)
  rw [← kept_of_not_word outside] at digit
  rw [← digit]
  refine ⟨⟨?_, ?_⟩, fun instruction decoded => ?_⟩
  · rintro ⟨instruction, decoded⟩
    exact ⟨_, Operation.mem_all _, selects instruction decoded⟩
  · rintro ⟨operation, -, selected⟩
    exact ⟨_, decode_of_selector selected⟩
  · rw [selects instruction decoded, kept, selectorMask_of_not_word outside]

end Instruction

end Chip8
