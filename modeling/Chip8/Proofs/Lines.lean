/-
This file reads the report of a cycle as a list of changes.

A report is in order: the registers by number, then index, stack, delay and
sound timer, then what was noted of memory, by address, or of the display, and
last the program counter. There is at most one line for each. A line for a part
that is compared is there exactly if the part differs, with both values, so
going through the lines and changing what they name takes the parts from what
they were to what they are. No two effects are told in the same line of text, so
all of this holds of the lines as well.
-/

import Mathlib.Data.List.Basic
import Chip8.Machine.Effect
import Chip8.Proofs.Numerals

namespace Chip8

theorem Registers.ext_get {first second : Registers}
    (same : ∀ number, first.get number = second.get number) : first = second := by
  obtain ⟨values⟩ := first
  obtain ⟨others⟩ := second
  exact congrArg Registers.mk (Vector.ext fun number bound => same ⟨number, bound⟩)

namespace Effect

variable {before after : Visible} {notes effects others : List Effect} {number : Fin 16}
  {low middle high : Nat}

/-! ### The order of the lines -/

/-- The parts of a machine, in the order they are reported in. -/
def part : Effect → Nat
  | register _ _ _ => 0
  | index _ _ => 1
  | pushed _ | popped _ => 2
  | delay _ _ => 3
  | sound _ _ => 4
  | stored _ _ => 5
  | displayCleared | displayDrawn _ => 6
  | programCounter _ _ => 7

/-- Where in its part an effect lies: the number of a register, the address of a byte. -/
def place : Effect → Int
  | register number _ _ => number.val
  | stored address _ => address
  | _ => 0

/-- One effect is reported before another, and not in its stead. -/
def Precedes (first second : Effect) : Prop :=
  first.part < second.part ∨ first.part = second.part ∧ first.place < second.place

/-- Effects in order, on the parts from one up to another. -/
structure Spans (low high : Nat) (effects : List Effect) : Prop where
  ordered : effects.Pairwise Precedes
  within : ∀ effect ∈ effects, low ≤ effect.part ∧ effect.part < high

theorem Spans.append (first : Spans low middle effects) (second : Spans middle high others)
    (up : low ≤ middle) (upper : middle ≤ high) : Spans low high (effects ++ others) where
  ordered := by
    refine List.pairwise_append.mpr ⟨first.ordered, second.ordered, ?_⟩
    intro earlier inFirst later inSecond
    exact .inl (Nat.lt_of_lt_of_le (first.within earlier inFirst).2
      (second.within later inSecond).1)
  within := by
    refine List.forall_mem_append.mpr ⟨fun effect member => ?_, fun effect member => ?_⟩
    · obtain ⟨above, below⟩ := first.within effect member
      omega
    · obtain ⟨above, below⟩ := second.within effect member
      omega

theorem Spans.mono {lower higher : Nat} (spans : Spans low high effects) (down : lower ≤ low)
    (up : high ≤ higher) : Spans lower higher effects where
  ordered := spans.ordered
  within effect member := by
    obtain ⟨above, below⟩ := spans.within effect member
    omega

theorem spans_nil : Spans low high [] :=
  ⟨.nil, fun _ absent => absurd absent List.not_mem_nil⟩

theorem spans_singleton (effect : Effect) : Spans effect.part (effect.part + 1) [effect] where
  ordered := List.pairwise_singleton _ _
  within _ member := by
    rw [List.mem_singleton.mp member]
    omega

theorem spans_ofDifference {α : Type} [DecidableEq α] (effect : α → α → Effect) (old new : α)
    (fixed : (effect old new).part = low) : Spans low (low + 1) (ofDifference effect old new) := by
  unfold ofDifference
  split
  · exact spans_nil
  · rw [← fixed]
    exact spans_singleton _

theorem spans_ofStacks (old new : List Int) : Spans 2 3 (ofStacks old new) := by
  unfold ofStacks
  split
  · exact spans_singleton (pushed _)
  · split
    · exact spans_singleton (popped _)
    · exact spans_nil

theorem mem_ofDifference {α : Type} [DecidableEq α] {make : α → α → Effect} {old new : α}
    {effect : Effect} :
    effect ∈ ofDifference make old new ↔ old ≠ new ∧ effect = make old new := by
  unfold ofDifference
  split
  · next same => simp [same]
  · next differ => simp [differ]

theorem mem_ofRegisters {old new : Registers} {effect : Effect} :
    effect ∈ ofRegisters old new ↔
      ∃ number, old.get number ≠ new.get number ∧
        effect = register number (old.get number) (new.get number) := by
  simp only [ofRegisters, List.mem_flatMap, List.mem_finRange, true_and, mem_ofDifference]

theorem spans_ofRegisters (old new : Registers) : Spans 0 1 (ofRegisters old new) where
  ordered := by
    refine List.pairwise_flatMap.mpr ⟨fun number _ => ?_, ?_⟩
    · exact (spans_ofDifference (register number) _ _ rfl).ordered
    · refine (List.pairwise_lt_finRange 16).imp fun {first second} below => ?_
      intro earlier inFirst later inSecond
      obtain ⟨-, rfl⟩ := mem_ofDifference.mp inFirst
      obtain ⟨-, rfl⟩ := mem_ofDifference.mp inSecond
      exact .inr ⟨rfl, Int.ofNat_lt.mpr below⟩
  within effect member := by
    obtain ⟨_, -, rfl⟩ := mem_ofRegisters.mp member
    exact ⟨Nat.le_refl 0, Nat.zero_lt_one⟩

theorem spans_between (noted : Spans 5 7 notes) : Spans 0 8 (between before after notes) := by
  have registers := spans_ofRegisters before.registers after.registers
  have index : Spans 1 2 _ := spans_ofDifference index before.index after.index rfl
  have stack := spans_ofStacks before.stack after.stack
  have delay : Spans 3 4 _ := spans_ofDifference delay before.timers.delay after.timers.delay rfl
  have sound : Spans 4 5 _ := spans_ofDifference sound before.timers.sound after.timers.sound rfl
  have programCounter : Spans 7 8 _ :=
    spans_ofDifference programCounter before.programCounter after.programCounter rfl
  have compared : Spans 0 5 _ := (((registers.append index (by decide) (by decide)).append stack
    (by decide) (by decide)).append delay (by decide) (by decide)).append sound (by decide)
    (by decide)
  exact (compared.append noted (by decide) (by decide)).append programCounter (by decide)
    (by decide)

/-! ### Which lines there are -/

/-- One stack comes of another by at most one push or pop. -/
inductive Adjacent (old : List Int) : List Int → Prop
  | pushed (address : Int) : Adjacent old (old ++ [address])
  | popped {new : List Int} (address : Int) (whole : old = new ++ [address]) : Adjacent old new
  | same : Adjacent old old

theorem ofStacks_pushed (old : List Int) (address : Int) :
    ofStacks old (old ++ [address]) = [pushed address] := by
  rw [ofStacks, if_pos (by rw [List.length_append]; exact Nat.lt_succ_self _),
    List.getLastD_concat]

theorem ofStacks_popped (new : List Int) (address : Int) :
    ofStacks (new ++ [address]) new = [popped address] := by
  rw [ofStacks, if_neg (by rw [List.length_append]; omega),
    if_pos (by rw [List.length_append]; exact Nat.lt_succ_self _), List.getLastD_concat]

theorem ofStacks_same (stack : List Int) : ofStacks stack stack = [] := by
  rw [ofStacks, if_neg (Nat.lt_irrefl _), if_neg (Nat.lt_irrefl _)]

theorem mem_ofStacks {old new : List Int} (adjacent : Adjacent old new) {effect : Effect} :
    effect ∈ ofStacks old new ↔
      (∃ address, effect = pushed address ∧ new = old ++ [address]) ∨
        ∃ address, effect = popped address ∧ old = new ++ [address] := by
  cases adjacent with
  | pushed address =>
    rw [ofStacks_pushed]
    simp
  | popped address whole =>
    rw [whole, ofStacks_popped]
    simp
  | same =>
    rw [ofStacks_same]
    simp

theorem mem_between {effect : Effect} :
    effect ∈ between before after notes ↔
      effect ∈ ofRegisters before.registers after.registers ∨
        effect ∈ ofDifference index before.index after.index ∨
        effect ∈ ofStacks before.stack after.stack ∨
        effect ∈ ofDifference delay before.timers.delay after.timers.delay ∨
        effect ∈ ofDifference sound before.timers.sound after.timers.sound ∨
        effect ∈ notes ∨
        effect ∈ ofDifference programCounter before.programCounter after.programCounter := by
  simp only [between, List.mem_append, or_assoc]

/-- Two values are those before and after a change. -/
def Tells {α : Type} (before after old new : α) : Prop :=
  old = before ∧ new = after ∧ before ≠ after

/-- What a report has to say of the parts that are compared. -/
structure Compares (before after : Visible) (effects : List Effect) : Prop where
  registers : ∀ number old new, register number old new ∈ effects ↔
    Tells (before.registers.get number) (after.registers.get number) old new
  index : ∀ old new, index old new ∈ effects ↔ Tells before.index after.index old new
  pushed : ∀ address, pushed address ∈ effects ↔ after.stack = before.stack ++ [address]
  popped : ∀ address, popped address ∈ effects ↔ before.stack = after.stack ++ [address]
  delay : ∀ old new, delay old new ∈ effects ↔
    Tells before.timers.delay after.timers.delay old new
  sound : ∀ old new, sound old new ∈ effects ↔
    Tells before.timers.sound after.timers.sound old new
  programCounter : ∀ old new, programCounter old new ∈ effects ↔
    Tells before.programCounter after.programCounter old new

/-- Only memory and display are noted. -/
theorem not_mem_of_spans {effect : Effect} (noted : Spans 5 7 notes)
    (outside : effect.part < 5 ∨ 7 ≤ effect.part) : effect ∉ notes := by
  intro member
  have bounds := noted.within effect member
  omega

/-- What is told of the parts that are compared comes from comparing them. -/
theorem mem_between_of_compared {effect : Effect} (adjacent : Adjacent before.stack after.stack)
    (noted : Spans 5 7 notes) (outside : effect.part < 5 ∨ 7 ≤ effect.part) :
    effect ∈ between before after notes ↔
      (∃ number, before.registers.get number ≠ after.registers.get number ∧
        effect = register number (before.registers.get number) (after.registers.get number)) ∨
      (before.index ≠ after.index ∧ effect = index before.index after.index) ∨
      ((∃ address, effect = pushed address ∧ after.stack = before.stack ++ [address]) ∨
        ∃ address, effect = popped address ∧ before.stack = after.stack ++ [address]) ∨
      (before.timers.delay ≠ after.timers.delay ∧
        effect = delay before.timers.delay after.timers.delay) ∨
      (before.timers.sound ≠ after.timers.sound ∧
        effect = sound before.timers.sound after.timers.sound) ∨
      (before.programCounter ≠ after.programCounter ∧
        effect = programCounter before.programCounter after.programCounter) := by
  simp only [mem_between, mem_ofRegisters, mem_ofDifference, mem_ofStacks adjacent,
    not_mem_of_spans noted outside, false_or]

theorem compares_between (adjacent : Adjacent before.stack after.stack) (noted : Spans 5 7 notes) :
    Compares before after (between before after notes) where
  registers number old new := by
    rw [mem_between_of_compared adjacent noted (by simp [part])]
    simp only [register.injEq, reduceCtorEq, and_false, false_and, exists_false, or_false]
    constructor
    · rintro ⟨_, differ, rfl, was, is⟩
      exact ⟨was, is, differ⟩
    · rintro ⟨was, is, differ⟩
      exact ⟨number, differ, rfl, was, is⟩
  index old new := by
    rw [mem_between_of_compared adjacent noted (by simp [part])]
    simp only [index.injEq, reduceCtorEq, and_false, false_and, exists_false, or_false, false_or]
    exact and_rotate
  pushed address := by
    rw [mem_between_of_compared adjacent noted (by simp [part])]
    simp only [pushed.injEq, reduceCtorEq, and_false, false_and, exists_false, or_false, false_or,
      exists_eq_left']
  popped address := by
    rw [mem_between_of_compared adjacent noted (by simp [part])]
    simp only [popped.injEq, reduceCtorEq, and_false, false_and, exists_false, or_false, false_or,
      exists_eq_left']
  delay old new := by
    rw [mem_between_of_compared adjacent noted (by simp [part])]
    simp only [delay.injEq, reduceCtorEq, and_false, false_and, exists_false, or_false, false_or]
    exact and_rotate
  sound old new := by
    rw [mem_between_of_compared adjacent noted (by simp [part])]
    simp only [sound.injEq, reduceCtorEq, and_false, false_and, exists_false, or_false, false_or]
    exact and_rotate
  programCounter old new := by
    rw [mem_between_of_compared adjacent noted (by simp [part])]
    simp only [programCounter.injEq, reduceCtorEq, and_false, false_and, exists_false, false_or]
    exact and_rotate

/-- What is noted, and nothing else, is told of memory and display. -/
theorem mem_between_of_noted {effect : Effect} (adjacent : Adjacent before.stack after.stack)
    (inside : 5 ≤ effect.part ∧ effect.part < 7) :
    effect ∈ between before after notes ↔ effect ∈ notes := by
  rw [mem_between, mem_ofRegisters, mem_ofStacks adjacent]
  simp only [mem_ofDifference]
  refine ⟨fun member => ?_, fun noted => .inr (.inr (.inr (.inr (.inr (.inl noted)))))⟩
  obtain ⟨above, below⟩ := inside
  -- An effect of any other list is on a part that is compared.
  rcases member with ⟨_, -, rfl⟩ | ⟨-, rfl⟩ | (⟨_, rfl, -⟩ | ⟨_, rfl, -⟩) | ⟨-, rfl⟩ | ⟨-, rfl⟩ |
    noted | ⟨-, rfl⟩
  case inr.inr.inr.inr.inr.inl => exact noted
  all_goals simp [part] at above below

theorem between_same (visible : Visible) : between visible visible [] = [] := by
  simp [between, ofRegisters, ofDifference, ofStacks]

/-! ### Going through the lines -/

/-- The parts of a machine that lines tell of with their values. -/
structure Ledger extends Visible where
  memory : Memory

/-- Changes the part that a line tells of. -/
def replay (ledger : Ledger) : Effect → Ledger
  | register number _ new => { ledger with registers := ledger.registers.set number new }
  | index _ new => { ledger with index := new }
  | pushed address => { ledger with stack := ledger.stack ++ [address] }
  | popped _ => { ledger with stack := ledger.stack.dropLast }
  | delay _ new => { ledger with timers := { ledger.timers with delay := new } }
  | sound _ new => { ledger with timers := { ledger.timers with sound := new } }
  | stored address byte => { ledger with memory := ledger.memory.place address [byte] }
  | displayCleared | displayDrawn _ => ledger
  | programCounter _ new => { ledger with programCounter := new }

/-- Goes through the lines one by one. -/
def replayAll (ledger : Ledger) (effects : List Effect) : Ledger :=
  effects.foldl replay ledger

theorem replayAll_append (ledger : Ledger) (first second : List Effect) :
    replayAll ledger (first ++ second) = replayAll (replayAll ledger first) second :=
  List.foldl_append

/-- The line of one register, if it has one, brings that register up to date. -/
theorem replayAll_register (ledger : Ledger) (old new current : Registers) (number : Fin 16)
    (known : current.get number = old.get number ∨ current.get number = new.get number) :
    ∃ registers : Registers,
      replayAll { ledger with registers := current }
          (ofDifference (register number) (old.get number) (new.get number)) =
        { ledger with registers := registers } ∧
      registers.get number = new.get number ∧
      ∀ other, number ≠ other → registers.get other = current.get other := by
  unfold ofDifference
  split
  · next same =>
    refine ⟨current, rfl, ?_, fun _ _ => rfl⟩
    rcases known with was | is
    · exact was.trans same
    · exact is
  · exact ⟨current.set number (new.get number), rfl, Registers.get_set_self _ _ _,
      fun other differ => Registers.get_set_other _ _ _ _ differ⟩

/-- The lines of the registers bring them up to date one by one: those gone through hold their
new bytes, and any others what they held. -/
theorem replayAll_registers (ledger : Ledger) (old new : Registers) (numbers : List (Fin 16))
    (current : Registers)
    (known : ∀ number, current.get number = old.get number ∨
      current.get number = new.get number) :
    ∃ registers : Registers,
      replayAll { ledger with registers := current } (numbers.flatMap fun number =>
          ofDifference (register number) (old.get number) (new.get number)) =
        { ledger with registers := registers } ∧
      ∀ number, registers.get number = new.get number ∨
        number ∉ numbers ∧ registers.get number = current.get number := by
  induction numbers generalizing current with
  | nil => exact ⟨current, rfl, fun number => .inr ⟨List.not_mem_nil, rfl⟩⟩
  | cons first rest inductionHypothesis =>
    obtain ⟨next, stepped, updated, kept⟩ :=
      replayAll_register ledger old new current first (known first)
    have still : ∀ number, next.get number = old.get number ∨ next.get number = new.get number := by
      intro number
      by_cases same : first = number
      · exact .inr (same ▸ updated)
      · rw [kept number same]
        exact known number
    obtain ⟨registers, ran, values⟩ := inductionHypothesis next still
    refine ⟨registers, ?_, fun number => ?_⟩
    · rw [List.flatMap_cons, replayAll_append, stepped, ran]
    · obtain renewed | ⟨notInRest, held⟩ := values number
      · exact .inl renewed
      · by_cases same : number = first
        · exact .inl (held.trans (same ▸ updated))
        · exact .inr ⟨List.not_mem_cons_of_ne_of_not_mem same notInRest,
            held.trans (kept number (Ne.symm same))⟩

theorem replayAll_ofRegisters (ledger : Ledger) (new : Registers) :
    replayAll ledger (ofRegisters ledger.registers new) = { ledger with registers := new } := by
  obtain ⟨registers, ran, values⟩ :=
    replayAll_registers ledger ledger.registers new (List.finRange 16) ledger.registers
      fun _ => .inl rfl
  have same : registers = new := Registers.ext_get fun number =>
    (values number).resolve_right fun kept => kept.1 (List.mem_finRange number)
  exact ran.trans (same ▸ rfl)

/-- The line of a part that is compared brings it up to date. -/
theorem replayAll_ofDifference {α : Type} [DecidableEq α] (ledger : Ledger)
    (make : α → α → Effect) (old new : α) (update : α → Ledger) (current : update old = ledger)
    (told : replay ledger (make old new) = update new) :
    replayAll ledger (ofDifference make old new) = update new := by
  unfold ofDifference
  split
  · next same => exact current.symm.trans (same ▸ rfl)
  · exact told

theorem replayAll_ofStacks (ledger : Ledger) {new : List Int}
    (adjacent : Adjacent ledger.stack new) :
    replayAll ledger (ofStacks ledger.stack new) = { ledger with stack := new } := by
  generalize same : ledger.stack = old at adjacent
  cases adjacent with
  | pushed address =>
    rw [ofStacks_pushed, ← same]
    rfl
  | popped address whole =>
    rw [whole, ofStacks_popped]
    show { ledger with stack := ledger.stack.dropLast } = _
    rw [same, whole, List.dropLast_concat]
  | same =>
    rw [ofStacks_same, ← same]
    rfl

/-- Going through a report takes the parts from what they were to what they are, if what is noted
does so for memory. -/
theorem replayAll_between (adjacent : Adjacent before.stack after.stack) {old new : Memory}
    (noted : ∀ visible, replayAll ⟨visible, old⟩ notes = ⟨visible, new⟩) :
    replayAll ⟨before, old⟩ (between before after notes) = ⟨after, new⟩ := by
  let upToIndex : Visible := { before with registers := after.registers, index := after.index }
  let upToStack : Visible := { upToIndex with stack := after.stack }
  have registers : replayAll ⟨before, old⟩ (ofRegisters before.registers after.registers) =
      ⟨{ before with registers := after.registers }, old⟩ := replayAll_ofRegisters ⟨before, old⟩ _
  have index : replayAll ⟨{ before with registers := after.registers }, old⟩
      (ofDifference index before.index after.index) = ⟨upToIndex, old⟩ :=
    replayAll_ofDifference _ _ _ _ (fun index => ⟨{ upToIndex with index := index }, old⟩) rfl rfl
  have stack : replayAll ⟨upToIndex, old⟩ (ofStacks before.stack after.stack) =
      ⟨upToStack, old⟩ := replayAll_ofStacks ⟨upToIndex, old⟩ adjacent
  have delay : replayAll ⟨upToStack, old⟩
      (ofDifference delay before.timers.delay after.timers.delay) =
        ⟨{ upToStack with timers := ⟨after.timers.delay, before.timers.sound⟩ }, old⟩ :=
    replayAll_ofDifference _ _ _ _
      (fun delay => ⟨{ upToStack with timers := ⟨delay, before.timers.sound⟩ }, old⟩) rfl rfl
  have sound :
      replayAll ⟨{ upToStack with timers := ⟨after.timers.delay, before.timers.sound⟩ }, old⟩
          (ofDifference sound before.timers.sound after.timers.sound) =
        ⟨{ upToStack with timers := after.timers }, old⟩ :=
    replayAll_ofDifference _ _ _ _
      (fun sound => ⟨{ upToStack with timers := ⟨after.timers.delay, sound⟩ }, old⟩) rfl rfl
  have programCounter : replayAll ⟨{ upToStack with timers := after.timers }, new⟩
      (ofDifference programCounter before.programCounter after.programCounter) = ⟨after, new⟩ :=
    replayAll_ofDifference _ _ _ _
      (fun programCounter => ⟨{ after with programCounter := programCounter }, new⟩) rfl rfl
  simp only [between, replayAll_append]
  rw [registers, index, stack, delay, sound, noted, programCounter]

/-! ### The lines as text -/

/-- What a line says of two values, after the name of the part. -/
def fromTo (width : Nat) (old new : Int) : List Char :=
  ": 0x".toList ++ (Hex.chars width old ++ (" -> 0x".toList ++ Hex.chars width new))

/-- The characters of the line of an effect. -/
def chars : Effect → List Char
  | register number old new =>
      "V".toList ++ ((Hex.chars 0 number.val).map Char.toUpper ++ fromTo 2 old.toNat new.toNat)
  | index old new => "I".toList ++ fromTo 3 old new
  | pushed address => "Stack: push 0x".toList ++ Hex.chars 3 address
  | popped address => "Stack: pop 0x".toList ++ Hex.chars 3 address
  | delay old new => "DT".toList ++ fromTo 2 old.toNat new.toNat
  | sound old new => "ST".toList ++ fromTo 2 old.toNat new.toNat
  | stored address byte =>
      "[0x".toList ++ (Hex.chars 3 address ++ ("]: 0x".toList ++ Hex.chars 2 byte.toNat))
  | displayCleared => "Display cleared".toList
  | displayDrawn hit => "Display drawn".toList ++ (if hit then " (collision)" else "").toList
  | programCounter old new => "PC".toList ++ fromTo 3 old new

theorem toList_append_lower (lead : String) (width : Nat) (value : Int) :
    (lead ++ Hex.lower width value).toList = lead.toList ++ Hex.chars width value := by
  rw [String.toList_append, Hex.lower, String.toList_ofList]

theorem toList_append_upper (lead : String) (value : Int) :
    (lead ++ Hex.upper value).toList = lead.toList ++ (Hex.chars 0 value).map Char.toUpper := by
  rw [String.toList_append, Hex.upper, String.toList_ofList]

theorem toList_text (effect : Effect) : effect.text.toList = effect.chars := by
  have two (lead between : String) (width width' : Nat) (value value' : Int) :
      (lead ++ Hex.lower width value ++ between ++ Hex.lower width' value').toList =
        lead.toList ++ (Hex.chars width value ++ (between.toList ++ Hex.chars width' value')) := by
    rw [toList_append_lower, String.toList_append, toList_append_lower, List.append_assoc,
      List.append_assoc]
  have changed (name : String) (width : Nat) (old new : Int) :
      (name ++ ": 0x" ++ Hex.lower width old ++ " -> 0x" ++ Hex.lower width new).toList =
        name.toList ++ fromTo width old new := by
    rw [two, String.toList_append, List.append_assoc, fromTo]
  cases effect with
  | register number old new =>
    have named := changed ("V" ++ Hex.upper number.val) 2 old.toNat new.toNat
    rw [toList_append_upper, List.append_assoc] at named
    exact named
  | index old new => exact changed "I" 3 old new
  | delay old new => exact changed "DT" 2 old.toNat new.toNat
  | sound old new => exact changed "ST" 2 old.toNat new.toNat
  | programCounter old new => exact changed "PC" 3 old new
  | pushed address => exact toList_append_lower "Stack: push 0x" 3 address
  | popped address => exact toList_append_lower "Stack: pop 0x" 3 address
  | stored address byte => exact two "[0x" "]: 0x" 3 2 address byte.toNat
  | displayCleared => rfl
  | displayDrawn hit => exact String.toList_append

/-- Where a character ends what comes before it, nothing but that can have come before it. -/
theorem append_cons_inj {separator : Char} {first second rest rest' : List Char}
    (inFirst : separator ∉ first) (inSecond : separator ∉ second)
    (same : first ++ separator :: rest = second ++ separator :: rest') :
    first = second ∧ rest = rest' := by
  rcases List.append_eq_append_iff.mp same with ⟨more, whole, tail⟩ | ⟨more, whole, tail⟩
  · cases more with
    | nil => exact ⟨(List.append_nil first ▸ whole).symm, List.tail_eq_of_cons_eq tail⟩
    | cons char more =>
      rw [List.cons_append, List.cons.injEq] at tail
      exact absurd (whole ▸ List.mem_append_right first (tail.1 ▸ List.mem_cons_self)) inSecond
  · cases more with
    | nil => exact ⟨List.append_nil second ▸ whole, (List.tail_eq_of_cons_eq tail).symm⟩
    | cons char more =>
      rw [List.cons_append, List.cons.injEq] at tail
      exact absurd (whole ▸ List.mem_append_right second (tail.1 ▸ List.mem_cons_self)) inFirst

theorem fromTo_inj {width : Nat} {old new old' new' : Int}
    (same : fromTo width old new = fromTo width old' new') : old = old' ∧ new = new' := by
  have blank (value : Int) : ' ' ∉ Hex.chars width value :=
    Hex.not_mem_chars (by decide) (by decide) _ _
  obtain ⟨was, is⟩ := append_cons_inj (blank old) (blank old') (List.append_cancel_left same)
  have last : "-> 0x".toList ++ Hex.chars width new = "-> 0x".toList ++ Hex.chars width new' := is
  exact ⟨Hex.chars_injective _ was, Hex.chars_injective _ (List.append_cancel_left last)⟩

/-- How the lines of a part begin. -/
def lead (part : Nat) : List Char :=
  ["V", "I", "Stack: p", "DT", "ST", "[", "Display ", "PC"][part]?.getD "" |>.toList

theorem begins_with_lead (effect : Effect) : lead effect.part <+: effect.chars := by
  have begins {part : Nat} {text rest : List Char} (literal : lead part <+: text) :
      lead part <+: text ++ rest := literal.trans (List.prefix_append _ _)
  cases effect with
  | register => exact begins (show lead 0 <+: "V".toList by decide)
  | index => exact begins (show lead 1 <+: "I".toList by decide)
  | pushed => exact begins (show lead 2 <+: "Stack: push 0x".toList by decide)
  | popped => exact begins (show lead 2 <+: "Stack: pop 0x".toList by decide)
  | delay => exact begins (show lead 3 <+: "DT".toList by decide)
  | sound => exact begins (show lead 4 <+: "ST".toList by decide)
  | stored => exact begins (show lead 5 <+: "[0x".toList by decide)
  | displayCleared => exact show lead 6 <+: "Display cleared".toList by decide
  | displayDrawn => exact begins (show lead 6 <+: "Display drawn".toList by decide)
  | programCounter => exact begins (show lead 7 <+: "PC".toList by decide)

/-- A line tells by its beginning what part it is about. -/
theorem part_eq_of_chars {first second : Effect} (same : first.chars = second.chars) :
    first.part = second.part := by
  have apart : ∀ one < 8, ∀ other < 8, lead one <+: lead other → one = other := by decide
  have bounded (effect : Effect) : effect.part < 8 := by cases effect <;> simp [part]
  have ours : lead first.part <+: second.chars := same ▸ begins_with_lead first
  rcases List.prefix_or_prefix_of_prefix ours (begins_with_lead second) with within | within
  · exact apart _ (bounded first) _ (bounded second) within
  · exact (apart _ (bounded second) _ (bounded first) within).symm

/-- No two effects are told in the same line. -/
theorem text_injective : Function.Injective text := by
  intro first second same
  have chars : first.chars = second.chars := by rw [← toList_text, ← toList_text, same]
  have parts := part_eq_of_chars chars
  have bytes {old new old' new' : UInt8}
      (same : fromTo 2 old.toNat new.toNat = fromTo 2 old'.toNat new'.toNat) :
      old = old' ∧ new = new' := by
    obtain ⟨was, is⟩ := fromTo_inj same
    exact ⟨UInt8.toNat_inj.mp (Int.ofNat_inj.mp was), UInt8.toNat_inj.mp (Int.ofNat_inj.mp is)⟩
  -- Two kinds of effect on one part are told apart by the ninth character.
  have ninth := congrArg (fun text => text[8]?) chars
  cases first with
  | register number old new =>
    cases second with
    | register number' old' new' =>
      have colon : ∀ number : Fin 16, ':' ∉ (Hex.chars 0 number.val).map Char.toUpper := by decide
      have named : ∀ one other : Fin 16, (Hex.chars 0 one.val).map Char.toUpper =
          (Hex.chars 0 other.val).map Char.toUpper → one = other := by decide
      obtain ⟨name, rest⟩ :=
        append_cons_inj (colon number) (colon number') (List.append_cancel_left chars)
      obtain ⟨was, is⟩ := bytes (congrArg (':' :: ·) rest)
      rw [named number number' name, was, is]
    | _ => cases parts
  | index old new =>
    cases second with
    | index old' new' =>
      obtain ⟨was, is⟩ := fromTo_inj (List.append_cancel_left chars)
      rw [was, is]
    | _ => cases parts
  | pushed address =>
    cases second with
    | pushed address' =>
      rw [Hex.chars_injective 3 (List.append_cancel_left chars)]
    | popped address' => exact absurd (show some 'u' = some 'o' from ninth) (by decide)
    | _ => cases parts
  | popped address =>
    cases second with
    | popped address' =>
      rw [Hex.chars_injective 3 (List.append_cancel_left chars)]
    | pushed address' => exact absurd (show some 'o' = some 'u' from ninth) (by decide)
    | _ => cases parts
  | delay old new =>
    cases second with
    | delay old' new' =>
      obtain ⟨was, is⟩ := bytes (List.append_cancel_left chars)
      rw [was, is]
    | _ => cases parts
  | sound old new =>
    cases second with
    | sound old' new' =>
      obtain ⟨was, is⟩ := bytes (List.append_cancel_left chars)
      rw [was, is]
    | _ => cases parts
  | stored address byte =>
    cases second with
    | stored address' byte' =>
      have bracket (address : Int) : ']' ∉ Hex.chars 3 address :=
        Hex.not_mem_chars (by decide) (by decide) _ _
      obtain ⟨place, rest⟩ := append_cons_inj (bracket address) (bracket address')
        (List.append_cancel_left chars)
      have last : ": 0x".toList ++ Hex.chars 2 byte.toNat =
          ": 0x".toList ++ Hex.chars 2 byte'.toNat := rest
      have value := Hex.chars_injective 2 (List.append_cancel_left last)
      rw [Hex.chars_injective 3 place, UInt8.toNat_inj.mp (Int.ofNat_inj.mp value)]
    | _ => cases parts
  | displayCleared =>
    cases second with
    | displayCleared => rfl
    | displayDrawn hit => exact absurd (show some 'c' = some 'd' from ninth) (by decide)
    | _ => cases parts
  | displayDrawn hit =>
    cases second with
    | displayDrawn hit' =>
      have told : ∀ one other : Bool, (if one then " (collision)" else "").toList =
          (if other then " (collision)" else "").toList → one = other := by decide
      rw [told hit hit' (List.append_cancel_left chars)]
    | displayCleared => exact absurd (show some 'd' = some 'c' from ninth) (by decide)
    | _ => cases parts
  | programCounter old new =>
    cases second with
    | programCounter old' new' =>
      obtain ⟨was, is⟩ := fromTo_inj (List.append_cancel_left chars)
      rw [was, is]
    | _ => cases parts

end Effect

end Chip8
