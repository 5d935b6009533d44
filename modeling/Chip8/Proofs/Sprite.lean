/-
This file proves what drawing a sprite does to the picture, pixel by pixel.

What matters for a pixel is how many set bits of the sprite land on it once both
coordinates are wrapped. Drawing toggles the pixel once for each of them, so it
ends lit if either it was lit before or that number is odd, but not both. Some
toggle found a lit pixel exactly if a pixel that was lit has been landed on, or
any pixel twice. Neither depends on the order in which the bits are gone
through: the order is in the list of dots, and of the list only the counts
remain.

On the display of a machine a sprite never meets itself, because it is narrower
than the display and has fewer rows. A hit is then a set bit over a lit pixel.
-/

import Mathlib.Algebra.BigOperators.Fin
import Mathlib.Data.Fintype.BigOperators
import Mathlib.Data.Nat.Bits
import Mathlib.Data.Nat.Count
import Chip8.Proofs.Success
import Chip8.Proofs.WellFormed

namespace Chip8

namespace Display

variable {display after : Display} {x y : Int} {sprite : List UInt8} {column row : Nat} {hit : Bool}

/-! ### The picture by pixels -/

/-- Whether a pixel of the picture on the display is lit, if the picture has that pixel. -/
def pixel? (display : Display) (column row : Nat) : Option Bool := do
  let picture ← display.rows.toOption
  let pixels ← picture[row]?
  pixels[column]?

theorem Proper.rows_eq (proper : display.Proper) : display.rows = .ok display.grid := by
  rw [rows, if_neg (Int.ne_of_gt proper.width_pos)]

theorem Proper.pixel?_eq (proper : display.Proper) (column row : Nat) :
    display.pixel? column row =
      if column < display.width ∧ row < display.height then some (display.lit column row)
      else none := by
  unfold pixel?
  rw [proper.rows_eq]
  exact getElem?_grid display column row

/-! ### How often a pixel is landed on -/

/-- How many set bits of a sprite drawn at a place land on a pixel. Bit `j` of row `i`, counted
from the most significant one, goes `j` pixels to the right and `i` pixels down. -/
def hits (display : Display) (x y : Int) (sprite : List UInt8) (column row : Nat) : Nat :=
  (Finset.univ.filter fun bit : Fin sprite.length × Fin 8 =>
    sprite[bit.1].toNat.testBit (7 - bit.2) ∧
      (x + bit.2) % display.width = column ∧ (y + bit.1) % display.height = row).card

/-- How many of some dots, counted from a place, land on a pixel. -/
def landings (display : Display) (x y : Int) (column row : Nat) (dots : List (Int × Int)) : Nat :=
  dots.countP fun dot =>
    (x + dot.1) % display.width = column ∧ (y + dot.2) % display.height = row

theorem landings_cons (dot : Int × Int) (rest : List (Int × Int)) :
    display.landings x y column row (dot :: rest) =
      display.landings x y column row rest +
        if (x + dot.1) % display.width = column ∧ (y + dot.2) % display.height = row then 1
        else 0 := by
  simp only [landings, List.countP_cons, decide_eq_true_eq]

theorem hits_cons (byte : UInt8) :
    display.hits x y (byte :: sprite) column row =
      display.hits x y [byte] column row + display.hits x (y + 1) sprite column row := by
  have moved (number : Fin sprite.length) : y + (number.succ : Nat) = y + 1 + number := by
    rw [Fin.val_succ]
    omega
  simp only [hits, Finset.card_filter, Fintype.sum_prod_type]
  simp only [List.length_cons, Fin.sum_univ_succ, moved]
  rfl

theorem hits_singleton (byte : UInt8) :
    display.hits x y [byte] column row =
      display.landings x y column row ((columns byte).map fun across => (across, 0)) := by
  let lands (bit : Nat) : Prop := byte.toNat.testBit (7 - bit) ∧
    (x + bit) % display.width = column ∧ (y + 0) % display.height = row
  have counted : display.landings x y column row ((columns byte).map fun across => (across, 0)) =
      Nat.count lands 8 := by
    rw [landings, columns, List.map_map, List.countP_map, List.countP_filter, Nat.count]
    congr 1
    funext bit
    simp only [Function.comp, lands]
    grind
  rw [counted, Nat.count_eq_card_filter_range, Finset.card_filter, Finset.sum_range, hits,
    Finset.card_filter, Fintype.sum_prod_type]
  exact Fin.sum_univ_one _

/-- The dots of a sprite land where its set bits do. -/
theorem landings_dots (start : Int) :
    display.landings x y column row (dots start sprite) =
      display.hits x (y + start) sprite column row := by
  induction sprite generalizing start with
  | nil => rfl
  | cons byte rest inductionHypothesis =>
    have later := inductionHypothesis (start + 1)
    rw [landings, ← Int.add_assoc] at later
    rw [dots, landings, List.countP_append, later, hits_cons, hits_singleton, landings,
      List.countP_map, List.countP_map]
    congr 2
    funext across
    simp only [Function.comp, Int.add_zero]

/-- Only where the place wraps to matters. -/
theorem hits_emod :
    display.hits (x % display.width) (y % display.height) sprite column row =
      display.hits x y sprite column row := by
  simp only [hits, Int.emod_add_emod]

/-! ### One toggle -/

theorem Proper.cellAt_eq_iff (proper : display.Proper) (inside : column < display.width) :
    display.cellAt x y = row * display.width + column ↔
      x % display.width = column ∧ y % display.height = row := by
  have positive := proper.width_pos
  have nonneg := Int.emod_nonneg x (Int.ne_of_gt positive)
  have small := Int.emod_lt_of_pos x positive
  constructor
  · intro same
    unfold cellAt at same
    have remainder := congrArg (· % display.width) same
    simp only [Int.mul_add_emod_self_right, Int.emod_eq_of_lt nonneg small,
      Int.emod_eq_of_lt (Int.natCast_nonneg column) inside] at remainder
    rw [remainder] at same
    exact ⟨remainder, Int.eq_of_mul_eq_mul_right (Int.ne_of_gt positive) (add_right_cancel same)⟩
  · rintro ⟨across, down⟩
    rw [cellAt, across, down]

theorem Proper.lit_flip (proper : display.Proper) (inside : column < display.width) :
    (display.flip x y).lit column row = (display.lit column row ^^
      decide (x % display.width = column ∧ y % display.height = row)) := by
  obtain ⟨nonneg, bound⟩ := Memory.missing?_eq_none_iff.mp (proper.cellAt_present x y)
  have location : display.cellAt x y = row * display.width + column ↔ _ :=
    proper.cellAt_eq_iff inside
  show ((display.cells.place _ [_]).byteAt (row * display.width + column) != 0) = _
  rw [Memory.byteAt_place _ [_] nonneg bound]
  by_cases here : x % display.width = column ∧ y % display.height = row
  · have same := location.mpr here
    rw [← same, if_pos ⟨Int.le_refl _, by simp only [List.length_singleton]; omega⟩, Int.sub_self,
      decide_eq_true here, lit, ← same]
    rcases proper.twoTone (display.cellAt x y) with dark | bright
    · rw [dark]
      rfl
    · rw [bright]
      rfl
  · have apart := mt location.mp here
    rw [if_neg (by simp only [List.length_singleton]; omega), decide_eq_false here,
      Bool.xor_false]
    rfl

/-- The pixel that coordinates wrap onto. -/
theorem Proper.exists_pixel (proper : display.Proper) (x y : Int) :
    ∃ column row : Nat, column < display.width ∧ row < display.height ∧
      (x % display.width = column ∧ y % display.height = row) ∧
      (display.cells.byteAt (display.cellAt x y) != 0) = display.lit column row := by
  have left := Int.emod_nonneg x (Int.ne_of_gt proper.width_pos)
  have right := Int.emod_lt_of_pos x proper.width_pos
  have top := Int.emod_nonneg y (Int.ne_of_gt proper.height_pos)
  have bottom := Int.emod_lt_of_pos y proper.height_pos
  refine ⟨(x % display.width).toNat, (y % display.height).toNat, by omega, by omega, by omega, ?_⟩
  rw [cellAt, lit, Int.toNat_of_nonneg left, Int.toNat_of_nonneg top]

/-! ### Many toggles -/

/-- Landing on a pixel a number of times finds it lit: the first time if it was lit before, else
the second. -/
def Met (lit : Bool) (count : Nat) : Prop :=
  lit = true ∧ 1 ≤ count ∨ 2 ≤ count

instance (lit : Bool) (count : Nat) : Decidable (Met lit count) :=
  inferInstanceAs (Decidable (_ ∨ _))

/-- A pixel that is landed on at most once is found lit if it was lit before. -/
theorem met_iff_of_le_one {lit : Bool} {count : Nat} (once : count ≤ 1) :
    Met lit count ↔ lit = true ∧ count = 1 := by
  simp only [Met, show ¬ 2 ≤ count by omega, or_false, and_congr_right_iff]
  intro _
  omega

section

variable {left top : Int} {dot : Int × Int} {rest dots : List (Int × Int)}

/-- Toggling pixels is toggling the first and then the others. -/
theorem Proper.of_toggleAll_cons (proper : display.Proper)
    (ran : toggleAll left top (dot :: rest) display = .ok hit after) :
    ∃ more, toggleAll left top rest (display.flip (left + dot.1) (top + dot.2)) = .ok more after ∧
      hit = (display.cells.byteAt (display.cellAt (left + dot.1) (top + dot.2)) != 0 || more) := by
  obtain ⟨first, between, toggled, others⟩ := Routine.of_bind_ok ran
  rw [proper.toggle_apply] at toggled
  cases toggled
  obtain ⟨more, last, followed, whole⟩ := Routine.of_bind_ok others
  cases whole
  exact ⟨more, followed, rfl⟩

theorem Proper.lit_toggleAll (proper : display.Proper)
    (ran : toggleAll left top dots display = .ok hit after) (inside : column < display.width) :
    after.lit column row =
      (display.lit column row ^^ (display.landings left top column row dots).bodd) := by
  induction dots generalizing display hit with
  | nil =>
    cases ran
    rw [landings, List.countP_nil, Nat.bodd_zero, Bool.xor_false]
  | cons dot rest inductionHypothesis =>
    obtain ⟨more, followed, -⟩ := proper.of_toggleAll_cons ran
    have later := inductionHypothesis (proper.flip _ _) followed inside
    rw [later, proper.lit_flip inside, landings_cons]
    show ((display.lit column row ^^ _) ^^ (display.landings left top column row rest).bodd) = _
    rw [Nat.bodd_add, Bool.xor_assoc, Bool.xor_comm (Nat.bodd _)]
    congr 2
    split
    · next here => exact decide_eq_true here
    · next apart => exact decide_eq_false apart

/-- A pixel is found lit by the toggle that comes first or by those that follow it. -/
theorem Proper.met_cons (proper : display.Proper) (inside : column < display.width) :
    Met (display.lit column row) (display.landings left top column row (dot :: rest)) ↔
      ((left + dot.1) % display.width = column ∧ (top + dot.2) % display.height = row) ∧
          display.lit column row = true ∨
        Met ((display.flip (left + dot.1) (top + dot.2)).lit column row)
          (display.landings left top column row rest) := by
  rw [proper.lit_flip inside, landings_cons]
  generalize display.landings left top column row rest = count
  unfold Met
  split
  · next here =>
    rw [decide_eq_true here, Bool.xor_true]
    cases display.lit column row
    · simp [here]
      omega
    · simp [here]
  · next apart =>
    rw [decide_eq_false apart, Bool.xor_false]
    simp [apart]

theorem Proper.hit_toggleAll (proper : display.Proper)
    (ran : toggleAll left top dots display = .ok hit after) :
    hit = true ↔ ∃ column row : Nat, column < display.width ∧ row < display.height ∧
      Met (display.lit column row) (display.landings left top column row dots) := by
  induction dots generalizing display hit with
  | nil =>
    cases ran
    simp [Met, landings]
  | cons dot rest inductionHypothesis =>
    obtain ⟨more, followed, rfl⟩ := proper.of_toggleAll_cons ran
    obtain ⟨across, down, inside, below, wrapped, pixel⟩ :=
      proper.exists_pixel (left + dot.1) (top + dot.2)
    rw [pixel, Bool.or_eq_true, inductionHypothesis (proper.flip _ _) followed]
    constructor
    · rintro (lit | ⟨column, row, inside, below, met⟩)
      · exact ⟨across, down, inside, below, (proper.met_cons inside).mpr (.inl ⟨wrapped, lit⟩)⟩
      · exact ⟨column, row, inside, below, (proper.met_cons inside).mpr (.inr met)⟩
    · rintro ⟨column, row, inside, below, met⟩
      rcases (proper.met_cons inside).mp met with ⟨here, lit⟩ | later
      · obtain rfl : across = column := by omega
        obtain rfl : down = row := by omega
        exact .inl lit
      · exact .inr ⟨column, row, inside, below, later⟩

end

/-! ### Drawing -/

/-- What drawing a sprite at a place comes to: whether it hits, and the display it leaves. -/
structure Drawn (display : Display) (x y : Int) (sprite : List UInt8) (hit : Bool)
    (after : Display) : Prop where
  proper : after.Proper
  width : after.width = display.width
  height : after.height = display.height
  changed : after.changed = (display.changed || !sprite.isEmpty)
  /-- There is a pixel wherever there was one. -/
  shape : ∀ column row, (after.pixel? column row).isSome ↔
    column < display.width ∧ row < display.height
  /-- A pixel that is landed on an odd number of times is toggled, any other is kept. -/
  toggled : ∀ column row, after.pixel? column row =
    (display.pixel? column row).map (· ^^ (display.hits x y sprite column row).bodd)
  /-- A lit pixel has been landed on, or any pixel twice. -/
  met : hit = true ↔ ∃ column row lit, display.pixel? column row = some lit ∧
    Met lit (display.hits x y sprite column row)

/-- Drawing is toggling the dots of the sprite. -/
theorem Proper.toggleAll_of_draw (proper : display.Proper)
    (ran : draw x y sprite display = .ok hit after) :
    ∃ left, toggleAll (x % display.width) (y % display.height) (dots 0 sprite) display =
        .ok hit left ∧ after = { left with changed := left.changed || !sprite.isEmpty } := by
  obtain ⟨_, _, ⟨⟩, across⟩ := Routine.of_bind_ok ran
  rw [wrap_of_pos _ _ proper.width_pos] at across
  obtain ⟨_, _, ⟨⟩, down⟩ := Routine.of_bind_ok across
  rw [wrap_of_pos _ _ proper.height_pos] at down
  obtain ⟨_, _, ⟨⟩, toggling⟩ := Routine.of_bind_ok down
  obtain ⟨first, left, toggled, ⟨⟩⟩ := Routine.of_bind_ok toggling
  exact ⟨left, toggled, rfl⟩

theorem Proper.drawn_of_draw (proper : display.Proper)
    (ran : draw x y sprite display = .ok hit after) : display.Drawn x y sprite hit after := by
  obtain ⟨alike, changed⟩ : display.Alike after ∧
      after.changed = (display.changed || !sprite.isEmpty) := by
    obtain ⟨done, facts⟩ := proper.draw_apply x y sprite
    rw [done] at ran
    cases ran
    exact facts
  obtain ⟨left, toggled, marked⟩ := proper.toggleAll_of_draw ran
  have tallied (column row : Nat) :
      display.landings (x % display.width) (y % display.height) column row (dots 0 sprite) =
        display.hits x y sprite column row := by
    rw [landings_dots, Int.add_zero, hits_emod]
  have pixels := (alike.proper proper).pixel?_eq
  rw [alike.width, alike.height] at pixels
  refine ⟨alike.proper proper, alike.width, alike.height, changed, fun column row => ?_,
    fun column row => ?_, ?_⟩
  · rw [pixels, Option.isSome_ite]
  · rw [pixels, proper.pixel?_eq]
    split
    · next inside =>
      rw [Option.map_some, ← tallied, ← proper.lit_toggleAll toggled inside.1, marked]
      rfl
    · rfl
  · rw [proper.hit_toggleAll toggled]
    simp only [tallied, proper.pixel?_eq, Option.ite_none_right_eq_some, Option.some.injEq,
      and_assoc]
    simp

/-! ### Sprites that do not meet themselves -/

/-- Where a step is shorter than the way round, it can be told from where it leads. -/
theorem eq_of_emod_eq {extent first second : Int}
    (same : (x + first) % extent = (x + second) % extent) (low : 0 ≤ first ∧ 0 ≤ second)
    (high : first < extent ∧ second < extent) : first = second := by
  rw [Int.emod_add_cancel_left, Int.emod_eq_of_lt low.1 high.1,
    Int.emod_eq_of_lt low.2 high.2] at same
  exact same

theorem hits_le_one (wide : 8 ≤ display.width) (tall : sprite.length ≤ display.height) :
    display.hits x y sprite column row ≤ 1 := by
  rw [hits, Finset.card_le_one]
  rintro ⟨firstRow, firstBit⟩ first ⟨secondRow, secondBit⟩ second
  obtain ⟨-, -, left, top⟩ := Finset.mem_filter.mp first
  obtain ⟨-, -, right, bottom⟩ := Finset.mem_filter.mp second
  have bits := eq_of_emod_eq (left.trans right.symm) (by omega) (by omega)
  have rows := eq_of_emod_eq (top.trans bottom.symm) (by omega) (by omega)
  exact Prod.ext (Fin.ext (Int.ofNat.inj rows)) (Fin.ext (Int.ofNat.inj bits))

end Display

namespace Machine

variable {machine after : Machine} {instruction : Instruction}

/-- The bytes at the index, as many as the instruction asks for. -/
def spriteRows (machine : Machine) (instruction : Instruction) : List UInt8 :=
  (List.range instruction.n.toNat).map fun (offset : Nat) =>
    machine.memory.byteAt (machine.index + offset)

/-- How many set bits of the sprite at the index land on a pixel, drawn where the two registers of
the instruction say. -/
def spriteHits (machine : Machine) (instruction : Instruction) (column row : Nat) : Nat :=
  machine.display.hits (machine.first instruction).toNat (machine.second instruction).toNat
    (machine.spriteRows instruction) column row

/-- What a cycle that draws leaves of the display and the registers. Where it draws is told by the
registers before. -/
structure Draws (machine : Machine) (instruction : Instruction) (after : Machine) : Prop where
  once : ∀ column row, machine.spriteHits instruction column row ≤ 1
  drawn : ∃ hit, machine.display.Drawn (machine.first instruction).toNat
      (machine.second instruction).toNat (machine.spriteRows instruction) hit after.display ∧
    after.registers = machine.registers.set Registers.flag hit.toUInt8
  flag : after.registers.get Registers.flag = 0 ∨ after.registers.get Registers.flag = 1
  met : after.registers.get Registers.flag = 1 ↔ ∃ column row,
    machine.display.pixel? column row = some true ∧ machine.spriteHits instruction column row = 1

theorem spriteHits_le_one (intact : machine.Intact) (range : instruction.InRange)
    (column row : Nat) : machine.spriteHits instruction column row ≤ 1 := by
  have width := intact.width
  have height := intact.height
  have short := range.n.2
  unfold Layout.displayWidth at width
  unfold Layout.displayHeight at height
  refine Display.hits_le_one (by omega) ?_
  rw [spriteRows, List.length_map, List.length_range]
  omega

theorem draws_retired (intact : machine.Intact) (range : instruction.InRange)
    (draws : instruction.operation = .drawSprite) (clear : machine.obstacle? instruction = none) :
    machine.Draws instruction (machine.retired instruction) := by
  have unhindered : machine.hindrance? instruction = none := (Option.or_eq_none_iff.mp clear).2
  rw [hindrance?, draws] at unhindered
  have rows : machine.memory.slice machine.index (machine.index + instruction.n) =
      machine.spriteRows instruction :=
    Memory.slice_eq_map range.n.1 (memory_present unhindered)
  have display : (machine.retired instruction).display = (machine.sprite instruction).2 := by
    show machine.displayAfter instruction = _
    rw [displayAfter, draws]
  have registers : (machine.retired instruction).registers =
      machine.registers.set Registers.flag (machine.sprite instruction).1.toUInt8 := by
    show machine.registersAfter instruction = _
    rw [registersAfter, draws]
  have drawn : machine.display.Drawn (machine.first instruction).toNat
      (machine.second instruction).toNat (machine.spriteRows instruction)
      (machine.sprite instruction).1 (machine.sprite instruction).2 := by
    rw [sprite, rows]
    exact intact.proper.drawn_of_draw (intact.proper.draw_apply _ _ _).1
  have once := spriteHits_le_one intact range
  generalize (machine.sprite instruction).1 = hit at registers drawn
  have flag : (machine.retired instruction).registers.get Registers.flag = hit.toUInt8 := by
    rw [registers]
    exact Registers.get_set_self _ _ _
  refine ⟨once, ⟨hit, display ▸ drawn, registers⟩, ?_, ?_⟩
  · rw [flag]
    cases hit
    · exact .inl rfl
    · exact .inr rfl
  · have told : hit.toUInt8 = 1 ↔ hit = true := by cases hit <;> decide
    rw [flag, told, drawn.met]
    constructor
    · rintro ⟨column, row, lit, pixel, met⟩
      obtain ⟨rfl, one⟩ := (Display.met_iff_of_le_one (once column row)).mp met
      exact ⟨column, row, pixel, one⟩
    · rintro ⟨column, row, pixel, one⟩
      exact ⟨column, row, true, pixel, (Display.met_iff_of_le_one (once column row)).mpr ⟨rfl, one⟩⟩

/-- All that can keep a sprite from being drawn: it does not lie in memory, or there is no place to
go on at. -/
theorem obstacle?_of_drawSprite (draws : instruction.operation = .drawSprite) :
    machine.obstacle? instruction = none ↔
      Layout.InProgram (machine.programCounter + 2) ∧
        0 ≤ machine.index ∧ machine.index + instruction.n ≤ machine.memory.size := by
  rw [obstacle?, hindrance?, draws, Option.or_eq_none_iff, missing?, Option.map_eq_none_iff,
    Memory.missing?_eq_none_iff]
  exact and_congr_left fun _ => leaving?_eq_none_iff

/-- What drawing comes to, pixel by pixel. On any display with pixels no drawing is refused, and
what it does is told by how many set bits land on each pixel. On the display of a machine no pixel
is landed on twice, whatever was asked of the machine before: a cycle that draws succeeds exactly
if the sprite lies in memory and there is a place to go on at, and then it reports a hit exactly if
a set bit has landed on a lit pixel. -/
theorem draws_by_hits :
    (∀ (display : Display) (x y : Int) (sprite : List UInt8), display.Proper →
      ∃ hit after, Display.draw x y sprite display = .ok hit after ∧
        display.Drawn x y sprite hit after) ∧
    ∀ (rom : Option (List UInt8)) (speed : Option ClockSpeed) (dialect : Dialect)
      (bytes : Nat → UInt8) (new : Machine) (actions : List Action) (given : Option Instruction)
      (trace : Bool) (instruction : Instruction),
      boot rom speed dialect bytes = .ok new →
      let machine := new.actAll actions
      machine.fault = none → machine.Carries given instruction →
      instruction.operation = .drawSprite → instruction.InRange →
      ((∃ report after, attempt given trace machine = .ok report after) ↔
        Layout.InProgram (machine.programCounter + 2) ∧
          0 ≤ machine.index ∧ machine.index + instruction.n ≤ Layout.memorySize) ∧
      ∀ report after, attempt given trace machine = .ok report after →
        machine.Draws instruction after := by
  refine ⟨fun display x y sprite proper => ?_, ?_⟩
  · have done := (proper.draw_apply x y sprite).1
    exact ⟨_, _, done, proper.drawn_of_draw done⟩
  · intro rom speed dialect bytes new actions given trace instruction built machine running carries
      draws range
    have intact : machine.Intact := intact_of_boot built actions
    have outcome := execute_outcome instruction trace (fun _ => intact.proper) running carries.idle
    rw [attempt_of_carries running carries, ← intact.memory, ← obstacle?_of_drawSprite draws]
    refine ⟨⟨?_, fun clear => ⟨_, _, outcome.eq_ok range clear⟩⟩, ?_⟩
    · rintro ⟨report, after, ran⟩
      rw [ran] at outcome
      cases outcome with
      | done clear => exact clear
    · intro report after ran
      rw [ran] at outcome
      cases outcome with
      | done clear => exact draws_retired intact range draws clear

/-- A row of eight on a display of three by two, which it goes round, and a program that begins by
drawing where `V0` and `VF` say. -/
theorem draws_by_hits_wrapped :
    let display := Display.blank 3 2
    let dialect := Dialect.ofChoices none none none none
    let instruction := Instruction.ofFields .drawSprite 0xD0F5
    (∃ after, Display.draw (-1) 5 [0xFF] display = .ok true after ∧
      display.Drawn (-1) 5 [0xFF] true after ∧ after.pixel? 0 1 = some true) ∧
    ∃ new report after, boot (some [0xD0, 0xF5]) none dialect (fun _ => 0) = .ok new ∧
      step true new = .ok report after ∧ new.Draws instruction after := by
  intro display dialect instruction
  refine ⟨?_, ?_⟩
  · obtain ⟨hit, after, done, drawn⟩ :=
      draws_by_hits.1 display (-1) 5 [0xFF] (Display.proper_blank (by decide) (by decide))
    obtain rfl : hit = true := drawn.met.mpr ⟨0, 1, false, by decide, by decide⟩
    exact ⟨after, done, drawn, by rw [drawn.toggled]; decide⟩
  · let new := booted Pace.standard dialect (fun _ => 0) [0xD0, 0xF5]
    have built := boot_standard [0xD0, 0xF5] (by decide) dialect fun _ => 0
    have next : new.next = .ok instruction := next_booted _ _ _ _ _ _ (by decide)
    obtain ⟨succeeds, draws⟩ := draws_by_hits.2 _ _ _ _ new [] none true instruction built rfl
      ⟨rfl, takes_of_next next⟩ rfl (Instruction.inRange_ofFields _ _)
    obtain ⟨report, after, ran⟩ := succeeds.mpr (by decide)
    exact ⟨new, report, after, built, ran, draws report after ran⟩

end Machine

end Chip8
