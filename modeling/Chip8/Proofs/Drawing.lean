/-
This file says what clearing and drawing come to on a display with pixels.

A display is proper when both its extents are positive, it has one cell for each
of its pixels, and every cell is dark or lit. Every coordinate then wraps onto a
cell that exists, so no drawing is refused, however large the coordinates and
however long the sprite. Toggling a pixel keeps a cell dark or lit, so a proper
display stays proper, and its extents stay what they are.
-/

import Chip8.Display
import Chip8.Proofs.Storage

namespace Chip8.Display

/-- A display with pixels, each of them dark or lit. -/
structure Proper (display : Display) : Prop where
  width_pos : 0 < display.width
  height_pos : 0 < display.height
  size_cells : (display.cells.size : Int) = display.width * display.height
  twoTone : ∀ location,
    display.cells.byteAt location = 0x00 ∨ display.cells.byteAt location = 0xFF

/-- A display of the same extents, proper if the other one is. -/
structure Alike (first second : Display) : Prop where
  width : second.width = first.width
  height : second.height = first.height
  proper : first.Proper → second.Proper

theorem Alike.refl (display : Display) : display.Alike display :=
  ⟨rfl, rfl, id⟩

theorem Alike.trans {first second third : Display} (left : first.Alike second)
    (right : second.Alike third) : first.Alike third :=
  ⟨right.width.trans left.width, right.height.trans left.height, right.proper ∘ left.proper⟩

/-- The picture has the pixels within the extents of the display, each as its cell is lit. -/
theorem getElem?_grid (display : Display) (column row : Nat) :
    display.grid[row]?.bind (fun pixels => pixels[column]?) =
      if column < display.width ∧ row < display.height then some (display.lit column row)
      else none := by
  rw [grid, List.getElem?_map]
  by_cases below : row < display.height
  · rw [List.getElem?_range (by omega), Option.map_some, Option.bind_some, List.getElem?_map]
    by_cases inside : column < display.width
    · rw [List.getElem?_range (by omega), if_pos ⟨inside, below⟩, Option.map_some]
    · rw [List.getElem?_eq_none (by rw [List.length_range]; omega), if_neg (by omega),
        Option.map_none]
  · rw [List.getElem?_eq_none (by rw [List.length_range]; omega), if_neg (by omega)]
    rfl

/-- Only the cells and the extents make a display proper. -/
theorem alike_changed (display : Display) (changed : Bool) :
    display.Alike { display with changed := changed } :=
  ⟨rfl, rfl, fun proper => ⟨proper.width_pos, proper.height_pos, proper.size_cells,
    proper.twoTone⟩⟩

theorem alike_collect (display : Display) : display.Alike display.collect.2 := by
  unfold collect
  split
  · exact display.alike_changed false
  · exact .refl display

theorem proper_blank {width height : Int} (wide : 0 < width) (tall : 0 < height) :
    (blank width height).Proper where
  width_pos := wide
  height_pos := tall
  size_cells := by
    rw [blank, Memory.size_blank]
    exact Int.toNat_of_nonneg (Int.le_of_lt (Int.mul_pos wide tall))
  twoTone location := .inl (Memory.byteAt_blank _ location)

/-! ### One pixel -/

/-- The cell of the pixel that coordinates wrap onto. -/
def cellAt (display : Display) (x y : Int) : Int :=
  y % display.height * display.width + x % display.width

/-- The display with one pixel toggled. -/
def flip (display : Display) (x y : Int) : Display :=
  let location := display.cellAt x y
  { display with
    cells := display.cells.place location [display.cells.byteAt location ^^^ 0xFF] }

/-- Coordinates always wrap onto a cell that exists. -/
theorem Proper.cellAt_present {display : Display} (proper : display.Proper) (x y : Int) :
    display.cells.missing? (display.cellAt x y) 1 = none := by
  have left := Int.emod_nonneg x (Int.ne_of_gt proper.width_pos)
  have right := Int.emod_lt_of_pos x proper.width_pos
  have top := Int.emod_nonneg y (Int.ne_of_gt proper.height_pos)
  have bottom := Int.emod_lt_of_pos y proper.height_pos
  have before : 0 ≤ y % display.height * display.width :=
    Int.mul_nonneg top (Int.le_of_lt proper.width_pos)
  have rows : (y % display.height + 1) * display.width ≤ display.height * display.width :=
    Int.mul_le_mul_of_nonneg_right (by omega) (Int.le_of_lt proper.width_pos)
  rw [Int.add_mul, Int.one_mul, Int.mul_comm display.height] at rows
  rw [Memory.missing?_eq_none_iff, proper.size_cells, cellAt]
  omega

theorem Proper.toggle_apply {display : Display} (proper : display.Proper) (x y : Int) :
    toggle x y display =
      .ok (display.cells.byteAt (display.cellAt x y) != 0) (display.flip x y) := by
  have read : display.cells.read (y % display.height * display.width + x % display.width) =
      .ok (display.cells.byteAt (display.cellAt x y)) := by
    have present := proper.cellAt_present x y
    unfold cellAt at present
    rw [Memory.read, Memory.check_of_present present]
    rfl
  unfold toggle
  simp only [Routine.bind_apply, Routine.get_apply, Routine.demand_apply,
    wrap_of_pos _ _ proper.width_pos, wrap_of_pos _ _ proper.height_pos, read]
  rfl

theorem Proper.flip {display : Display} (proper : display.Proper) (x y : Int) :
    (display.flip x y).Proper where
  width_pos := proper.width_pos
  height_pos := proper.height_pos
  size_cells := by
    rw [Display.flip, Memory.size_place]
    exact proper.size_cells
  twoTone location := by
    obtain ⟨nonneg, inside⟩ := Memory.missing?_eq_none_iff.mp (proper.cellAt_present x y)
    rw [Display.flip, Memory.byteAt_place _ [_] nonneg inside]
    split
    · next here =>
      have first : (location - display.cellAt x y).toNat = 0 := by
        simp only [List.length_singleton] at here
        omega
      rw [first, List.getD_cons_zero]
      rcases proper.twoTone (display.cellAt x y) with dark | lit
      · exact .inr (by rw [dark]; rfl)
      · exact .inl (by rw [lit]; rfl)
    · exact proper.twoTone location

theorem alike_flip (display : Display) (x y : Int) : display.Alike (display.flip x y) :=
  ⟨rfl, rfl, fun proper => proper.flip x y⟩

/-! ### Whole sprites -/

theorem Proper.toggleAll_apply {display : Display} (proper : display.Proper) (left top : Int)
    (dots : List (Int × Int)) :
    ∃ hit after, toggleAll left top dots display = .ok hit after ∧
      display.Alike after ∧ after.changed = display.changed := by
  induction dots generalizing display with
  | nil => exact ⟨false, display, rfl, .refl _, rfl⟩
  | cons dot rest inductionHypothesis =>
    obtain ⟨column, row⟩ := dot
    obtain ⟨hit, after, run, alike, kept⟩ :=
      inductionHypothesis (proper.flip (left + column) (top + row))
    refine ⟨display.cells.byteAt (display.cellAt (left + column) (top + row)) != 0 || hit, after,
      ?_, (alike_flip display _ _).trans alike, kept⟩
    rw [toggleAll, Routine.bind_apply, proper.toggle_apply]
    simp only [Routine.bind_apply, run]
    rfl

/-- What drawing a sprite leaves, and whether it switched a lit pixel off. -/
def drawn (display : Display) (x y : Int) (sprite : List UInt8) : Bool × Display :=
  match draw x y sprite display with
  | .ok hit after => (hit, after)
  | .error _ after => (false, after)

/-- No drawing on a proper display is refused. -/
theorem Proper.draw_apply {display : Display} (proper : display.Proper) (x y : Int)
    (sprite : List UInt8) :
    draw x y sprite display =
        .ok (display.drawn x y sprite).1 (display.drawn x y sprite).2 ∧
      display.Alike (display.drawn x y sprite).2 ∧
      (display.drawn x y sprite).2.changed = (display.changed || !sprite.isEmpty) := by
  obtain ⟨hit, after, run, alike, kept⟩ := proper.toggleAll_apply
    (x % display.width) (y % display.height) (dots 0 sprite)
  have whole : draw x y sprite display =
      .ok hit { after with changed := display.changed || !sprite.isEmpty } := by
    unfold draw
    simp only [Routine.bind_apply, Routine.get_apply, Routine.demand_apply,
      wrap_of_pos _ _ proper.width_pos, wrap_of_pos _ _ proper.height_pos, run]
    rw [← kept]
    rfl
  unfold drawn
  rw [whole]
  exact ⟨rfl, alike.trans (alike_changed after _), rfl⟩

/-! ### Clearing -/

/-- The display with every pixel dark. -/
def cleared (display : Display) : Display :=
  { display with cells := Memory.blank display.cells.size, changed := true }

/-- No clearing is refused. -/
theorem clear_apply (display : Display) : clear display = .ok () display.cleared := by
  unfold clear
  simp only [Routine.bind_apply, Routine.get_apply, Routine.demand_apply,
    Memory.clear_eq_ok]
  rfl

theorem alike_cleared (display : Display) : display.Alike display.cleared :=
  ⟨rfl, rfl, fun proper => {
    width_pos := proper.width_pos
    height_pos := proper.height_pos
    size_cells := by
      rw [cleared, Memory.size_blank]
      exact proper.size_cells
    twoTone := fun location => .inl (Memory.byteAt_blank _ location) }⟩

end Chip8.Display
