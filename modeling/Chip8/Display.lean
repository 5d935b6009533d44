/-
This file is the display: a grid of pixels in a memory of its own, one byte per
pixel, row by row, `0x00` dark and `0xFF` lit.

A sprite is eight pixels wide, one byte per row, most significant bit on the
left. Drawing toggles the pixels under its set bits, coordinates wrapped onto
the display, and reports a hit when a lit pixel was switched off; the drawing
goes on after a hit. The display remembers whether its picture may have changed
since the host last collected it.

The extents of a display are integers, and a wrapped coordinate has the sign of
its extent. On a display with pixels to its right and below, every wrapped place
exists. A display may also be asked for with two negative extents: it has as
many cells but no rows to show, and a wrapped place may lie before its first
cell. Drawing there stops, with the pixels toggled before it left toggled.
-/

import Chip8.Memory
import Chip8.Routine

namespace Chip8

structure Display where
  width : Int
  height : Int
  cells : Memory
  /-- The picture may differ from the one collected last. -/
  changed : Bool
  deriving DecidableEq

/-- A picture, top row first: whether each pixel is lit. -/
abbrev Grid := List (List Bool)

/-- How many pixels of a picture are lit. -/
def Grid.litCount (grid : Grid) : Nat :=
  grid.flatten.count true

namespace Display

/-- A dark display, to be shown at once. -/
def blank (width height : Int) : Display :=
  ⟨width, height, Memory.blank (width * height).toNat, true⟩

/-- A dark display of a requested size, for whose pixels there must be memory. -/
def ofSize (width height : Int) : Except Trap Display := do
  let cells ← Memory.ofSize (width * height)
  return ⟨width, height, cells, true⟩

/-- Switches every pixel off. -/
def clear : Routine Display Unit := do
  let cells ← demand (← get).cells.clear
  modify fun display => { display with cells := cells, changed := true }

/-- A coordinate wrapped onto an axis, which must have some extent. -/
def wrap (coordinate extent : Int) : Except Trap Int :=
  if extent = 0 then .error .noPixels else .ok (coordinate.fmod extent)

/-! ### Drawing -/

/-- Toggles one pixel, and tells whether it was lit. Reading the pixel has checked its place. -/
def toggle (x y : Int) : Routine Display Bool := do
  let display ← get
  let column ← demand (wrap x display.width)
  let row ← demand (wrap y display.height)
  let location := row * display.width + column
  let pixel ← demand (display.cells.read location)
  modify fun display =>
    { display with cells := display.cells.place location [pixel ^^^ 0xFF] }
  return pixel != 0

/-- The columns of a byte's set bits, from the left. -/
def columns (byte : UInt8) : List Int :=
  ((List.range 8).filter fun column => byte.toNat.testBit (7 - column)).map
    fun (column : Nat) => (column : Int)

/-- The places of a sprite's set bits as column and row, row by row from the given one. -/
def dots (row : Int) : List UInt8 → List (Int × Int)
  | [] => []
  | byte :: rest => (columns byte).map (fun column => (column, row)) ++ dots (row + 1) rest

/-- Toggles pixels one after the other, and tells whether any was lit. -/
def toggleAll (left top : Int) : List (Int × Int) → Routine Display Bool
  | [] => return false
  | (column, row) :: rest => do
      let hit ← toggle (left + column) (top + row)
      let more ← toggleAll left top rest
      return hit || more

/-- Draws a sprite, and tells whether it switched a lit pixel off. -/
def draw (x y : Int) (sprite : List UInt8) : Routine Display Bool := do
  let display ← get
  let left ← demand (wrap x display.width)
  let top ← demand (wrap y display.height)
  let hit ← toggleAll left top (dots 0 sprite)
  modify fun display => { display with changed := display.changed || !sprite.isEmpty }
  return hit

/-! ### The picture -/

/-- Whether the pixel of a column and row is lit. -/
def lit (display : Display) (column row : Nat) : Bool :=
  display.cells.byteAt (row * display.width + column) != 0

/-- The picture on the display. -/
def grid (display : Display) : Grid :=
  (List.range display.height.toNat).map fun row =>
    (List.range display.width.toNat).map fun column => display.lit column row

/-- Hands out the picture if it may have changed since the last time. -/
def collect (display : Display) : Option Grid × Display :=
  if display.changed then (some display.grid, { display with changed := false })
  else (none, display)

/-- The rows of a display of any size; rows of no width cannot be cut. -/
def rows (display : Display) : Except Trap Grid :=
  if display.width = 0 then .error .noColumns else .ok display.grid

/-- As `collect`, for a display of any size; the mark is taken off even where no rows can be
cut. -/
def collectRows : Routine Display (Option Grid) := do
  let display ← get
  if display.changed then
    set { display with changed := false }
    return some (← demand display.rows)
  else return none

theorem wrap_of_pos (coordinate extent : Int) (positive : 0 < extent) :
    wrap coordinate extent = .ok (coordinate % extent) := by
  rw [wrap, if_neg (by omega), Int.fmod_eq_emod_of_nonneg _ (by omega)]

end Display

end Chip8
