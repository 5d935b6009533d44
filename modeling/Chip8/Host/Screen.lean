/-
This file is where pictures go: a screen that keeps the last picture shown and
its title, and, where there is one, the window behind it.

A window is as wide as asked for, at least one point per pixel, and half as
high. It holds the picture as a buffer of three bytes per pixel, row by row,
and stretches the buffer over its area so that each pixel covers the points
nearest to it. The window system measures in signed words of thirty-two bits,
so of a width beyond them only the lower bits count. It opens no window of
negative extent, and none beyond its limit; a window without any extent becomes
as large as the desktop, and one without height gets a single row, but the
picture is stretched over the extent that was asked for. Nor does it show a
title that holds a zero character, though the screen keeps it.
-/

import Chip8.Display
import Chip8.Program

namespace Chip8

/-- Why a window cannot be opened. -/
inductive WindowError where
  | tooNarrow
  /-- The width is beyond what the window system can be told. -/
  | unmeasurable
  | negativeExtent
  | tooLarge
  deriving DecidableEq, Repr

/-- The sentence a refused window is reported with. -/
def WindowError.message : WindowError → String
  | .tooNarrow =>
      "Window width must be at least " ++ toString Layout.displayWidth ++ " pixels."
  | .unmeasurable => "The window width is no number of pixels."
  | .negativeExtent => "Cannot set negative sized display mode"
  | .tooLarge => "Window is too large."

/-- A width and a height in points. -/
structure Extent where
  width : Nat
  height : Nat
  deriving DecidableEq, Repr

namespace Extent

/-- Whether a point lies within an extent. -/
def holds (extent : Extent) (x y : Int) : Bool :=
  0 ≤ x && x < extent.width && 0 ≤ y && y < extent.height

/-- The extent of the whole desktop. -/
def desktop : Extent := ⟨1024, 768⟩

/-- The extent a window gets when it is to have another one. -/
def ofWindow (asked : Extent) : Extent :=
  if asked.width = 0 ∧ asked.height = 0 then desktop
  else ⟨max 1 asked.width, max 1 asked.height⟩

end Extent

/-- A window with its buffer of colours. -/
structure Window where
  extent : Extent
  /-- What the picture is stretched over. -/
  picture : Extent
  buffer : Memory
  deriving DecidableEq

namespace Window

/-- Each of a lit pixel's colours. -/
def litShade : UInt8 := 0xDD

/-- Each of a dark pixel's colours. -/
def darkShade : UInt8 := 0x22

/-- The longest side a window can have. -/
def longestSide : Int := 16384

/-- A window that was asked for with some extent, black until its first picture. -/
def blank (asked : Extent) : Window :=
  ⟨asked.ofWindow, asked, Memory.blank (Layout.displayWidth * Layout.displayHeight * 3)⟩

/-- The first length that has no measure. -/
def measureLimit : Int := 0x80000000

/-- A length as the window system measures it. -/
def measure (length : Int) : Int :=
  length.bmod 0x100000000

/-- A window of a width, if there can be one. -/
def ofWidth (asked : Int) : Except WindowError Window :=
  let width := measure asked
  let height := measure (asked * Layout.displayHeight / Layout.displayWidth)
  if asked < Layout.displayWidth then .error .tooNarrow
  else if 0x8000000000000000 ≤ asked then .error .unmeasurable
  else if width < 0 ∨ height < 0 then .error .negativeExtent
  else if longestSide < width ∨ longestSide < height then .error .tooLarge
  else .ok (blank ⟨width.toNat, height.toNat⟩)

/-- The red, green and blue of a pixel. -/
def colours (isLit : Bool) : List UInt8 :=
  List.replicate 3 (if isLit then litShade else darkShade)

/-- Writes a picture into the buffer, row after row. -/
def refresh (window : Window) (grid : Grid) : Window :=
  { window with buffer := window.buffer.place 0 (grid.flatten.flatMap colours) }

/-- The colours of a point of the window: those of the pixel stretched over it, and black
beside the picture. -/
def point? (window : Window) (x y : Int) : Option (List UInt8) :=
  let (x, y) := (measure x, measure y)
  if !window.extent.holds x y then none
  else if !window.picture.holds x y then some (List.replicate 3 0)
  else
    let column := x * Layout.displayWidth / window.picture.width
    let row := y * Layout.displayHeight / window.picture.height
    let start := 3 * (row * Layout.displayWidth + column)
    some (window.buffer.slice start (start + 3))

end Window

/-- Where pictures and titles go. -/
structure Screen where
  /-- The window's width, or what was asked for where there is no window. -/
  scale : Int
  lastFrame : Option Grid
  title : String
  /-- Every title set so far. -/
  titles : Array String
  /-- How many pictures have been shown. -/
  refreshes : Nat
  window : Option Window

namespace Screen

/-- A screen without a window. -/
def hidden (scale : Option Int) : Screen :=
  ⟨scale.getD 1, none, "", #[], 0, none⟩

def setTitle (screen : Screen) (title : String) : Screen :=
  { screen with title := title, titles := screen.titles.push title }

/-- The width of a window that is not told its width. -/
def standardWidth : Int := 512

/-- A screen with a window, if there can be one. The window bears the program's name. -/
def windowed (scale : Option Int) : Except WindowError Screen := do
  let width := scale.getD standardWidth
  let window ← Window.ofWidth width
  return ⟨width, none, Program.name, #[Program.name], 0, some window⟩

/-- Whether a title can be shown where the screen shows titles. -/
def canShow (screen : Screen) (title : String) : Bool :=
  screen.window.isNone || !title.contains '\x00'

/-- Shows a picture. -/
def refresh (screen : Screen) (grid : Grid) : Screen :=
  { screen with
    lastFrame := some grid
    refreshes := screen.refreshes + 1
    window := screen.window.map fun window => window.refresh grid }

end Screen

end Chip8
