/-
This file proves that the buffer of a window holds the last picture and nothing
of those before it.

A picture reads the cells of a display row by row, and a buffer is written pixel
by pixel, three bytes each. Both lay rows of one length end to end, so in either a
place is told by its row and column, and the two layouts compose to one: three
bytes to a cell, in the order of the cells. A picture of the display's size makes
just as many bytes as the buffer has, so each of them is written anew.
-/

import Mathlib.Data.List.Induction
import Chip8.Host.Screen
import Chip8.Proofs.Drawing

namespace Chip8

/-! ### Rows of one length -/

section

variable {α : Type} {rows : List (List α)} {width : Nat}

theorem length_flatten_of_even (even : ∀ row ∈ rows, row.length = width) :
    rows.flatten.length = width * rows.length := by
  rw [List.length_flatten, List.map_congr_left even, List.map_const', List.sum_replicate_nat,
    Nat.mul_comm]

/-- In rows of one length laid end to end, a place is told by its row and column. -/
theorem getElem?_flatten_of_even (even : ∀ row ∈ rows, row.length = width) (row : Nat)
    {column : Nat} (inside : column < width) :
    rows.flatten[width * row + column]? = rows[row]?.bind fun places => places[column]? := by
  induction rows generalizing row with
  | nil => rfl
  | cons first rest inductionHypothesis =>
    obtain ⟨length, others⟩ := List.forall_mem_cons.mp even
    rw [List.flatten_cons, List.getElem?_append, length]
    cases row with
    | zero =>
      rw [Nat.mul_zero, Nat.zero_add, if_pos inside]
      rfl
    | succ row =>
      have past : width * (row + 1) + column = width + (width * row + column) := by
        rw [Nat.mul_succ]
        omega
      rw [past, if_neg (by omega), Nat.add_sub_cancel_left, inductionHypothesis others]
      rfl

end

theorem Memory.readBlock_toArray (bytes : List UInt8) (location count : Nat)
    (inside : location + count ≤ bytes.length) :
    (⟨bytes.toArray⟩ : Memory).readBlock location count =
      .ok ((bytes.drop location).take count) := by
  have size : (⟨bytes.toArray⟩ : Memory).size = bytes.length := rfl
  have present : (⟨bytes.toArray⟩ : Memory).missing? location count = none := by
    rw [missing?_eq_none_iff, size]
    omega
  have stop : ((location : Int) + count).toNat = location + count := by omega
  rw [readBlock_of_present present, slice, cellOf, cellOf, if_neg (by omega), if_neg (by omega),
    stop, Int.toNat_natCast, Array.toList_extract, List.extract_eq_take_drop,
    Nat.add_sub_cancel_left]

/-- A picture with as many rows and columns as the machine's display. -/
structure Grid.Sized (grid : Grid) : Prop where
  height : grid.length = Layout.displayHeight
  width : ∀ row ∈ grid, row.length = Layout.displayWidth

theorem Display.sized_grid {display : Display} (width : display.width = Layout.displayWidth)
    (height : display.height = Layout.displayHeight) : display.grid.Sized where
  height := by
    rw [grid, List.length_map, List.length_range, height, Int.toNat_natCast]
  width row member := by
    obtain ⟨index, -, rfl⟩ := List.mem_map.mp member
    rw [List.length_map, List.length_range, width, Int.toNat_natCast]

namespace Window

variable {window : Window} {grid : Grid}

/-! ### The buffer -/

theorem size_of_ofWidth {asked : Int} (made : ofWidth asked = .ok window) :
    window.buffer.size = 6144 := by
  unfold ofWidth at made
  dsimp only at made
  split_ifs at made
  cases made
  exact Memory.size_blank _

/-- The bytes a picture makes. -/
def bytes (grid : Grid) : List UInt8 :=
  grid.flatten.flatMap colours

theorem length_of_mem_colours (pixels : List Bool) :
    ∀ triple ∈ pixels.map colours, triple.length = 3 :=
  List.forall_mem_map.mpr fun _ _ => rfl

/-- The bytes of a pixel stand together. -/
theorem getElem?_bytes (sized : grid.Sized) (row : Nat) {column offset : Nat}
    (inside : column < Layout.displayWidth) (within : offset < 3) :
    (bytes grid)[3 * (Layout.displayWidth * row + column) + offset]? =
      (grid[row]?.bind fun pixels => pixels[column]?).bind fun isLit =>
        (colours isLit)[offset]? := by
  rw [bytes, List.flatMap_def, getElem?_flatten_of_even (length_of_mem_colours _) _ within,
    List.getElem?_map, Option.bind_map, getElem?_flatten_of_even sized.width row inside]
  rfl

theorem length_bytes (sized : grid.Sized) : (bytes grid).length = 6144 := by
  rw [bytes, List.flatMap_def, length_flatten_of_even (length_of_mem_colours _),
    List.length_map, length_flatten_of_even sized.width, sized.height]
  rfl

/-- A picture of the display's size leaves nothing of what the buffer held. -/
theorem refresh_eq (sized : grid.Sized) (whole : window.buffer.size = 6144) :
    window.refresh grid = { window with buffer := ⟨(bytes grid).toArray⟩ } := by
  rw [refresh, ← window.buffer.place_whole _ ((length_bytes sized).trans whole.symm)]
  rfl

/-- In the buffer, a pixel of the picture is its three colours. -/
theorem readBlock_refresh (sized : grid.Sized) (whole : window.buffer.size = 6144)
    {row column : Nat} {isLit : Bool} (below : row < 32) (inside : column < 64)
    (pixel : (grid[row]?.bind fun pixels => pixels[column]?) = some isLit) :
    (window.refresh grid).buffer.readBlock (3 * (64 * row + column)) 3 = .ok (colours isLit) := by
  have length := length_bytes sized
  have place : (3 * (64 * row + column) : Int) = (3 * (64 * row + column) : Nat) := by omega
  have read := Memory.readBlock_toArray (bytes grid) (3 * (64 * row + column)) 3 (by omega)
  rw [refresh_eq sized whole, place]
  refine read.trans (congrArg Except.ok (List.ext_getElem? fun offset => ?_))
  rw [List.getElem?_take, List.getElem?_drop]
  by_cases within : offset < 3
  · rw [if_pos within]
    exact (getElem?_bytes sized row inside within).trans (by rw [pixel, Option.bind_some])
  · rw [if_neg within, List.getElem?_eq_none]
    exact Nat.le_of_not_lt within

end Window

namespace Screen

variable {screen : Screen} {window : Window}

/-! ### Screens -/

/-- Shows one picture after the other. -/
def refreshAll (screen : Screen) (grids : List Grid) : Screen :=
  grids.foldl refresh screen

theorem refreshAll_concat (screen : Screen) (grids : List Grid) (grid : Grid) :
    screen.refreshAll (grids ++ [grid]) = (screen.refreshAll grids).refresh grid := by
  rw [refreshAll, List.foldl_append]
  rfl

theorem window_refresh (opened : screen.window = some window) (grid : Grid) :
    (screen.refresh grid).window = some (window.refresh grid) := by
  rw [refresh, opened]
  rfl

theorem window_of_windowed {scale : Option Int} (opened : windowed scale = .ok screen) :
    ∃ window, screen.window = some window ∧ window.buffer.size = 6144 := by
  unfold windowed at opened
  dsimp only at opened
  cases made : Window.ofWidth (scale.getD standardWidth) with
  | error cause =>
    rw [made] at opened
    cases opened
  | ok window =>
    rw [made] at opened
    cases opened
    exact ⟨window, rfl, Window.size_of_ofWidth made⟩

/-- A window that is shown pictures stays what it is but for its buffer. -/
theorem window_refreshAll (opened : screen.window = some window) (grids : List Grid) :
    ∃ buffer : Memory, buffer.size = window.buffer.size ∧
      (screen.refreshAll grids).window = some { window with buffer := buffer } := by
  induction grids using List.reverseRecOn with
  | nil => exact ⟨window.buffer, rfl, opened⟩
  | append_singleton grids grid inductionHypothesis =>
    obtain ⟨buffer, size, shown⟩ := inductionHypothesis
    rw [refreshAll_concat, window_refresh shown]
    exact ⟨_, (Memory.size_place buffer 0 _).trans size, rfl⟩

/-- After any pictures of displays, a window's buffer is that of a window that was shown the last
one alone: three bytes for every cell of the display, in the shade of a lit or of a dark pixel. -/
theorem buffer_mirrors_display {scale : Option Int} (opened : windowed scale = .ok screen)
    {displays : List Display} {display : Display}
    (sized : ∀ shown ∈ displays, shown.width = 64 ∧ shown.height = 32)
    (last : displays.getLast? = some display) :
    ∃ window, (screen.refreshAll (displays.map Display.grid)).window = some window ∧
      (screen.refresh display.grid).window = some window ∧
      window.buffer.size = 6144 ∧ display.rows = .ok display.grid ∧
      ∀ x y : Nat, x < 64 → y < 32 → ∃ isLit,
        (display.grid[y]?.bind fun pixels => pixels[x]?) = some isLit ∧
        isLit = (display.cells.byteAt (64 * y + x) != 0) ∧
        window.buffer.readBlock (3 * (64 * y + x)) 3 =
          .ok (List.replicate 3 (if isLit then 0xDD else 0x22)) := by
  obtain ⟨earlier, rfl⟩ := List.getLast?_eq_some_iff.mp last
  obtain ⟨width, height⟩ := sized display (List.mem_append_right _ List.mem_cons_self)
  have full : display.grid.Sized := Display.sized_grid width height
  obtain ⟨window, first, whole⟩ := window_of_windowed opened
  obtain ⟨buffer, size, shown⟩ := window_refreshAll first (earlier.map Display.grid)
  refine ⟨window.refresh display.grid, ?_, window_refresh first _,
    (Memory.size_place _ 0 _).trans whole, if_neg (by rw [width]; decide), ?_⟩
  · rw [List.map_append, List.map_singleton, refreshAll_concat, window_refresh shown,
      Window.refresh_eq full (size.trans whole), Window.refresh_eq full whole]
  · intro x y inside below
    have pixel := Display.getElem?_grid display x y
    rw [if_pos (by omega), Display.lit, width, Int.mul_comm] at pixel
    exact ⟨_, pixel, rfl, Window.readBlock_refresh full whole below inside pixel⟩

/-- A single lit pixel in the last corner, shown after a picture that was lit all over. -/
theorem buffer_mirrors_display_corner :
    let bright : Display := ⟨64, 32, ⟨Array.replicate 2048 0xFF⟩, true⟩
    let corner : Display := ⟨64, 32, (Memory.blank 2048).place 2047 [0xFF], true⟩
    ∃ screen window, windowed none = .ok screen ∧
      (screen.refreshAll [bright.grid, corner.grid]).window = some window ∧
      window.buffer.readBlock 6141 3 = .ok [0xDD, 0xDD, 0xDD] ∧
      window.buffer.readBlock 6138 3 = .ok [0x22, 0x22, 0x22] := by
  intro bright corner
  obtain ⟨screen, opened⟩ : ∃ screen, windowed none = .ok screen := ⟨_, rfl⟩
  have sized : ∀ shown ∈ [bright, corner], shown.width = 64 ∧ shown.height = 32 := by
    simp [bright, corner]
  obtain ⟨window, shown, -, -, -, pixels⟩ := buffer_mirrors_display opened sized rfl
  have lit : (corner.cells.byteAt (64 * (31 : Nat) + (63 : Nat)) != 0) = true := by decide +kernel
  have dark : (corner.cells.byteAt (64 * (31 : Nat) + (62 : Nat)) != 0) = false := by decide +kernel
  obtain ⟨isLit, -, here, last⟩ := pixels 63 31 (by decide) (by decide)
  obtain ⟨isDark, -, beside, before⟩ := pixels 62 31 (by decide) (by decide)
  rw [here.trans lit] at last
  rw [beside.trans dark] at before
  exact ⟨screen, window, opened, shown, last, before⟩

end Screen

end Chip8
