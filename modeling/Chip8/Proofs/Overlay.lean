/-
This file proves that drawings laid one over the other commute and undo each
other.

What a series of drawings does to a pixel is told by how many set bits land on
it in all: an odd number toggles it, an even number does not. The drawings add
up, so their order cannot be told from the picture, and two that land on the
same pixels leave no trace, be they next to each other or not. A sprite that goes
round the display and meets itself is no exception. Nothing like this holds of
the hits, nor of the mark of a changed picture.
-/

import Chip8.Proofs.Sprite

namespace Chip8

/-- A sprite to be drawn at a place. -/
structure Stroke where
  x : Int
  y : Int
  sprite : List UInt8

namespace Display

/-- Draws one sprite after the other. -/
def drawAll : List Stroke → Routine Display Unit
  | [] => return ()
  | stroke :: rest => do
      let _ ← draw stroke.x stroke.y stroke.sprite
      drawAll rest

/-- The picture that a series of drawings leads to. -/
def pictureAfter (display : Display) (strokes : List Stroke) : Except Trap Grid :=
  match drawAll strokes display with
  | .ok _ after => after.rows
  | .error trap _ => .error trap

/-- How many set bits of some sprites land on a pixel, all told. -/
def tally (display : Display) (strokes : List Stroke) (column row : Nat) : Nat :=
  (strokes.map fun stroke => display.hits stroke.x stroke.y stroke.sprite column row).sum

variable {display first second : Display} {strokes others front middle back : List Stroke}
  {column row : Nat}

/-! ### Pictures by pixels -/

/-- A picture is told by its pixels. -/
theorem rows_eq_of_pixels (left : first.Proper) (right : second.Proper)
    (width : second.width = first.width) (height : second.height = first.height)
    (pixels : ∀ column row, first.pixel? column row = second.pixel? column row) :
    first.rows = second.rows := by
  rw [left.rows_eq, right.rows_eq, grid, grid, width, height]
  refine congrArg _
    (List.map_congr_left fun row below => List.map_congr_left fun column inside => ?_)
  have same := pixels column row
  rw [List.mem_range] at below inside
  rw [left.pixel?_eq, right.pixel?_eq, width, height, if_pos (by omega), if_pos (by omega)] at same
  exact Option.some.inj same

/-! ### Tallies -/

theorem tally_append :
    display.tally (front ++ back) column row =
      display.tally front column row + display.tally back column row := by
  simp only [tally, List.map_append, List.sum_append]

theorem tally_cons (stroke : Stroke) :
    display.tally (stroke :: strokes) column row =
      display.hits stroke.x stroke.y stroke.sprite column row +
        display.tally strokes column row :=
  List.sum_cons

theorem tally_perm (same : strokes.Perm others) :
    display.tally strokes column row = display.tally others column row :=
  (same.map _).sum_eq

/-- Going round the display any number of times makes no difference. -/
theorem hits_eq_of_dvd {one other : Stroke} (sprite : other.sprite = one.sprite)
    (across : display.width ∣ other.x - one.x) (down : display.height ∣ other.y - one.y) :
    display.hits other.x other.y other.sprite column row =
      display.hits one.x one.y one.sprite column row := by
  rw [← hits_emod, ← hits_emod (x := one.x), sprite, Int.emod_eq_emod_iff_emod_sub_eq_zero.mpr
    (Int.emod_eq_zero_of_dvd across), Int.emod_eq_emod_iff_emod_sub_eq_zero.mpr
    (Int.emod_eq_zero_of_dvd down)]

/-! ### Series of drawings -/

/-- No series of drawings on a display with pixels is refused, and it toggles the pixels that are
landed on an odd number of times. -/
theorem Proper.drawAll_apply (proper : display.Proper) (strokes : List Stroke) :
    ∃ after, drawAll strokes display = .ok () after ∧ display.Alike after ∧
      ∀ column row, after.pixel? column row =
        (display.pixel? column row).map (· ^^ (display.tally strokes column row).bodd) := by
  induction strokes generalizing display with
  | nil =>
    refine ⟨display, rfl, .refl display, fun column row => ?_⟩
    simp [tally]
  | cons stroke rest inductionHypothesis =>
    have done := (proper.draw_apply stroke.x stroke.y stroke.sprite).1
    generalize (display.drawn stroke.x stroke.y stroke.sprite).2 = between at done
    have drawn := proper.drawn_of_draw done
    obtain ⟨after, followed, alike, pixels⟩ := inductionHypothesis drawn.proper
    have same (column row : Nat) :
        between.tally rest column row = display.tally rest column row := by
      simp only [tally, hits, drawn.width, drawn.height]
    refine ⟨after, ?_, .trans ⟨drawn.width, drawn.height, fun _ => drawn.proper⟩ alike,
      fun column row => ?_⟩
    · rw [drawAll, Routine.bind_apply, done]
      exact followed
    · rw [pixels, drawn.toggled, same, tally_cons, Nat.bodd_add, Option.map_map]
      congr 1
      funext lit
      exact Bool.xor_assoc _ _ _

/-- Series of drawings of the same parity on every pixel lead to the same picture. -/
theorem Proper.pictureAfter_eq (proper : display.Proper)
    (parity : ∀ column row,
      (display.tally strokes column row).bodd = (display.tally others column row).bodd) :
    display.pictureAfter strokes = display.pictureAfter others := by
  obtain ⟨left, ranLeft, alikeLeft, pixelsLeft⟩ := proper.drawAll_apply strokes
  obtain ⟨right, ranRight, alikeRight, pixelsRight⟩ := proper.drawAll_apply others
  rw [pictureAfter, pictureAfter, ranLeft, ranRight]
  refine rows_eq_of_pixels (alikeLeft.proper proper) (alikeRight.proper proper)
    (alikeRight.width.trans alikeLeft.width.symm) (alikeRight.height.trans alikeLeft.height.symm)
    fun column row => ?_
  rw [pixelsLeft, pixelsRight, parity]

/-- Drawings on a display with pixels, as many as one likes: none is refused; the picture they lead
to does not depend on their order; two of the same sprite whose places differ by whole rounds of
the display can be left out, wherever they stand; and all of them drawn twice restore the picture
there was. -/
theorem Proper.drawings_cancel (proper : display.Proper) (strokes : List Stroke) :
    (∃ picture, display.pictureAfter strokes = .ok picture) ∧
    (∀ others, strokes.Perm others →
      display.pictureAfter strokes = display.pictureAfter others) ∧
    (∀ front one middle other back, strokes = front ++ one :: middle ++ other :: back →
      other.sprite = one.sprite → display.width ∣ other.x - one.x →
      display.height ∣ other.y - one.y →
      display.pictureAfter strokes = display.pictureAfter (front ++ middle ++ back)) ∧
    display.pictureAfter (strokes ++ strokes) = display.rows := by
  refine ⟨?_, fun others same => ?_, ?_, ?_⟩
  · obtain ⟨after, ran, alike, -⟩ := proper.drawAll_apply strokes
    rw [pictureAfter, ran]
    exact ⟨_, (alike.proper proper).rows_eq⟩
  · exact proper.pictureAfter_eq fun column row => congrArg Nat.bodd (tally_perm same)
  · rintro front one middle other back rfl sprite across down
    refine proper.pictureAfter_eq fun column row => ?_
    simp only [tally_append, tally_cons, hits_eq_of_dvd sprite across down, Nat.bodd_add]
    cases (display.hits one.x one.y one.sprite column row).bodd <;> simp
  · show display.pictureAfter (strokes ++ strokes) = display.pictureAfter []
    refine proper.pictureAfter_eq fun column row => ?_
    rw [tally_append, Nat.bodd_add, Bool.xor_self]
    exact Nat.bodd_zero.symm

/-- Two rows of eight that meet themselves on a display of three by two, a round to the right and
two rounds up from each other, with another sprite between them. -/
theorem drawings_cancel_wrapped :
    let display := Display.blank 3 2
    let one : Stroke := ⟨-1, 5, [0xFF, 0x81]⟩
    let between : Stroke := ⟨1, 0, [0x80]⟩
    let other : Stroke := ⟨2, 1, [0xFF, 0x81]⟩
    display.pictureAfter [one, between, other] = display.pictureAfter [between] ∧
      display.pictureAfter [one, between] = display.pictureAfter [between, one] ∧
      display.pictureAfter [one, between, one, between] = display.rows := by
  intro display one between other
  have proper : display.Proper := proper_blank (by decide) (by decide)
  exact ⟨(proper.drawings_cancel [one, between, other]).2.2.1 [] one [between] other [] rfl rfl
      (by decide) (by decide),
    (proper.drawings_cancel [one, between]).2.1 [between, one] (.swap _ _ _),
    (proper.drawings_cancel [one, between]).2.2.2⟩

end Display

end Chip8
