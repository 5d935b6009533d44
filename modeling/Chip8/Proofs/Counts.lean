/-
This file proves that the counts in the titles neither lose nor double.

A session counts the pictures it shows and the operations it runs. Now and then
the counts go into a title and start again from zero, whatever the clock has
read by then. So the figures of all titles, with what has been counted since the
last of them, are everything there was to count: the pictures the screen was
given and the cycles the machine completed. The one exception is a frame that
runs freely and is cut short, whose cycles are not counted; it ends the session.

The figures can be read off the titles, as the decimal numbers in them have no
blanks and stand between the same words.
-/

import Mathlib.Data.List.Basic
import Chip8.Proofs.Lines
import Chip8.Proofs.Turns

namespace Chip8

/-- What a title tells. -/
structure Figures where
  pictures : Nat
  operations : Nat

namespace Figures

def text (figures : Figures) : String :=
  Session.title figures.pictures figures.operations

theorem toDigits_inj {value other : Nat} (same : Nat.toDigits 10 value = Nat.toDigits 10 other) :
    value = other := by
  have worth := congrArg (fun digits => Nat.ofDigitChars 10 digits 0) same
  simpa only [Nat.ofDigitChars_ten_toDigits] using worth

theorem blank_notMem_toDigits (value : Nat) : ' ' ∉ Nat.toDigits 10 value := by
  intro member
  have digit := Nat.isDigit_of_mem_toDigits (by decide) (by decide) member
  exact absurd digit (by decide)

theorem toList_text (figures : Figures) :
    figures.text.toList = (Program.name ++ " - ").toList ++ (Nat.toDigits 10 figures.pictures ++
      ' ' :: ("FPS, ".toList ++ (Nat.toDigits 10 figures.operations ++ ' ' :: "OPS".toList))) := by
  have pictures : " FPS, ".toList = ' ' :: "FPS, ".toList := by decide
  have operations : " OPS".toList = ' ' :: "OPS".toList := by decide
  simp only [text, Session.title, String.toList_append, Nat.toString_eq_repr, Nat.toList_repr,
    pictures, operations, List.append_assoc, List.cons_append]

/-- The figures can be read off the text. -/
theorem text_injective : Function.Injective text := by
  intro figures others same
  have chars := congrArg String.toList same
  rw [toList_text, toList_text] at chars
  obtain ⟨pictures, rest⟩ := Effect.append_cons_inj (blank_notMem_toDigits _)
    (blank_notMem_toDigits _) (List.append_cancel_left chars)
  obtain ⟨operations, -⟩ := Effect.append_cons_inj (blank_notMem_toDigits _)
    (blank_notMem_toDigits _) (List.append_cancel_left rest)
  obtain ⟨_, _⟩ := figures
  obtain ⟨_, _⟩ := others
  rw [Figures.mk.injEq]
  exact ⟨toDigits_inj pictures, toDigits_inj operations⟩

end Figures

namespace Session

/-- The titles set since there was a screen bear the figures, which with the count since then are
the pictures that the screen was given. -/
structure Tallied (screen : Screen) (figures : List Figures) (session : Session) : Prop where
  titled : session.screen.titles = screen.titles ++ (figures.map Figures.text).toArray
  shown : screen.refreshes + (figures.map Figures.pictures).sum + session.pictures =
    session.screen.refreshes

/-- The figures, with the count since then, are the cycles completed since there was a machine. -/
def Balanced (machine : Machine) (figures : List Figures) (session : Session) : Prop :=
  machine.cycles + (figures.map Figures.operations).sum + session.operations =
    session.machine.cycles

variable {screen : Screen} {machine : Machine} {figures : List Figures} {session : Session}

theorem tallied_create (machine : Machine) (keymap : Keymap) (screen : Screen)
    (debugging stepping : Bool) :
    Tallied screen [⟨0, 0⟩] (create machine keymap screen debugging stepping) where
  titled := Array.push_eq_append
  shown := rfl

theorem balanced_create (machine : Machine) (keymap : Keymap) (screen : Screen)
    (debugging stepping : Bool) :
    Balanced machine [⟨0, 0⟩] (create machine keymap screen debugging stepping) := rfl

/-! ### Turns -/

/-- The counts go into the title, and start again. -/
theorem Tallied.reportCounts (tallied : Tallied screen figures session) (second : Int) :
    Tallied screen (figures ++ [⟨session.pictures, session.operations⟩])
      (session.reportCounts second) where
  titled := by
    show session.screen.titles.push _ = _
    rw [tallied.titled]
    simp [Figures.text]
  shown := by
    have shown := tallied.shown
    simpa [Nat.add_assoc, Session.reportCounts, Screen.setTitle] using shown

theorem Balanced.reportCounts (balanced : Balanced machine figures session) (second : Int) :
    Balanced machine (figures ++ [⟨session.pictures, session.operations⟩])
      (session.reportCounts second) := by
  unfold Balanced at balanced ⊢
  simpa [Nat.add_assoc, Session.reportCounts] using balanced

/-- At any reading of the clock, what has been counted stays counted. -/
theorem Tallied.turn (tallied : Tallied screen figures session) (now : Float) :
    ∃ more, Tallied screen (figures ++ more) (session.turn now).2 ∧
      ∀ machine, Balanced machine figures session →
        Balanced machine (figures ++ more) (session.turn now).2 := by
  have turning := turn_turning session now
  generalize session.turn now = result at turning
  cases turning with
  | untimely | paused =>
    refine ⟨[], ?_⟩
    rw [List.append_nil]
    exact ⟨⟨tallied.titled, tallied.shown⟩, fun _ balanced => balanced⟩
  | reported second =>
    have told := tallied.reportCounts second
    exact ⟨_, ⟨told.titled, told.shown⟩, fun _ balanced => balanced.reportCounts second⟩

/-! ### Frames -/

/-- A picture is counted when it is shown. -/
theorem Tallied.concluded (tallied : Tallied screen figures session) (trap : Option Trap) :
    Tallied screen figures (concluded (trap, session)).2 := by
  cases trap with
  | some trap => exact tallied
  | none =>
    have shown := tallied.shown
    rw [Session.concluded, present_eq]
    dsimp only
    cases session.machine.display.collect.1 with
    | none => exact ⟨tallied.titled, shown⟩
    | some grid => exact ⟨tallied.titled, congrArg (· + 1) shown⟩

theorem Balanced.concluded (balanced : Balanced machine figures session) (trap : Option Trap) :
    Balanced machine figures (concluded (trap, session)).2 := by
  cases trap with
  | some trap => exact balanced
  | none =>
    rw [Session.concluded, present_eq]
    exact balanced

theorem Tallied.frame (tallied : Tallied screen figures session) (commands : List Command) :
    Tallied screen figures (session.frame commands).2 := by
  have framing := frame_framing session commands
  generalize session.frame commands = result at framing
  have kept {after : Session} (screens : after.screen = session.screen)
      (pictures : after.pictures = session.pictures) : Tallied screen figures after :=
    ⟨screens ▸ tallied.titled, screens ▸ pictures ▸ tallied.shown⟩
  cases framing with
  | quit | unowed => exact kept rfl rfl
  | stepped | ranFree => refine Tallied.concluded (kept ?_ ?_) _ <;> rfl

/-- Every cycle of a frame is counted, unless the frame runs freely and is cut short. -/
theorem Balanced.frame (balanced : Balanced machine figures session) (commands : List Command)
    (counted : session.stepping = true ∨ ∀ trap, (session.frame commands).1 ≠ .trapped trap) :
    Balanced machine figures (session.frame commands).2 := by
  have framing := frame_framing session commands
  generalize session.frame commands = result at framing counted
  have grown {after : Session} {count : Nat} (operations : after.operations =
      session.operations + count) (cycles : after.machine.cycles = session.machine.cycles + count) :
      Balanced machine figures after := by
    rw [Balanced, operations, cycles, ← Nat.add_assoc, balanced]
  cases framing with
  | quit => exact balanced
  | @stepped observed trap after _ stint =>
    have cycles : (after.closed trap).cycles = session.machine.cycles + observed.length :=
      (Machine.cycles_closed after trap).trans stint.cycles
    exact Balanced.concluded (grown rfl cycles) trap
  | @ranFree owed pace observed trap after free owes stint =>
    cases trap with
    | none =>
      have cycles : after.cycles = session.machine.cycles + observed.length := stint.cycles
      exact Balanced.concluded (grown rfl cycles) none
    | some trap =>
      rcases counted with stepping | untrapped
      · exact absurd (stepping.symm.trans free) (by decide)
      · exact absurd rfl (untrapped trap)
  | @unowed trap _ free =>
    rcases counted with stepping | untrapped
    · exact absurd (stepping.symm.trans free) (by decide)
    · exact absurd rfl (untrapped trap)

/-! ### Passages -/

/-- The cycles of all frames are counted: each steps, or none was cut short. -/
def Complete (session : Session) (passings : List Passing) : Prop :=
  session.stepping = true ∨ ∀ trap, Passing.framed (.trapped trap) ∉ passings

theorem Tallied.take (tallied : Tallied screen figures session) (moment : Moment) :
    ∃ more, Tallied screen (figures ++ more) (session.take moment).2 ∧
      ∀ machine, Balanced machine figures session →
        session.Complete [(session.take moment).1] →
          Balanced machine (figures ++ more) (session.take moment).2 := by
  obtain ⟨more, told, balances⟩ := tallied.turn moment.now
  have kept := (turn_keeps session moment.now).2.1
  unfold Session.take
  generalize session.turn moment.now = result at told balances kept
  rcases result with ⟨seconds | _ | trap, paused⟩
  · exact ⟨more, told, fun machine balanced _ => balances machine balanced⟩
  · refine ⟨more, told.frame moment.commands, fun machine balanced complete => ?_⟩
    refine (balances machine balanced).frame moment.commands ?_
    exact complete.imp kept.trans fun untrapped trap ended =>
      untrapped trap (List.mem_singleton.mpr (congrArg Passing.framed ended.symm))
  · exact ⟨more, told, fun machine balanced _ => balances machine balanced⟩

theorem Tallied.pass (tallied : Tallied screen figures session) (moments : List Moment) :
    ∃ more, Tallied screen (figures ++ more) (session.pass moments).2 ∧
      ∀ machine, Balanced machine figures session → session.Complete (session.pass moments).1 →
        Balanced machine (figures ++ more) (session.pass moments).2 := by
  induction moments generalizing session figures with
  | nil =>
    refine ⟨[], ?_⟩
    rw [List.append_nil]
    exact ⟨tallied, fun _ balanced _ => balanced⟩
  | cons moment rest inductionHypothesis =>
    obtain ⟨first, told, balances⟩ := tallied.take moment
    have kept := stepping_take session moment
    rcases took : session.take moment with ⟨passing, after⟩
    rw [took] at told balances kept
    cases ends : passing.ending with
    | some ending =>
      rw [pass_of_ended took ends]
      exact ⟨first, told, balances⟩
    | none =>
      obtain ⟨more, toldMore, balancesMore⟩ := inductionHypothesis told
      rw [pass_of_unended took ends]
      refine ⟨first ++ more, ?_⟩
      rw [← List.append_assoc]
      refine ⟨toldMore, fun machine balanced complete => ?_⟩
      refine balancesMore machine (balances machine balanced ?_) ?_
      · exact complete.imp_right fun untrapped trap member =>
          untrapped trap (List.mem_cons.mpr (.inl (List.mem_singleton.mp member)))
      · exact complete.imp kept.trans fun untrapped trap member =>
          untrapped trap (List.mem_cons_of_mem _ member)

/-- At any readings of the clock and with any commands, the titles set so far bear figures, just
one list of them, that with the counts since the last title are the pictures shown and the cycles
completed; the latter unless a frame that ran freely was cut short. What the loop does with a
clock and a source is among this. -/
theorem counts_conserved (machine : Machine) (keymap : Keymap) (screen : Screen)
    (debugging stepping : Bool) :
    let begun := create machine keymap screen debugging stepping
    (∀ moments, ∃ figures : List Figures,
      let passings := (begun.pass moments).1
      let session := (begun.pass moments).2
      session.screen.titles = screen.titles ++ (figures.map Figures.text).toArray ∧
        (∀ others : List Figures,
          session.screen.titles = screen.titles ++ (others.map Figures.text).toArray →
            others = figures) ∧
        screen.refreshes + (figures.map Figures.pictures).sum + session.pictures =
          session.screen.refreshes ∧
        ((stepping = true ∨ ∀ trap, Passing.framed (.trapped trap) ∉ passings) →
          machine.cycles + (figures.map Figures.operations).sum + session.operations =
            session.machine.cycles)) ∧
      ∀ count source clock, ∃ moments,
        (begun.pass moments).2 = (turns count begun source clock).2.1 ∧
          ((begun.pass moments).1.findSome? Passing.ending).getD .stopped =
            (turns count begun source clock).1 := by
  intro begun
  refine ⟨fun moments => ?_, fun count source clock => exists_pass count begun source clock⟩
  obtain ⟨more, tallied, balances⟩ :=
    (tallied_create machine keymap screen debugging stepping).pass moments
  refine ⟨_, tallied.titled, fun others same => ?_, tallied.shown, fun complete =>
    balances machine (balanced_create machine keymap screen debugging stepping) complete⟩
  have texts := Array.append_right_inj _ |>.mp (same.symm.trans tallied.titled)
  exact List.map_injective_iff.mpr Figures.text_injective (List.toArray_inj texts)

/-- In single steps, under a clock that goes back between two frames of which the second is
refused: one cycle was completed, and the titles tell of it. -/
theorem counts_conserved_refused :
    let dialect := Dialect.ofChoices none none none none
    let keymap : Keymap := ⟨[0, 1, 2, 3, 4, 5, 6, 7, 8, 9, 10, 11, 12, 13, 14, 15]⟩
    let machine := Machine.booted Pace.standard dialect (fun _ => 0) [0x61, 0x03, 0x50, 0x01]
    let moments : List Moment := [⟨1, [.requestStep]⟩, ⟨0, []⟩, ⟨2, [.requestStep]⟩]
    ∃ session figures,
      session = ((create machine keymap (.hidden none) false true).pass moments).2 ∧
      session.screen.titles = (figures.map Figures.text).toArray ∧
      figures = [⟨0, 0⟩, ⟨0, 0⟩, ⟨1, 1⟩] ∧
      machine.cycles + (figures.map Figures.operations).sum + session.operations =
        session.machine.cycles ∧
      session.machine.cycles = 1 := by
  intro dialect keymap machine moments
  obtain ⟨figures, titled, single, -, ran⟩ :=
    (counts_conserved machine keymap (.hidden none) false true).1 moments
  have reached :
      ((create machine keymap (.hidden none) false true).pass moments).2.screen.titles =
        (Screen.hidden none).titles ++
          (([⟨0, 0⟩, ⟨0, 0⟩, ⟨1, 1⟩] : List Figures).map Figures.text).toArray ∧
      ((create machine keymap (.hidden none) false true).pass moments).2.machine.cycles = 1 := by
    decide +kernel
  exact ⟨_, figures, rfl, titled.trans (Array.empty_append ..), (single _ reached.1).symm,
    ran (.inl rfl), reached.2⟩

end Session

end Chip8
