/-
This file proves that a session never shows an old picture.

Whatever changes the cells of a display marks it as changed: clearing, and
drawing a sprite of any rows, even if its pixels cancel. Taking the picture is
the only thing that takes the mark off. So while a display is not marked, the
picture on it is the one that was taken last, and the screen has that one. A
frame keeps this whether it runs no cycle, some, or is cut short, and at its end
what was marked has been shown.
-/

import Chip8.Proofs.Stint

namespace Chip8

namespace Display

/-- A display that is another one, or is marked as changed. -/
def Marks (before after : Display) : Prop :=
  after = before ∨ after.changed = true

variable {first second third display : Display}

theorem Marks.refl (display : Display) : display.Marks display :=
  .inl rfl

theorem Marks.trans (left : first.Marks second) (right : second.Marks third) :
    first.Marks third := by
  rcases right with rfl | changed
  · exact left
  · exact .inr changed

theorem drawn_nil (proper : display.Proper) (x y : Int) : (display.drawn x y []).2 = display := by
  have whole : draw x y [] display = .ok false display := by
    unfold draw
    simp only [Routine.bind_apply, Routine.get_apply, Routine.demand_apply,
      wrap_of_pos _ _ proper.width_pos, wrap_of_pos _ _ proper.height_pos]
    simp [dots, toggleAll, Routine.modify_apply, Routine.pure_apply]
  rw [drawn, whole]

theorem marks_drawn (proper : display.Proper) (x y : Int) (sprite : List UInt8) :
    display.Marks (display.drawn x y sprite).2 := by
  cases sprite with
  | nil => exact .inl (drawn_nil proper x y)
  | cons row rest =>
    refine .inr ((proper.draw_apply x y (row :: rest)).2.2.trans ?_)
    exact Bool.or_true _

end Display

namespace Machine

variable {machine after : Machine} {trace : Bool} {fit : Instruction → Prop}

theorem marks_displayAfter (proper : machine.display.Proper) (instruction : Instruction) :
    machine.display.Marks (machine.displayAfter instruction) := by
  unfold displayAfter
  split
  · exact .inr rfl
  · exact Display.marks_drawn proper _ _ _
  · exact .refl _

theorem Cycled.marks (cycled : machine.Cycled fit after) (intact : machine.Intact) :
    machine.display.Marks after.display := by
  cases cycled with
  | retired instruction => exact marks_displayAfter intact.proper instruction
  | stayed | halted | misused | waited | woken => exact .refl _

/-- The machine after anything but a look at its picture: of its dimensions still, its display
marked if it is another one. -/
structure Ran (before after : Machine) : Prop where
  intact : after.Intact
  marks : before.display.Marks after.display

theorem Ran.trans {first second third : Machine} (left : Ran first second)
    (right : Ran second third) : Ran first third :=
  ⟨right.intact, left.marks.trans right.marks⟩

/-- A change that spares memory and display. -/
theorem Intact.ran (intact : machine.Intact) (memory : after.memory = machine.memory)
    (display : after.display = machine.display) : Ran machine after where
  intact := intact.of_alike (congrArg Memory.size memory) (display ▸ .refl _)
  marks := .inl display

theorem step_ran (intact : machine.Intact) : Ran machine ((step trace).leaves machine) := by
  have cycled : machine.Cycled (fun _ => True) ((step trace).leaves machine) :=
    step_cycled intact fun _ _ => trivial
  have moves : Moves (fun _ => True) (fun _ => True) machine ((step trace).leaves machine) :=
    cycled.moves
  exact ⟨moves.intact intact, cycled.marks intact⟩

theorem Steps.ran {last : Machine} {observed : List Observation} (intact : machine.Intact)
    (steps : Steps trace machine observed last) : Ran machine last := by
  induction steps with
  | none => exact intact.ran rfl rfl
  | @more first _ _ _ _ _ ran _ _ inductionHypothesis =>
    have stepped : Ran first ((step trace).leaves first) := step_ran intact
    rw [Routine.leaves, ran] at stepped
    exact stepped.trans (inductionHypothesis stepped.intact)

/-- A stint, with the end of the frame it belongs to. -/
theorem Stint.ran_closed {count : Nat} {observed : List Observation} {trap : Option Trap}
    (intact : machine.Intact) (stint : machine.Stint count observed trap after) :
    Ran machine (after.closed trap) := by
  cases stint with
  | whole steps =>
    have stepped := steps.ran intact
    exact stepped.trans (stepped.intact.ran rfl rfl)
  | @cut last _ _ steps _ refused =>
    have stepped := steps.ran intact
    have final : Ran last ((step true).leaves last) := step_ran stepped.intact
    rw [Routine.leaves, refused] at final
    exact stepped.trans final

end Machine

namespace Session

/-- A session whose screen has the picture, unless the display is marked as changed. -/
structure Current (session : Session) : Prop where
  intact : session.machine.Intact
  current : session.machine.display.changed = false →
    session.screen.lastFrame = some session.machine.display.grid

/-- One session has become another by running its machine, and nothing was shown yet. -/
structure Ran (before after : Session) : Prop where
  machine : before.machine.Ran after.machine
  screen : after.screen = before.screen

variable {session before after : Session}

theorem Ran.trans {first second third : Session} (left : Ran first second)
    (right : Ran second third) : Ran first third :=
  ⟨left.machine.trans right.machine, right.screen.trans left.screen⟩

theorem Current.ran (current : before.Current) (ran : Ran before after) : after.Current where
  intact := ran.machine.intact
  current unchanged := by
    rcases ran.machine.marks with same | changed
    · rw [ran.screen, same]
      exact current.current (same ▸ unchanged)
    · rw [changed] at unchanged
      cases unchanged

/-! ### The parts of a frame -/

theorem obey_ran (intact : session.machine.Intact) (commands : List Command) :
    Ran session (session.obey commands) :=
  ⟨intact.ran rfl rfl, rfl⟩

/-! ### Whole frames -/

/-- What the player sees and hears is what the machine shows and sounds. -/
structure Faithful (session : Session) : Prop where
  picture : ∃ grid, session.machine.display.rows = .ok grid ∧
    session.screen.lastFrame = some grid
  buzzer : session.buzzer = true ↔ 0 < session.machine.timers.sound.toNat

theorem lastFrame_present (current : session.Current) :
    session.present.screen.lastFrame = some session.present.machine.display.grid := by
  unfold present Display.collect
  cases changed : session.machine.display.changed with
  | true => rfl
  | false => exact current.current changed

theorem Current.present (current : session.Current) : session.present.Current where
  intact := by
    rw [present_eq]
    exact current.intact.of_alike rfl session.machine.display.alike_collect
  current _ := lastFrame_present current

theorem faithful_present (current : session.Current) : session.present.Faithful where
  picture := by
    have wide : session.present.machine.display.width ≠ 0 := by
      rw [current.present.intact.width]
      decide
    exact ⟨_, if_neg wide, lastFrame_present current⟩
  buzzer := by
    rw [present_eq]
    dsimp only
    rw [Timers.soundActive, decide_eq_true_iff, Nat.pos_iff_ne_zero]
    exact not_congr UInt8.toNat_inj.symm

theorem Current.concluded (current : session.Current) (trap : Option Trap) :
    (concluded (trap, session)).2.Current ∧
      ((concluded (trap, session)).1 = .shown → (concluded (trap, session)).2.Faithful) := by
  cases trap with
  | some trap => exact ⟨current, nofun⟩
  | none => exact ⟨current.present, fun _ => faithful_present current⟩

/-- What a frame leaves, by how it ended. -/
theorem frame_cases (current : session.Current) (commands : List Command) :
    (session.frame commands).2.Current ∧
      ((session.frame commands).1 = .shown → (session.frame commands).2.Faithful) := by
  have obeyed := obey_ran current.intact commands
  have kept {after : Session} (ran : (session.obey commands).machine.Ran after.machine)
      (screen : after.screen = session.screen) : after.Current :=
    current.ran (obeyed.trans ⟨ran, screen⟩)
  have framing := frame_framing session commands
  generalize session.frame commands = result at framing
  cases framing with
  | quit => exact ⟨current.ran obeyed, nofun⟩
  | stepped _ stint =>
    refine Current.concluded (kept ?_ ?_) _
    · exact stint.ran_closed obeyed.machine.intact
    · rfl
  | ranFree _ _ stint =>
    have ran := stint.ran_closed obeyed.machine.intact
    refine Current.concluded (kept ?_ ?_) _
    · exact ran.trans (ran.intact.ran rfl rfl)
    · rfl
  | unowed => exact ⟨kept (obeyed.machine.intact.ran rfl rfl) rfl, nofun⟩

/-- What a number of frames, each with its commands, makes of a session. -/
def play (session : Session) (batches : List (List Command)) : Session :=
  batches.foldl (fun session commands => (session.frame commands).2) session

theorem Current.play (current : session.Current) (batches : List (List Command)) :
    (session.play batches).Current := by
  induction batches generalizing session with
  | nil => exact current
  | cons commands rest inductionHypothesis =>
    exact inductionHypothesis (frame_cases current commands).1

/-- A session of a new machine has a picture still to be shown. -/
theorem current_create {rom : Option (List UInt8)} {speed : Option ClockSpeed} {dialect : Dialect}
    {bytes : Nat → UInt8} {new : Machine} (built : Machine.boot rom speed dialect bytes = .ok new)
    (keymap : Keymap) (screen : Screen) (debugging stepping : Bool) :
    (create new keymap screen debugging stepping).Current where
  intact := Machine.intact_of_boot built []
  current unchanged := by
    obtain ⟨pace, -, -, rfl⟩ := Machine.boot_eq_ok_iff.mp built
    cases unchanged

/-- A frame ends by quitting just when that is asked for, and then nothing has changed but the
controls and the keys. -/
theorem quit_iff (session : Session) (commands : List Command) :
    ((session.frame commands).1 = .quit ↔ Controls.asksToQuit commands = true) ∧
      ((session.frame commands).1 = .quit → ∃ controls keypad,
        (session.frame commands).2 =
          { session with
            controls := controls
            machine := { session.machine with keypad := keypad } }) := by
  unfold frame
  dsimp only
  split
  · next asks => exact ⟨⟨fun _ => asks, fun _ => rfl⟩, fun _ => ⟨_, _, rfl⟩⟩
  · next stays =>
    split
    · exact ⟨⟨nofun, fun asks => absurd asks stays⟩, nofun⟩
    · exact ⟨⟨nofun, fun asks => absurd asks stays⟩, nofun⟩

/-- A frame that is shown leaves the screen with the picture of the machine and the buzzer with
its sound, whatever the frames before it were. One that quits leaves everything as it was but the
controls and the keys. -/
theorem frame_faithful {rom : Option (List UInt8)} {speed : Option ClockSpeed} {dialect : Dialect}
    {bytes : Nat → UInt8} {new : Machine} (built : Machine.boot rom speed dialect bytes = .ok new)
    (keymap : Keymap) (screen : Screen) (debugging stepping : Bool)
    (batches : List (List Command)) (commands : List Command) :
    let session := (create new keymap screen debugging stepping).play batches
    ((session.frame commands).1 = .shown → (session.frame commands).2.Faithful) ∧
      ((session.frame commands).1 = .quit ↔ Controls.asksToQuit commands = true) ∧
      ((session.frame commands).1 = .quit → ∃ controls keypad,
        (session.frame commands).2 =
          { session with
            controls := controls
            machine := { session.machine with keypad := keypad } }) := by
  intro session
  have current : session.Current :=
    (current_create built keymap screen debugging stepping).play batches
  exact ⟨(frame_cases current commands).2, quit_iff session commands⟩

/-- In single steps, a frame that clears the display after one that quit and one without a
cycle. -/
theorem frame_faithful_cleared :
    let dialect := Dialect.ofChoices none none none none
    let keymap : Keymap := ⟨[0, 1, 2, 3, 4, 5, 6, 7, 8, 9, 10, 11, 12, 13, 14, 15]⟩
    let batches : List (List Command) := [[.hostKey 5 true, .quit], []]
    ∃ new, Machine.boot (some [0x00, 0xE0]) none dialect (fun _ => 0) = .ok new ∧
      let session := (create new keymap (.hidden none) false true).play batches
      (session.frame [.requestStep]).1 = .shown ∧ (session.frame [.requestStep]).2.Faithful := by
  intro dialect keymap batches
  let new := Machine.booted Pace.standard dialect (fun _ => 0) [0x00, 0xE0]
  have built : Machine.boot (some [0x00, 0xE0]) none dialect (fun _ => 0) = .ok new :=
    Machine.boot_standard [0x00, 0xE0] (by decide) dialect fun _ => 0
  have shown : (((create new keymap (.hidden none) false true).play batches).frame
      [.requestStep]).1 = .shown := by
    decide +kernel
  exact ⟨new, built, shown,
    (frame_faithful built keymap (.hidden none) false true batches [.requestStep]).1 shown⟩

end Session

end Chip8
