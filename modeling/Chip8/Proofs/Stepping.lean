/-
This file proves that single steps do what running freely does.

A frame of single steps runs the cycles that were asked for in a loop of the
session, a frame that runs freely those that the pace owes in a loop of the
machine; the two count, print and end on their own. Where the numbers of cycles
are the same, both come to one stint, as no cycle looks at the credit. So two
sessions that have nothing between them but the credit, and what belongs to
either way of running, have nothing else between them after such a frame,
whether it is shown or cut short.
-/

import Chip8.Proofs.Stint

namespace Chip8

/-- The guise of another credit. -/
abbrev Guise.ofCredit (credit : Float) : Guise :=
  outward (fun pace => { pace with credit := credit }) id draws_id

/-- Of the controls, the keypad comes to depend on the keymap only. -/
theorem Controls.keypad_obeyAll {controls other : Controls} (same : other.keymap = controls.keymap)
    (keypad : Keypad) (commands : List Command) :
    (obeyAll (other, keypad) commands).2 = (obeyAll (controls, keypad) commands).2 := by
  induction commands generalizing controls other keypad with
  | nil => rfl
  | cons command rest inductionHypothesis =>
    cases command with
    | hostKey code down =>
      have pressed :
          (other.hostKey keypad code down).2 = (controls.hostKey keypad code down).2 := by
        rw [hostKey, hostKey, same]
      exact (inductionHypothesis same _).trans (congrArg (fun keypad =>
        (obeyAll (controls, keypad) rest).2) pressed)
    | requestStep =>
      have still : other.requestStep.keymap = controls.requestStep.keymap := same
      exact inductionHypothesis still keypad
    | releaseKeys => exact inductionHypothesis same Keypad.released
    | quit => exact inductionHypothesis same keypad

namespace Machine

variable {machine after last : Machine} {trace : Bool} {observed : List Observation}
  {trap : Option Trap} {count : Nat}

/-- No step looks at the credit. -/
theorem step_owing (trace : Bool) (machine : Machine) (credit : Float) :
    step trace (machine.owing credit) =
      (Guise.ofCredit credit).onResult (step trace machine) := by
  have fooled : (Guise.ofCredit credit).Fools (step trace) := Guise.fools_step trace
  exact fooled machine

theorem Steps.owing (steps : Steps trace machine observed last) (credit : Float) :
    Steps trace (machine.owing credit) observed (last.owing credit) := by
  induction steps with
  | none => exact .none _
  | @more first second last report _ rest ran depicted _ inductionHypothesis =>
    have same : step trace (first.owing credit) = .ok report (second.owing credit) := by
      rw [step_owing, ran]
      rfl
    obtain rfl := depicted.eq_snapshot
    exact .more same (depicted_snapshot (second.owing credit)) inductionHypothesis

/-- Nor does a stint. -/
theorem Stint.owing (stint : machine.Stint count observed trap after) (credit : Float) :
    (machine.owing credit).Stint count observed trap (after.owing credit) := by
  cases stint with
  | whole steps all => exact .whole (steps.owing credit) all
  | @cut last _ trap steps short refused =>
    have same : step true (last.owing credit) = .error trap (after.owing credit) := by
      rw [step_owing, refused]
      rfl
    exact .cut (steps.owing credit) short same

end Machine

namespace Session

/-- Two sessions have nothing between them but the credit, and what belongs to either way of
running: their requests, counts and printed lines. -/
structure Abreast (stepped free : Session) : Prop where
  keymap : free.controls.keymap = stepped.controls.keymap
  machine : ∃ credit, free.machine = stepped.machine.owing credit
  screen : free.screen = stepped.screen
  buzzer : free.buzzer = stepped.buzzer

variable {stepped free : Session} {commands : List Command} {count : Nat} {pace : Pace}

theorem Abreast.obey (abreast : Abreast stepped free) (commands : List Command) :
    Abreast (stepped.obey commands) (free.obey commands) := by
  obtain ⟨credit, same⟩ := abreast.machine
  have keypad : (Controls.obeyAll (free.controls, free.machine.keypad) commands).2 =
      (Controls.obeyAll (stepped.controls, stepped.machine.keypad) commands).2 := by
    rw [same]
    exact Controls.keypad_obeyAll abreast.keymap _ commands
  refine ⟨?_, ⟨credit, ?_⟩, abreast.screen, abreast.buzzer⟩
  · simp only [Session.obey, Controls.keymap_obeyAll, abreast.keymap]
  · simp only [Session.obey, keypad]
    rw [same]
    rfl

/-- Showing the picture, or not, keeps two sessions abreast. -/
theorem Abreast.concluded (abreast : Abreast stepped free) (trap : Option Trap) :
    Abreast (concluded (trap, stepped)).2 (concluded (trap, free)).2 := by
  cases trap with
  | some trap => exact abreast
  | none =>
    obtain ⟨credit, same⟩ := abreast.machine
    rw [Session.concluded, Session.concluded, present_eq, present_eq, same]
    refine ⟨abreast.keymap, ⟨credit, rfl⟩, ?_, rfl⟩
    have screens := abreast.screen
    dsimp only [Machine.owing]
    rw [screens]

/-- Two frames of the same number of cycles, one of single steps and one that runs freely. -/
inductive Alike (stepped free : Session) (commands : List Command) (count : Nat) : Prop
  /-- Both are shown, with all the cycles counted. -/
  | shown {observed : List Observation} {last : Machine}
      (steps : Machine.Steps true (stepped.obey commands).machine observed last)
      (all : observed.length = count)
      (shownStepped : (stepped.frame commands).1 = .shown)
      (shownFree : (free.frame commands).1 = .shown)
      (countedStepped : (stepped.frame commands).2.operations = stepped.operations + count)
      (countedFree : (free.frame commands).2.operations = free.operations + count)
  /-- Both are cut short where one and the same cycle is refused, after the same cycles. -/
  | trapped {observed : List Observation} {last after : Machine} {trap : Trap}
      (steps : Machine.Steps true (stepped.obey commands).machine observed last)
      (short : observed.length < count)
      (refused : Machine.step true last = .error trap after)
      (trappedStepped : (stepped.frame commands).1 = .trapped trap)
      (trappedFree : (free.frame commands).1 = .trapped trap)
      (left : (stepped.frame commands).2.machine = after)

/-- What comes to the same stint is alike. -/
theorem alike_of_concluded {observed : List Observation} {trap : Option Trap} {after last : Machine}
    {pace : Pace} (stint : (stepped.obey commands).machine.Stint count observed trap after)
    (frameStepped : stepped.frame commands = concluded (trap,
      (stepped.obey commands).served observed (after.closed trap) (attempts observed trap)))
    (frameFree : free.frame commands = concluded (trap,
      (free.obey commands).released observed trap ((last.closed trap).owing pace.credit))) :
    Alike stepped free commands count := by
  cases stint with
  | whole steps all =>
    rw [Session.concluded, present_eq] at frameStepped frameFree
    refine .shown steps all ?_ ?_ ?_ ?_
    · rw [frameStepped]
    · rw [frameFree]
    · rw [frameStepped]
      exact congrArg (stepped.operations + ·) all
    · rw [frameFree]
      exact congrArg (free.operations + ·) all
  | cut steps short refused =>
    refine .trapped steps short refused ?_ ?_ ?_
    · rw [frameStepped]
      rfl
    · rw [frameFree]
      rfl
    · rw [frameStepped]
      rfl

/-- A frame of single steps and one that runs freely, from sessions that have nothing else between
them: with as many requests pending as cycles owed, both are shown with all of these counted, or
both are cut short by the same refusal at the same cycle; and either way the sessions have nothing
else between them afterwards. -/
theorem stepping_agrees (abreast : Abreast stepped free) (stepping : stepped.stepping = true)
    (freely : free.stepping = false) (stays : Controls.asksToQuit commands = false)
    (requests : (stepped.obey commands).controls.stepRequests = count)
    (owes : free.machine.pace.due = (.ok count, pace)) :
    Alike stepped free commands count ∧
      Abreast (stepped.frame commands).2 (free.frame commands).2 := by
  subst requests
  have obeyed := abreast.obey commands
  obtain ⟨credit, same⟩ := obeyed.machine
  obtain ⟨observed, trap, after, stint⟩ := Machine.exists_stint (stepped.obey commands).machine
    (stepped.obey commands).controls.stepRequests
  have stintFree : (free.obey commands).machine.Stint (stepped.obey commands).controls.stepRequests
      observed trap (after.owing credit) := by
    rw [same]
    exact stint.owing credit
  have frameStepped := frame_of_stepping stepping stays stint
  have frameFree := frame_of_free freely stays owes stintFree
  refine ⟨alike_of_concluded stint frameStepped frameFree, ?_⟩
  have ended : Abreast
      ((stepped.obey commands).served observed (after.closed trap) (attempts observed trap))
      ((free.obey commands).released observed trap
        (((after.owing credit).closed trap).owing pace.credit)) := by
    refine ⟨obeyed.keymap, ⟨pace.credit, ?_⟩, obeyed.screen, obeyed.buzzer⟩
    cases trap <;> rfl
  rw [frameStepped, frameFree]
  exact ended.concluded trap

/-- Two cycles, of which the second is no instruction: the single step and the free run are refused
alike. -/
theorem stepping_agrees_unknown :
    let dialect := Dialect.ofChoices none none none none
    let keymap : Keymap := ⟨[0, 1, 2, 3, 4, 5, 6, 7, 8, 9, 10, 11, 12, 13, 14, 15]⟩
    let new := Machine.booted ⟨2, 0⟩ dialect (fun _ => 0) [0x61, 0x03, 0x50, 0x01]
    let stepped := create new keymap (.hidden none) false true
    let free := create new keymap (.hidden none) false false
    let commands : List Command := [.requestStep, .requestStep]
    Alike stepped free commands 2 ∧
      Abreast (stepped.frame commands).2 (free.frame commands).2 ∧
      (free.frame commands).1 = .trapped (.fault (.unknownOpcode 0x5001 0x202)) := by
  intro dialect keymap new stepped free commands
  have abreast : Abreast stepped free := ⟨rfl, ⟨0, rfl⟩, rfl, rfl⟩
  have owes : (⟨2, 0⟩ : Pace).due = (.ok 2, ⟨2, 0⟩) := rfl
  have agreed := stepping_agrees abreast rfl rfl
    (show Controls.asksToQuit commands = false from rfl) rfl owes
  exact ⟨agreed.1, agreed.2, by decide +kernel⟩

end Session

end Chip8
