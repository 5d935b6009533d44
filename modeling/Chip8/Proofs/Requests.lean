/-
This file proves that requests for single steps are neither lost nor served
twice.

A request is made by a command, and taken by the frame that runs a cycle for
it, whether the cycle is completed or refused. A frame that is shown has served
every request it found; one that is cut short, or quit, leaves those it did not
come to for the frames after it. So over any number of frames the requests made
are the cycles attempted and the requests still pending. Each cycle that is
completed is printed once, in order, with the machine it led to: the lines are
two for each cycle and tell it.

The loop that serves requests counts them beforehand. Told as a loop that goes
on for as long as there is a request to take, it comes to the same, whatever the
program does; that it ends is part of what is proved.
-/

import Mathlib.Algebra.Order.Group.Nat
import Chip8.Proofs.Picture
import Chip8.Proofs.Telling

namespace Chip8

namespace Controls

/-- How many single steps some commands ask for. -/
def requested (commands : List Command) : Nat :=
  commands.count .requestStep

theorem stepRequests_obeyAll (state : Controls × Keypad) (commands : List Command) :
    (obeyAll state commands).1.stepRequests = state.1.stepRequests + requested commands := by
  induction commands generalizing state with
  | nil => rfl
  | cons command rest inductionHypothesis =>
    rw [obeyAll, List.foldl_cons, ← obeyAll, inductionHypothesis, requested, requested,
      List.count_cons]
    cases command with
    | requestStep =>
      show state.1.stepRequests + 1 + _ = _ + (_ + 1)
      omega
    | hostKey | releaseKeys | quit => rfl

end Controls

/-- How many cycles were refused in a frame of single steps, by how it ended. -/
def FrameEnd.refusals : FrameEnd → Nat
  | .trapped _ => 1
  | .shown | .quit => 0

namespace Session

/-- The requests that are still to be served. -/
abbrev pending (session : Session) : Nat :=
  session.controls.stepRequests

variable {session after last : Session} {commands : List Command} {batches : List (List Command)}
  {observed : List Observation} {ends : List FrameEnd}

/-! ### The loop -/

/-- Serving requests, told as a loop: as long as there is a request it is taken, and a cycle is
run for it and printed. -/
inductive Serves : Session → Option Trap × Session → Prop
  | done {session : Session} {left : Controls}
      (idle : session.controls.takeStep = (false, left)) :
      Serves session (none, { session with controls := left })
  | refused {session : Session} {left : Controls} {trap : Trap} {after : Machine}
      (taken : session.controls.takeStep = (true, left))
      (met : Machine.step true session.machine = .error trap after) :
      Serves session (some trap, { session with controls := left, machine := after })
  | more {session : Session} {left : Controls} {report : CycleReport} {after : Machine}
      {result : Option Trap × Session} (taken : session.controls.takeStep = (true, left))
      (ran : Machine.step true session.machine = .ok report after)
      (others : Serves ({ session with
        controls := left
        machine := after
        operations := session.operations + 1 }.print ⟨report, after.snapshot⟩) result) :
      Serves session result

theorem takeStep_false {controls left : Controls} (idle : controls.takeStep = (false, left)) :
    controls.stepRequests = 0 ∧ left = controls := by
  unfold Controls.takeStep at idle
  split at idle
  · next none =>
    cases idle
    exact ⟨none, rfl⟩
  · cases idle

theorem takeStep_true {controls left : Controls} (taken : controls.takeStep = (true, left)) :
    controls.stepRequests = left.stepRequests + 1 ∧ left = controls.takeStep.2 := by
  rw [taken]
  unfold Controls.takeStep at taken
  split at taken
  · cases taken
  · next some =>
    cases taken
    exact ⟨some, rfl⟩

theorem eq_of_serves {result : Option Trap × Session} (serves : Serves session result) :
    result = serveRequests session.pending session := by
  induction serves with
  | done idle =>
    obtain ⟨none, rfl⟩ := takeStep_false idle
    rw [pending, none]
    rfl
  | refused taken met =>
    obtain ⟨some, rfl⟩ := takeStep_true taken
    rw [pending, some, serveRequests]
    dsimp only
    rw [met]
  | more taken ran _ inductionHypothesis =>
    obtain ⟨some, rfl⟩ := takeStep_true taken
    rw [inductionHypothesis, pending, pending, some, serveRequests]
    dsimp only
    rw [ran]
    rfl

/-- The loop ends, whatever the program does: each turn takes one of the requests. -/
theorem exists_serves (session : Session) : ∃ result, Serves session result := by
  generalize count : session.pending = requests
  induction requests generalizing session with
  | zero =>
    exact ⟨_, .done (show session.controls.takeStep = (false, session.controls) by
      rw [Controls.takeStep, show session.controls.stepRequests = 0 from count])⟩
  | succ requests inductionHypothesis =>
    have taken : session.controls.takeStep =
        (true, { session.controls with stepRequests := requests }) := by
      rw [Controls.takeStep, show session.controls.stepRequests = requests + 1 from count]
    cases ran : Machine.step true session.machine with
    | error trap after => exact ⟨_, .refused taken ran⟩
    | ok report after =>
      obtain ⟨result, others⟩ := inductionHypothesis ({ session with
        controls := { session.controls with stepRequests := requests }
        machine := after
        operations := session.operations + 1 }.print ⟨report, after.snapshot⟩) rfl
      exact ⟨result, .more taken ran others⟩

/-! ### One frame -/

theorem pending_obey (session : Session) (commands : List Command) :
    (session.obey commands).pending = session.pending + Controls.requested commands :=
  Controls.stepRequests_obeyAll _ _

/-- What a frame of single steps has to account for: the cycles it completed, how it ended, and
what it left. -/
structure Attended (session : Session) (commands : List Command) (observed : List Observation)
    (ended : FrameEnd) (after : Session) : Prop where
  /-- The cycles completed are steps of the machine as the commands left it. If the frame was cut
  short, the step after them was refused. -/
  steps : ∃ reached, Machine.Steps true (session.obey commands).machine observed reached ∧
    ∀ trap, ended = .trapped trap → ∃ left, Machine.step true reached = .error trap left
  /-- Every request was served by a cycle, completed or refused, or is pending. -/
  conserved : session.pending + Controls.requested commands =
    observed.length + ended.refusals + after.pending
  served : ended = .shown → after.pending = 0
  left : ended = .quit → observed = []
  counted : after.machine.cycles = session.machine.cycles + observed.length
  printed : after.printed = session.printed ++ (Report.lines observed).toArray

theorem exists_attended (stepping : session.stepping = true) (commands : List Command) :
    ∃ observed, Attended session commands observed (session.frame commands).1
      (session.frame commands).2 := by
  have framing := frame_framing session commands
  generalize session.frame commands = result at framing
  cases framing with
  | quit asks =>
    refine ⟨[], ⟨_, .none _, ?_⟩, ?_, ?_, fun _ => rfl, rfl, Array.append_empty.symm⟩
    · rintro _ ⟨⟩
    · rw [pending_obey, FrameEnd.refusals, List.length_nil, Nat.zero_add]
    · rintro ⟨⟩
  | @stepped observed trap after _ stint =>
    have taken : session.pending + Controls.requested commands =
        attempts observed trap + ((session.obey commands).pending - attempts observed trap) := by
      rw [← pending_obey, Nat.add_sub_cancel' stint.attempts_le]
    have counted : (after.closed trap).cycles = session.machine.cycles + observed.length :=
      (Machine.cycles_closed after trap).trans stint.cycles
    cases stint with
    | whole steps all =>
      have none : (session.obey commands).pending - observed.length = 0 :=
        Nat.sub_eq_zero_of_le (Nat.le_of_eq all.symm)
      rw [concluded, present_eq]
      refine ⟨observed, ⟨_, steps, ?_⟩, taken, fun _ => none, ?_, counted, rfl⟩
      · rintro _ ⟨⟩
      · rintro ⟨⟩
    | cut steps _ refused =>
      refine ⟨observed, ⟨_, steps, ?_⟩, taken, ?_, ?_, counted, rfl⟩
      · rintro _ ⟨⟩
        exact ⟨_, refused⟩
      · rintro ⟨⟩
      · rintro ⟨⟩
  | ranFree free | unowed free =>
    rw [stepping] at free
    cases free

/-- Nothing takes a request in a frame that runs freely. -/
theorem pending_frame_of_free (free : session.stepping = false) (commands : List Command) :
    (session.frame commands).2.pending = session.pending + Controls.requested commands := by
  rw [← pending_obey]
  have framing := frame_framing session commands
  generalize session.frame commands = result at framing
  cases framing with
  | quit => rfl
  | @ranFree _ pace observed trap after =>
    have kept := concluded_keeps trap ((session.obey commands).released observed trap
      ((after.closed trap).owing pace.credit))
    exact congrArg Controls.stepRequests kept.1
  | unowed => rfl
  | stepped stepping =>
    rw [free] at stepping
    cases stepping

/-! ### Frame after frame -/

/-- Frames of single steps, one for each batch of commands, with how each ended and with
everything that could be observed of their cycles. -/
inductive Attends : Session → List (List Command) → List FrameEnd → List Observation →
    Session → Prop
  | none (session : Session) : Attends session [] [] [] session
  | more {session last : Session} {commands : List Command} {rest : List (List Command)}
      {ends : List FrameEnd} {observed others : List Observation}
      (attended : Attended session commands observed (session.frame commands).1
        (session.frame commands).2)
      (later : Attends (session.frame commands).2 rest ends others last) :
      Attends session (commands :: rest) ((session.frame commands).1 :: ends)
        (observed ++ others) last

theorem exists_attends (stepping : session.stepping = true) (batches : List (List Command)) :
    ∃ ends observed, Attends session batches ends observed (session.play batches) := by
  induction batches generalizing session with
  | nil => exact ⟨[], [], .none session⟩
  | cons commands rest inductionHypothesis =>
    obtain ⟨observed, attended⟩ := exists_attended stepping commands
    obtain ⟨ends, others, later⟩ :=
      inductionHypothesis ((stepping_frame session commands).trans stepping)
    exact ⟨_, _, .more attended later⟩

/-- What frames of single steps come to, one after the other: what each accounts for adds up. -/
theorem Attends.ledger (attends : Attends session batches ends observed last) :
    session.pending + (batches.map Controls.requested).sum =
        observed.length + (ends.map FrameEnd.refusals).sum + last.pending ∧
      last.machine.cycles = session.machine.cycles + observed.length ∧
      last.printed = session.printed ++ (Report.lines observed).toArray := by
  induction attends with
  | none => exact ⟨by simp, rfl, Array.append_empty.symm⟩
  | more attended _ inductionHypothesis =>
    obtain ⟨conserved, counted, printed⟩ := inductionHypothesis
    have first := attended.conserved
    refine ⟨?_, ?_, ?_⟩
    · simp only [List.map_cons, List.sum_cons, List.length_append]
      omega
    · rw [counted, attended.counted, List.length_append, Nat.add_assoc]
    · rw [printed, attended.printed]
      simp [Report.lines]

/-- What was observed in frames of single steps are cycles that machines can go through. -/
theorem Attends.occur (attends : Attends session batches ends observed last) :
    ∀ seen ∈ observed, seen.Occurs := by
  induction attends with
  | none => exact List.forall_mem_nil _
  | more attended _ inductionHypothesis =>
    obtain ⟨_, steps, -⟩ := attended.steps
    exact List.forall_mem_append.mpr ⟨steps.occur, inductionHypothesis⟩

theorem pending_play_of_free (free : session.stepping = false) (batches : List (List Command)) :
    (session.play batches).pending = session.pending + (batches.map Controls.requested).sum := by
  induction batches generalizing session with
  | nil => rfl
  | cons commands rest inductionHypothesis =>
    have later := inductionHypothesis ((stepping_frame session commands).trans free)
    rw [pending_frame_of_free free commands] at later
    rw [List.map_cons, List.sum_cons, ← Nat.add_assoc]
    exact later

/-- In single steps the requests made are the cycles attempted and the requests pending, however
the frames end; every completed cycle is printed once, in order, with the machine after it, in
lines that tell it; and the loop that serves requests ends. Running freely takes no request. -/
theorem requests_conserved (session : Session) (batches : List (List Command)) :
    (session.stepping = true → ∃ ends observed lines,
      Attends session batches ends observed (session.play batches) ∧
        session.pending + (batches.map Controls.requested).sum =
          observed.length + (ends.map FrameEnd.refusals).sum + (session.play batches).pending ∧
        (session.play batches).machine.cycles = session.machine.cycles + observed.length ∧
        (session.play batches).printed = session.printed ++ lines.toArray ∧
        Report.Tells lines observed) ∧
      (session.stepping = false → (session.play batches).pending =
        session.pending + (batches.map Controls.requested).sum) ∧
      (∃ result, Serves session result) ∧
      ∀ result, Serves session result → result = serveRequests session.pending session := by
  refine ⟨fun stepping => ?_, fun free => pending_play_of_free free batches,
    exists_serves session, fun _ => eq_of_serves⟩
  obtain ⟨ends, observed, attends⟩ := exists_attends stepping batches
  obtain ⟨conserved, counted, printed⟩ := attends.ledger
  exact ⟨ends, observed, Report.lines observed, attends, conserved, counted, printed,
    Report.tells_lines attends.occur⟩

/-- Three requests of which the second is refused, and one in a frame that quits: two cycles are
attempted, two requests are left, and the one cycle that was completed is printed. -/
theorem requests_conserved_refused :
    let dialect := Dialect.ofChoices none none none none
    let keymap : Keymap := ⟨[0, 1, 2, 3, 4, 5, 6, 7, 8, 9, 10, 11, 12, 13, 14, 15]⟩
    let new := Machine.booted Pace.standard dialect (fun _ => 0) [0x00, 0xE0, 0x00, 0xEE]
    let session := create new keymap (.hidden none) false true
    let batches : List (List Command) :=
      [[.requestStep, .requestStep, .requestStep], [.quit, .requestStep]]
    let lines := ["[PC:0x200] [RAW:0x00e0] CLS\n    Display cleared\n    PC: 0x200 -> 0x202",
      "V: 0x00000000000000000000000000000000 I: 0x0000 DT: 0x00 ST: 0x00 PC: 0x202 OP: 0x00e0 " ++
        "IN: CLS"]
    ∃ ends observed, Attends session batches ends observed (session.play batches) ∧
      observed.length + (ends.map FrameEnd.refusals).sum = 2 ∧
      (session.play batches).pending = 2 ∧
      (session.play batches).printed.toList = lines ∧ Report.Tells lines observed := by
  intro dialect keymap new session batches lines
  have left : (session.play batches).pending = 2 := by decide +kernel
  have shown : (session.play batches).printed.toList = lines := by decide +kernel
  obtain ⟨ends, observed, told, attends, conserved, -, printed, tells⟩ :=
    (requests_conserved session batches).1 rfl
  have made : session.pending + (batches.map Controls.requested).sum = 2 + 2 := rfl
  rw [left, made] at conserved
  have same : told = lines := by
    rw [← shown, printed, Array.toList_append]
    rfl
  exact ⟨ends, observed, attends, (Nat.add_right_cancel conserved).symm, left, shown, same ▸ tells⟩

end Session

end Chip8
