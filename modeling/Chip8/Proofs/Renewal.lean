/-
This file proves that a reset forgets everything a program did.

A machine keeps from the day it was built what no action changes: its dialect,
the speed of its pace and its dimensions. A reset puts everything else back to
where a new machine has it, except for the keys that are held and the place in
the random source. So what was reset is a new machine with those keys held, in
the guise of another source: one that has the bytes already drawn before the
bytes that remain. In a guise a machine answers to everything as it would
without, so whatever is asked after the reset, the new machine answers the same
and is left the same.
-/

import Chip8.Proofs.Frame

namespace Chip8

namespace RandomSource

/-- The bytes still to be drawn, in order. -/
def remaining (source : RandomSource) : Nat → UInt8 :=
  fun index => source.byteAt (source.drawn + index)

/-- A source with a number of bytes before its own, all of them drawn. -/
def preceded (earlier : Nat → UInt8) (count : Nat) (source : RandomSource) : RandomSource where
  byteAt index := if index < count then earlier index else source.byteAt (index - count)
  drawn := count + source.drawn

variable (earlier : Nat → UInt8) (count : Nat) (source : RandomSource)

theorem byteAt_preceded (index : Nat) :
    (preceded earlier count source).byteAt (count + index) = source.byteAt index := by
  show (if count + index < count then _ else _) = _
  rw [if_neg (by omega), Nat.add_sub_cancel_left]

theorem next_preceded :
    (preceded earlier count source).next =
      (source.next.1, preceded earlier count source.next.2) :=
  Prod.ext (byteAt_preceded earlier count source source.drawn) rfl

theorem remaining_preceded :
    (preceded earlier count source).remaining = source.remaining := by
  funext index
  show (preceded earlier count source).byteAt (count + source.drawn + index) = _
  rw [Nat.add_assoc, byteAt_preceded]
  rfl

/-- Every source is what remains of it, with what was drawn before it. -/
theorem preceded_remaining :
    preceded source.byteAt source.drawn ⟨source.remaining, 0⟩ = source := by
  obtain ⟨byteAt, drawn⟩ := source
  refine congrArg (RandomSource.mk · drawn) (funext fun index => ?_)
  show (if index < drawn then byteAt index else byteAt (drawn + (index - drawn))) = byteAt index
  split
  · rfl
  · rw [Nat.add_sub_cancel' (by omega)]

end RandomSource

/-- The guise of a source that has some bytes, already drawn, before the others. -/
abbrev Guise.preceding (earlier : Nat → UInt8) (count : Nat) : Guise :=
  .ofSource (.preceded earlier count) (RandomSource.next_preceded earlier count)

namespace Machine

variable {machine after : Machine}

/-! ### What no action changes -/

/-- Machines built alike: of one dialect, with stacks of one depth and paces of one speed. -/
structure Akin (first second : Machine) : Prop where
  dialect : second.dialect = first.dialect
  depth : second.stack.depth = first.stack.depth
  perFrame : second.pace.perFrame = first.pace.perFrame

theorem Akin.trans {first second third : Machine} (left : Akin first second)
    (right : Akin second third) : Akin first third :=
  ⟨right.dialect.trans left.dialect, right.depth.trans left.depth,
    right.perFrame.trans left.perFrame⟩

theorem Move.keeps_build {fit : Instruction → Prop} {start : Int → Prop}
    (move : Move fit start machine after) :
    after.dialect = machine.dialect ∧ after.stack.depth = machine.stack.depth := by
  cases move with
  | retired instruction => exact ⟨rfl, depth_stackAfter⟩
  | halted | misused | waited | woken | timed | written | keyed | paced | collected | restarted =>
    exact ⟨rfl, rfl⟩

theorem Moves.keeps_build {fit : Instruction → Prop} {start : Int → Prop}
    (moves : Moves fit start machine after) :
    after.dialect = machine.dialect ∧ after.stack.depth = machine.stack.depth := by
  refine moves.keeps (motive := fun after =>
    after.dialect = machine.dialect ∧ after.stack.depth = machine.stack.depth) ?_ ⟨rfl, rfl⟩
  rintro middle after move ⟨dialect, depth⟩
  exact ⟨move.keeps_build.1.trans dialect, move.keeps_build.2.trans depth⟩

theorem Akin.of_moves {fit : Instruction → Prop} {start : Int → Prop}
    (moves : Moves fit start machine after)
    (perFrame : after.pace.perFrame = machine.pace.perFrame) : Akin machine after :=
  ⟨moves.keeps_build.1, moves.keeps_build.2, perFrame⟩

theorem perFrame_runFrame (listening : Bool) (machine : Machine) :
    (machine.runFrame listening).2.machine.pace.perFrame = machine.pace.perFrame := by
  have framing := runFrame_framing machine listening
  generalize machine.runFrame listening = result at framing
  cases framing with
  | unowed => rfl
  | whole observed last credit steps =>
    have kept := congrArg Pace.perFrame steps.keeps_pace
    exact kept
  | cut owed observed last trap after credit steps short refused =>
    have kept := pace_of_step true last
    rw [Routine.leaves, refused] at kept
    have kept := congrArg Pace.perFrame (kept.trans steps.keeps_pace)
    exact kept

theorem perFrame_act (intact : machine.Intact) (action : Action) :
    (machine.act action).2.pace.perFrame = machine.pace.perFrame := by
  have kept {α : Type} {reply : α → Reply} {routine : Routine Machine α}
      (fooled : ∀ pace, (Guise.ofPace pace).Fools routine) :
      (machine.answering reply routine).2.pace.perFrame = machine.pace.perFrame := by
    rw [answering_snd, Guise.pace_leaves fooled]
  cases action with
  | step trace => exact kept fun _ => Guise.fools_step trace
  | execute instruction trace => exact kept fun _ => Guise.fools_execute instruction trace
  | executeWord opcode trace => exact kept fun _ => Guise.fools_executeWord opcode trace
  | runFrame listening => exact perFrame_runFrame listening machine
  | tickTimers => rfl
  | reset address =>
    rw [act, obeying, answering_snd, Routine.leaves, reset_apply intact]
    rfl
  | loadRom rom => exact kept fun _ => Guise.fools_onMemory _
  | poke address block => exact kept fun _ => Guise.fools_onMemory _
  | setKey key down => exact kept fun _ => Guise.fools_onKeypad _
  | releaseKeys => rfl
  | collectPicture => rfl

theorem akin_actAll (intact : machine.Intact) (actions : List Action) :
    Akin machine (machine.actAll actions) := by
  induction actions generalizing machine with
  | nil => exact ⟨rfl, rfl, rfl⟩
  | cons action rest inductionHypothesis =>
    have moves : Moves (fun _ => True) (fun _ => True) machine (machine.act action).2 :=
      act_moves intact (fun _ _ => trivial) action action.within_true
    exact (Akin.of_moves moves (perFrame_act intact action)).trans
      (inductionHypothesis (moves.intact intact))

/-! ### What a reset comes to -/

/-- The machine with the keys of another one held down. -/
def holdingKeys (machine other : Machine) : Machine :=
  { machine with keypad := { machine.keypad with down := other.keypad.down } }

/-- Clearing the display of a machine leaves the one it was built with. -/
theorem cleared_of_intact (intact : machine.Intact) :
    machine.display.cleared = Display.blank Layout.displayWidth Layout.displayHeight := by
  have cells : machine.display.cells.size =
      ((Layout.displayWidth : Int) * Layout.displayHeight).toNat := by
    have size := intact.proper.size_cells
    rw [intact.width, intact.height] at size
    omega
  rw [Display.cleared, intact.width, intact.height, cells]
  rfl

/-- What was reset is a new machine with the keys held and the source as it was. -/
theorem restarted_eq (intact : machine.Intact) {pace : Pace} {dialect : Dialect}
    {bytes : Nat → UInt8} {rom : List UInt8} (akin : Akin (booted pace dialect bytes rom) machine)
    (others : Nat → UInt8) :
    machine.restarted Layout.programStart =
      { (booted pace dialect others []).holdingKeys machine with random := machine.random } := by
  have stack : machine.stack.clear = (CallStack.empty Layout.stackDepth).clear :=
    congrArg (CallStack.mk []) akin.depth
  have memory : Memory.blank machine.memory.size =
      Memory.blank (Memory.blank Layout.memorySize).size := by
    rw [intact.memory, Memory.size_blank]
  have display : machine.display.cleared =
      (Display.blank Layout.displayWidth Layout.displayHeight).cleared := by
    rw [cleared_of_intact intact, Display.cleared, Display.blank, Memory.size_blank]
  have paced : machine.pace.restart = pace.restart :=
    congrArg (Pace.mk · 0) akin.perFrame
  have sameDialect : machine.dialect = dialect := akin.dialect
  have bare : booted pace dialect others [] =
      (unset pace dialect others).restarted Layout.programStart := by
    simp only [booted, Memory.place_nil]
  rw [bare]
  unfold restarted
  rw [stack, memory, display, paced, sameDialect]
  rfl

/-- What was reset is a new machine with the keys held, in the guise of a source from which as
much has been drawn. -/
theorem restarted_eq_on (intact : machine.Intact) {pace : Pace} {dialect : Dialect}
    {bytes : Nat → UInt8} {rom : List UInt8}
    (akin : Akin (booted pace dialect bytes rom) machine) :
    machine.restarted Layout.programStart =
      (Guise.preceding machine.random.byteAt machine.random.drawn).on
        ((booted pace dialect machine.random.remaining []).holdingKeys machine) := by
  have source := RandomSource.preceded_remaining machine.random
  rw [restarted_eq intact akin machine.random.remaining]
  exact congrArg (fun random => { (booted pace dialect machine.random.remaining []).holdingKeys
    machine with random := random }) source.symm

/-! ### What can be told apart -/

/-- What a machine answers to actions, one after the other. -/
def replies (machine : Machine) : List Action → List Reply
  | [] => []
  | action :: rest => (machine.act action).1 :: (machine.act action).2.replies rest

/-- Machines that are the same but for their sources, from which the same bytes remain. -/
structure Twins (first second : Machine) : Prop where
  same : first = { second with random := first.random }
  remaining : first.random.remaining = second.random.remaining

theorem twins_on (earlier : Nat → UInt8) (count : Nat) (machine : Machine) :
    Twins ((Guise.preceding earlier count).on machine) machine :=
  ⟨rfl, RandomSource.remaining_preceded earlier count machine.random⟩

theorem replies_on (earlier : Nat → UInt8) (count : Nat) (machine : Machine)
    (actions : List Action) :
    ((Guise.preceding earlier count).on machine).replies actions = machine.replies actions := by
  induction actions generalizing machine with
  | nil => rfl
  | cons action rest inductionHypothesis =>
    rw [replies, replies, Guise.act_on, inductionHypothesis]

theorem loadRom_apply (machine : Machine) (rom : List UInt8) :
    loadRom rom machine =
      match machine.memory.loadRom rom with
      | .ok memory => .ok () { machine with memory := memory }
      | .error trap => .error trap machine := by
  unfold loadRom onMemory
  simp only [Routine.bind_apply, Routine.get_apply, Routine.demand_apply]
  cases machine.memory.loadRom rom <;> rfl

/-- A program is loaded as if no other keys were held, in any guise. -/
theorem loadRom_disguised (guise : Guise) (machine other : Machine) (rom : List UInt8) :
    loadRom rom (guise.on (machine.holdingKeys other)) =
      match machine.memory.loadRom rom with
      | .ok memory => .ok () (guise.on ({ machine with memory := memory }.holdingKeys other))
      | .error trap => .error trap (guise.on (machine.holdingKeys other)) :=
  loadRom_apply _ rom

theorem boot_some {pace : Pace} {speed : Option ClockSpeed}
    (paced : Pace.ofSpeed (speed.getD ClockSpeed.standard) = .ok pace) (dialect : Dialect)
    (bytes : Nat → UInt8) (rom : List UInt8) :
    boot (some rom) speed dialect bytes =
      ((booted pace dialect bytes []).memory.loadRom rom).map fun memory =>
        { booted pace dialect bytes [] with memory := memory } := by
  rw [boot, create_of_pace paced]
  simp only [bind, Except.bind, completed_loadRom]

/-- What a machine does once it was reset and a program was loaded, told by a new machine of that
program, if there can be one. -/
structure Renewal (machine : Machine) (program : List UInt8) (built : Except Trap Machine) :
    Prop where
  /-- With the same keys held the new machine answers the same and comes to the same. -/
  answers : ∀ loaded, built = .ok loaded → ∃ renewed,
    (reset Layout.programStart >>= fun _ => loadRom program) machine = .ok () renewed ∧
      ∀ later, renewed.replies later = (loaded.holdingKeys machine).replies later ∧
        Twins (renewed.actAll later) ((loaded.holdingKeys machine).actAll later)
  /-- A program that no new machine is built with is not loaded either, and leaves the machine as
  it was reset. -/
  refuses : ∀ trap, built = .error trap →
    (reset Layout.programStart >>= fun _ => loadRom program) machine =
      .error trap (machine.restarted Layout.programStart)

theorem renewal (intact : machine.Intact) {pace : Pace} {speed : Option ClockSpeed}
    {dialect : Dialect} {bytes : Nat → UInt8} {rom : List UInt8}
    (paced : Pace.ofSpeed (speed.getD ClockSpeed.standard) = .ok pace)
    (akin : Akin (booted pace dialect bytes rom) machine) (program : List UInt8) :
    Renewal machine program (boot (some program) speed dialect machine.random.remaining) := by
  have loads := boot_some paced dialect machine.random.remaining program
  have renewed := restarted_eq_on intact akin
  have reloads := Routine.bind_apply (reset Layout.programStart) (fun _ => loadRom program) machine
  rw [reset_apply intact, renewed] at reloads
  dsimp only at reloads
  rw [loadRom_disguised] at reloads
  -- From here on it does not matter what the new machine was built from.
  generalize booted pace dialect machine.random.remaining [] = fresh at loads renewed reloads
  rw [loads]
  cases laid : fresh.memory.loadRom program with
  | ok memory =>
    rw [laid] at reloads
    constructor
    · intro loaded same
      cases same
      refine ⟨_, reloads, fun later => ?_⟩
      rw [replies_on, Guise.actAll_on]
      exact ⟨rfl, twins_on _ _ _⟩
    · intro trap same
      cases same
  | error trap =>
    rw [laid] at reloads
    constructor
    · intro loaded same
      cases same
    · intro other same
      cases same
      rw [renewed]
      exact reloads

/-- A reset makes a machine new again, with the keys held and the source as they were. With a
program loaded after it, it answers to everything as a new machine of that program would from
whose source the same bytes remain and on which the same keys are held, and comes to the same. -/
theorem reset_renews {rom : Option (List UInt8)} {speed : Option ClockSpeed} {dialect : Dialect}
    {bytes : Nat → UInt8} {new : Machine} (built : boot rom speed dialect bytes = .ok new)
    (actions : List Action) :
    let reached := new.actAll actions
    (∀ others, ∃ fresh, boot none speed dialect others = .ok fresh ∧
      reset Layout.programStart reached =
        .ok () { fresh.holdingKeys reached with random := reached.random }) ∧
      ∀ program, Renewal reached program
        (boot (some program) speed dialect reached.random.remaining) := by
  intro reached
  have intact : reached.Intact := intact_of_boot built actions
  obtain ⟨pace, paced, -, rfl⟩ := boot_eq_ok_iff.mp built
  have akin : Akin (booted pace dialect bytes (rom.getD [])) reached :=
    akin_actAll (intact_of_boot built []) actions
  refine ⟨fun others => ?_, renewal intact paced akin⟩
  have fresh : boot none speed dialect others = .ok (booted pace dialect others []) :=
    boot_eq_ok_iff.mpr ⟨pace, paced, Nat.zero_le _, rfl⟩
  refine ⟨_, fresh, ?_⟩
  rw [reset_apply intact, restarted_eq intact akin others]

/-- A program that draws a random byte, started over with another one while a key is held. -/
theorem reset_renews_random :
    let dialect := Dialect.ofChoices none none none none
    let bytes : Nat → UInt8 := fun index => UInt8.ofNat index
    ∃ new, boot (some [0xC0, 0xFF]) none dialect bytes = .ok new ∧
      let reached := new.actAll [.setKey 3 true, .step true]
      ∃ loaded renewed,
        boot (some [0x12, 0x00]) none dialect reached.random.remaining = .ok loaded ∧
          (reset Layout.programStart >>= fun _ => loadRom [0x12, 0x00]) reached =
            .ok () renewed ∧
          ∀ later, renewed.replies later = (loaded.holdingKeys reached).replies later := by
  intro dialect bytes
  have built := boot_standard [0xC0, 0xFF] (by decide) dialect bytes
  have renews := (reset_renews built [.setKey 3 true, .step true]).2 [0x12, 0x00]
  have loaded := boot_standard [0x12, 0x00] (by decide) dialect
    ((booted Pace.standard dialect bytes [0xC0, 0xFF]).actAll
      [.setKey 3 true, .step true]).random.remaining
  obtain ⟨renewed, ran, same⟩ := renews.answers _ loaded
  exact ⟨_, built, _, renewed, loaded, ran, fun later => (same later).1⟩

end Machine

end Chip8
