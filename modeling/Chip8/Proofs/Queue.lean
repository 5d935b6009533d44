/-
This file proves what a queue of window events comes to.

A queue is emptied, whatever is in it: an event that asks to quit does not keep
those behind it from being handled. What the queue comes to can be told without
running it. Whether a key is held depends on the last event that concerns its
host key, and the latch on the last press, where a host key that is reported down
again while its key is held has not been pressed. A loss of the keyboard lets go
of all keys and of the latch, so only what came after it counts. The escape key
never comes up for the keypad, since its coming up quits; so if the keymap has
it, its key is held until the keyboard is lost.
-/

import Chip8.Host.EventSource
import Chip8.Proofs.Keymaps
import Chip8.Proofs.Press
import Chip8.Proofs.Requests

namespace Chip8.WindowEvent

/-- Whether the key of a host key depends on an event. -/
def Concerns (code : Int) (event : WindowEvent) : Prop :=
  event = keyDown code ∨ (event = keyUp code ∧ code ≠ escape) ∨ event = focusLost

/-- Whether the key of a host key is held after some events: the last event that concerns the host
key is its going down, or there is none and the key was held before. -/
def Held (before : Bool) (code : Int) (events : List WindowEvent) : Prop :=
  (∃ earlier later, events = earlier ++ keyDown code :: later ∧
      ∀ event ∈ later, ¬ Concerns code event) ∨
    before = true ∧ ∀ event ∈ events, ¬ Concerns code event

/-- A press of a key, which was up until then, and the events after it. -/
def PressedThen (codes : List Int) (keypad : Keypad) (events : List WindowEvent) (key : Fin 16)
    (later : List WindowEvent) : Prop :=
  ∃ earlier code, events = earlier ++ keyDown code :: later ∧ codes[key.val]? = some code ∧
    ¬ Held (keypad.isDown key) code earlier

/-- What the latch holds after some events. -/
inductive Latched (codes : List Int) (keypad : Keypad) (events : List WindowEvent) :
    Option (Fin 16) → Prop
  /-- The last press, if the keyboard was not lost since. -/
  | pressed {key : Fin 16} {later : List WindowEvent}
      (press : PressedThen codes keypad events key later) (since : focusLost ∉ later)
      (last : ∀ other rest, PressedThen codes keypad events other rest →
        later.length ≤ rest.length) : Latched codes keypad events (some key)
  /-- Nothing, if the keyboard was lost and no key was pressed since. -/
  | lost (lost : focusLost ∈ events)
      (before : ∀ key later, PressedThen codes keypad events key later → focusLost ∈ later) :
      Latched codes keypad events none
  /-- What it held before, if neither occurred. -/
  | kept (focused : focusLost ∉ events)
      (unpressed : ∀ key later, ¬ PressedThen codes keypad events key later) :
      Latched codes keypad events keypad.latch

variable {codes : List Int} {keymap : Keymap} {keypad : Keypad} {events : List WindowEvent}
  {event : WindowEvent} {key : Fin 16} {code : Int} {before : Bool}

/-! ### Queues that grow -/

theorem held_nil : Held before code [] ↔ before = true := by
  constructor
  · rintro (⟨earlier, later, whole, -⟩ | ⟨down, -⟩)
    · exact absurd whole (by simp)
    · exact down
  · exact fun down => .inr ⟨down, nofun⟩

theorem held_concat :
    Held before code (events ++ [event]) ↔
      event = keyDown code ∨ (¬ Concerns code event ∧ Held before code events) := by
  constructor
  · rintro (⟨earlier, later, whole, calm⟩ | ⟨down, calm⟩)
    · rcases split_concat whole with ⟨-, -, same⟩ | ⟨rest, rfl, older⟩
      · exact .inl same.symm
      · obtain ⟨calmly, apart⟩ := List.forall_mem_append.mp calm
        exact .inr ⟨apart event List.mem_cons_self, .inl ⟨earlier, rest, older, calmly⟩⟩
    · obtain ⟨calmly, apart⟩ := List.forall_mem_append.mp calm
      exact .inr ⟨apart event List.mem_cons_self, .inr ⟨down, calmly⟩⟩
  · rintro (rfl | ⟨apart, ⟨earlier, later, rfl, calm⟩ | ⟨down, calm⟩⟩)
    · exact .inl ⟨events, [], rfl, nofun⟩
    · refine .inl ⟨earlier, later ++ [event], by rw [List.append_assoc]; rfl, ?_⟩
      exact List.forall_mem_append.mpr ⟨calm, List.forall_mem_singleton.mpr apart⟩
    · exact .inr ⟨down, List.forall_mem_append.mpr ⟨calm, List.forall_mem_singleton.mpr apart⟩⟩

theorem not_pressedThen_nil {later : List WindowEvent} :
    ¬ PressedThen codes keypad [] key later := by
  rintro ⟨earlier, code, whole, -⟩
  exact absurd whole (by simp)

theorem pressedThen_concat {later : List WindowEvent} :
    PressedThen codes keypad (events ++ [event]) key later ↔
      (later = [] ∧ ∃ code, event = keyDown code ∧ codes[key.val]? = some code ∧
          ¬ Held (keypad.isDown key) code events) ∨
        ∃ rest, later = rest ++ [event] ∧ PressedThen codes keypad events key rest := by
  constructor
  · rintro ⟨earlier, code, whole, here, up⟩
    rcases split_concat whole with ⟨rfl, rfl, same⟩ | ⟨rest, rfl, older⟩
    · exact .inl ⟨rfl, code, same.symm, here, up⟩
    · exact .inr ⟨rest, rfl, earlier, code, older, here, up⟩
  · rintro (⟨rfl, code, rfl, here, up⟩ | ⟨rest, rfl, earlier, code, rfl, here, up⟩)
    · exact ⟨events, code, rfl, here, up⟩
    · exact ⟨earlier, code, by rw [List.append_assoc]; rfl, here, up⟩

theorem latched_nil : Latched codes keypad [] keypad.latch :=
  .kept List.not_mem_nil fun _ _ => not_pressedThen_nil

theorem latched_of_press (same : event = keyDown code) (here : codes[key.val]? = some code)
    (up : ¬ Held (keypad.isDown key) code events) :
    Latched codes keypad (events ++ [event]) (some key) :=
  .pressed (pressedThen_concat.mpr (.inl ⟨rfl, code, same, here, up⟩)) List.not_mem_nil
    fun _ _ _ => Nat.zero_le _

theorem latched_of_loss : Latched codes keypad (events ++ [focusLost]) none := by
  refine .lost (List.mem_append_right _ List.mem_cons_self) fun key later press => ?_
  rcases pressedThen_concat.mp press with ⟨-, code, impossible, -⟩ | ⟨rest, rfl, -⟩
  · cases impossible
  · exact List.mem_append_right _ List.mem_cons_self

/-- An event that is no press, and by which the keyboard is not lost, leaves the latch as it is. -/
theorem Latched.concat {latch : Option (Fin 16)} (latched : Latched codes keypad events latch)
    (focused : event ≠ focusLost)
    (stale : ∀ key code, event = keyDown code → codes[key.val]? = some code →
      Held (keypad.isDown key) code events) :
    Latched codes keypad (events ++ [event]) latch := by
  have old : ∀ key later, PressedThen codes keypad (events ++ [event]) key later →
      ∃ rest, later = rest ++ [event] ∧ PressedThen codes keypad events key rest := by
    intro key later press
    rcases pressedThen_concat.mp press with ⟨-, code, same, here, up⟩ | older
    · exact absurd (stale key code same here) up
    · exact older
  have spared : ∀ {others : List WindowEvent}, focusLost ∉ others → focusLost ∉ others ++ [event] :=
    fun absent member => (List.mem_append.mp member).elim absent
      fun newest => focused (List.mem_singleton.mp newest).symm
  cases latched with
  | pressed press since last =>
    refine .pressed (pressedThen_concat.mpr (.inr ⟨_, rfl, press⟩)) (spared since) ?_
    intro other later press
    obtain ⟨rest, rfl, older⟩ := old other later press
    rw [List.length_append, List.length_append]
    exact Nat.add_le_add_right (last other rest older) 1
  | lost lost before =>
    refine .lost (List.mem_append_left _ lost) fun key later press => ?_
    obtain ⟨rest, rfl, older⟩ := old key later press
    exact List.mem_append_left _ (before key rest older)
  | kept absent unpressed =>
    refine .kept (spared absent) fun key later press => ?_
    obtain ⟨rest, rfl, older⟩ := old key later press
    exact unpressed key rest older

/-- The latch holds one thing only. -/
theorem Latched.unique (distinct : codes.Nodup) {latch other : Option (Fin 16)}
    (first : Latched codes keypad events latch) (second : Latched codes keypad events other) :
    latch = other := by
  cases first with
  | pressed press since last =>
    cases second with
    | pressed press' since' last' =>
      have length := Nat.le_antisymm (last _ _ press') (last' _ _ press)
      obtain ⟨earlier, code, whole, here, -⟩ := press
      obtain ⟨earlier', code', whole', here', -⟩ := press'
      have cut := List.append_inj' (whole.symm.trans whole')
        (by simp only [List.length_cons, length])
      cases keyDown.inj (List.cons_eq_cons.mp cut.2).1
      have inside := (List.getElem?_eq_some_iff.mp here).1
      have same := (List.getElem?_inj inside distinct).mp (here.trans here'.symm)
      rw [Fin.ext same]
    | lost _ before => exact absurd (before _ _ press) since
    | kept _ unpressed => exact absurd press (unpressed _ _)
  | lost lost before =>
    cases second with
    | pressed press since => exact absurd (before _ _ press) since
    | lost => rfl
    | kept absent => exact absurd lost absent
  | kept absent unpressed =>
    cases second with
    | pressed press => exact absurd press (unpressed _ _)
    | lost lost => exact absurd lost absent
    | kept => rfl

/-! ### One event -/

/-- What one event does to a keypad. -/
def onEvent (keymap : Keymap) (keypad : Keypad) : WindowEvent → Keypad
  | keyDown code => (keymap.key? code).elim keypad fun key => keypad.set key true
  | keyUp code =>
      if code = escape then keypad
      else (keymap.key? code).elim keypad fun key => keypad.set key false
  | focusLost => Keypad.released
  | closed | other => keypad

theorem obeyAll_commands (state : Controls × Keypad) (event : WindowEvent) :
    (Controls.obeyAll state (commands state.1.keymap event)).2 =
      onEvent state.1.keymap state.2 event := by
  cases event with
  | keyDown code =>
    rw [commands, onEvent]
    cases found : state.1.keymap.key? code with
    | none =>
      rw [if_neg (by simp)]
      split <;> rfl
    | some key =>
      rw [if_pos Option.isSome_some]
      show (state.1.hostKey state.2 code true).2 = _
      rw [Controls.hostKey, found]
      rfl
  | keyUp code =>
    rw [commands, onEvent]
    split
    · rfl
    · show (state.1.hostKey state.2 code false).2 = _
      rw [Controls.hostKey]
      cases state.1.keymap.key? code <;> rfl
  | closed | focusLost | other => rfl

section Mapped

variable (proper : keymap.Proper)
include proper

theorem elim_set_of_mapped (here : keymap.codes[key.val]? = some code) (down : Bool) :
    (keymap.key? code).elim keypad (fun key => keypad.set key down) = keypad.set key down := by
  rw [proper.key?_eq_some_iff.mpr here]
  rfl

/-- A host key leaves the keys of other host keys alone. -/
theorem isDown_elim_set (here : keymap.codes[key.val]? = some code) (code' : Int)
    (down : Bool) :
    ((keymap.key? code').elim keypad fun key => keypad.set key down).isDown key =
      if code' = code then down else keypad.isDown key := by
  split
  · next same =>
    rw [same, elim_set_of_mapped proper here, Keypad.isDown_set_self]
  · next apart =>
    cases found : keymap.key? code' with
    | none => rfl
    | some key' =>
      refine Keypad.isDown_set_other keypad key' key down fun same => apart ?_
      have there := proper.key?_eq_some_iff.mp found
      rw [same] at there
      exact Option.some.inj (there.symm.trans here)

theorem isDown_onEvent (here : keymap.codes[key.val]? = some code) (event : WindowEvent) :
    (onEvent keymap keypad event).isDown key = true ↔
      event = keyDown code ∨ (¬ Concerns code event ∧ keypad.isDown key = true) := by
  cases event with
  | keyDown code' =>
    rw [onEvent, isDown_elim_set proper here]
    by_cases same : code' = code
    · simp [same]
    · simp [same, Concerns]
  | keyUp code' =>
    rw [onEvent]
    by_cases escapes : code' = escape
    · rw [if_pos escapes]
      have calm : ¬ Concerns code (keyUp code') := by
        rintro (impossible | ⟨same, mortal⟩ | impossible)
        · cases impossible
        · exact mortal (keyUp.inj same ▸ escapes)
        · cases impossible
      simp [calm]
    · rw [if_neg escapes, isDown_elim_set proper here]
      by_cases same : code' = code
      · simp [same, Concerns, same ▸ escapes]
      · simp [same, Concerns]
  | focusLost =>
    simp [onEvent, Concerns, Keypad.isDown, Keypad.released]
  | closed | other => simp [onEvent, Concerns]

theorem latch_onEvent_of_press (same : event = keyDown code)
    (here : keymap.codes[key.val]? = some code) (up : keypad.isDown key = false) :
    (onEvent keymap keypad event).latch = some key := by
  rw [same, onEvent, elim_set_of_mapped proper here, Keymap.latch_set, if_pos ⟨rfl, up⟩]

theorem latch_onEvent_of_stale (focused : event ≠ focusLost)
    (stale : ∀ (key : Fin 16) code, event = keyDown code → keymap.codes[key.val]? = some code →
      keypad.isDown key = true) :
    (onEvent keymap keypad event).latch = keypad.latch := by
  cases event with
  | keyDown code =>
    rw [onEvent]
    cases found : keymap.key? code with
    | none => rfl
    | some key =>
      have down := stale key code rfl (proper.key?_eq_some_iff.mp found)
      show (keypad.set key true).latch = _
      rw [Keymap.latch_set, if_neg (by simp [down])]
  | keyUp code =>
    rw [onEvent]
    split
    · rfl
    · cases keymap.key? code with
      | none => rfl
      | some key => exact (Keymap.latch_set keypad key false).trans (if_neg (by simp))
  | focusLost => exact absurd rfl focused
  | closed | other => rfl

end Mapped

/-! ### Whole queues -/

/-- The controls and the keypad after a queue. -/
def afterAll (controls : Controls) (keypad : Keypad) (events : List WindowEvent) :
    Controls × Keypad :=
  Controls.obeyAll (controls, keypad) (allCommands controls.keymap events)

variable {controls : Controls}

theorem afterAll_concat :
    (afterAll controls keypad (events ++ [event])).2 =
      onEvent controls.keymap (afterAll controls keypad events).2 event := by
  have kept : (afterAll controls keypad events).1.keymap = controls.keymap :=
    Controls.keymap_obeyAll _ _
  have last := obeyAll_commands (afterAll controls keypad events) event
  rw [kept] at last
  rw [← last]
  simp only [afterAll, allCommands, List.flatMap_append, List.flatMap_singleton, Controls.obeyAll,
    List.foldl_append]

theorem isDown_afterAll (proper : controls.keymap.Proper)
    (here : controls.keymap.codes[key.val]? = some code) :
    (afterAll controls keypad events).2.isDown key = true ↔
      Held (keypad.isDown key) code events := by
  induction events using List.reverseRecOn with
  | nil => exact held_nil.symm
  | append_singleton events event inductionHypothesis =>
    rw [afterAll_concat, isDown_onEvent proper here, held_concat, inductionHypothesis]

theorem latched_afterAll (proper : controls.keymap.Proper) (events : List WindowEvent) :
    Latched controls.keymap.codes keypad events (afterAll controls keypad events).2.latch := by
  induction events using List.reverseRecOn with
  | nil => exact latched_nil
  | append_singleton events event inductionHypothesis =>
    rw [afterAll_concat]
    by_cases loses : event = focusLost
    · rw [loses]
      exact latched_of_loss
    · by_cases stale : ∀ (key : Fin 16) code, event = keyDown code →
          controls.keymap.codes[key.val]? = some code →
            (afterAll controls keypad events).2.isDown key = true
      · rw [latch_onEvent_of_stale proper loses stale]
        exact inductionHypothesis.concat loses fun key code same here =>
          (isDown_afterAll proper here).mp (stale key code same here)
      · simp only [Classical.not_forall] at stale
        obtain ⟨key, code, same, here, up⟩ := stale
        rw [latch_onEvent_of_press proper same here (Bool.not_eq_true _ ▸ up)]
        exact latched_of_press same here fun down => up ((isDown_afterAll proper here).mpr down)

/-- A single event asks for a step if it is the space bar going down, unless the keymap has it. -/
theorem requested_commands (proper : keymap.Proper) (event : WindowEvent) :
    Controls.requested (commands keymap event) =
      if space ∈ keymap.codes then 0 else if event = keyDown space then 1 else 0 := by
  cases event with
  | keyDown code =>
    simp only [commands, keyDown.injEq]
    cases found : keymap.key? code with
    | some key =>
      have member := proper.mem_codes_iff.mpr ⟨key, found⟩
      rw [if_pos Option.isSome_some]
      split
      · rfl
      · next absent =>
        have apart : code ≠ space := fun same => absent (same ▸ member)
        rw [if_neg apart]
        rfl
    | none =>
      have absent := proper.key?_eq_none_iff.mp found
      rw [if_neg (by simp)]
      split
      · next same =>
        rw [if_neg (same ▸ absent)]
        rfl
      · exact (ite_self 0).symm
  | keyUp code =>
    simp only [commands, reduceCtorEq, if_false, ite_self]
    split <;> rfl
  | closed | focusLost | other =>
    simp only [reduceCtorEq, if_false, ite_self]
    rfl

theorem requested_allCommands (proper : keymap.Proper) (events : List WindowEvent) :
    Controls.requested (allCommands keymap events) =
      if space ∈ keymap.codes then 0 else events.count (keyDown space) := by
  induction events with
  | nil => exact (ite_self 0).symm
  | cons event events inductionHypothesis =>
    have parts : Controls.requested (allCommands keymap (event :: events)) =
        Controls.requested (commands keymap event) +
          Controls.requested (allCommands keymap events) := List.count_append
    rw [parts, requested_commands proper, inductionHypothesis, List.count_cons]
    simp only [beq_iff_eq]
    split
    · rfl
    · exact Nat.add_comm _ _

theorem quit_mem_commands :
    Command.quit ∈ commands keymap event ↔ event = closed ∨ event = keyUp escape := by
  cases event with
  | keyDown code =>
    rw [commands]
    split
    · simp
    · split <;> simp
  | keyUp code =>
    rw [commands]
    split
    · next same => simp [same]
    · next apart => simp [apart]
  | closed | focusLost | other => simp [commands]

theorem quit_mem_allCommands :
    Command.quit ∈ allCommands keymap events ↔ closed ∈ events ∨ keyUp escape ∈ events := by
  rw [allCommands, List.mem_flatMap]
  constructor
  · rintro ⟨event, member, asks⟩
    rcases quit_mem_commands.mp asks with rfl | rfl
    · exact .inl member
    · exact .inr member
  · rintro (member | member)
    · exact ⟨closed, member, quit_mem_commands.mpr (.inl rfl)⟩
    · exact ⟨keyUp escape, member, quit_mem_commands.mpr (.inr rfl)⟩

/-- What becomes of a queue: the answer whether to quit, and the controls and the keypad after
it. The escape key has code 27, the space bar 32. -/
structure Handled (controls : Controls) (keypad : Keypad) (queue : List WindowEvent) (quits : Bool)
    (after : Controls × Keypad) : Prop where
  quits : quits = true ↔ closed ∈ queue ∨ keyUp 27 ∈ queue
  requests : after.1 = { controls with
    stepRequests := controls.stepRequests +
      if 32 ∈ controls.keymap.codes then 0 else queue.count (keyDown 32) }
  held : ∀ (key : Fin 16) code, controls.keymap.codes[key.val]? = some code →
    (after.2.isDown key = true ↔ Held (keypad.isDown key) code queue)
  latched : ∀ latch, after.2.latch = latch ↔ Latched controls.keymap.codes keypad queue latch

/-- A window hands out its whole queue, and every event of it is handled. -/
theorem queue_handled {text : String} {controls : Controls}
    (parsed : Keymap.parse text = .ok controls.keymap) (keypad : Keypad)
    (queue : List WindowEvent) (batches : List (List WindowEvent)) :
    let polled := (EventSource.window queue batches).poll controls.keymap
    polled.2 = .window [] batches ∧
      Handled controls keypad queue (Controls.asksToQuit polled.1)
        (Controls.obeyAll (controls, keypad) polled.1) := by
  have proper := Keymap.proper_of_parse parsed
  refine ⟨rfl, ?_⟩
  exact {
    quits := List.contains_iff_mem.trans quit_mem_allCommands
    requests := by
      have requested : Controls.requested (allCommands controls.keymap queue) =
          if 32 ∈ controls.keymap.codes then 0 else queue.count (keyDown 32) :=
        requested_allCommands proper queue
      rw [← requested]
      exact congrArg₂ Controls.mk (Controls.keymap_obeyAll _ _) (Controls.stepRequests_obeyAll _ _)
    held := fun key code here => isDown_afterAll proper here
    latched := fun latch => ⟨fun same => same ▸ latched_afterAll proper queue,
      fun latched => (latched_afterAll proper queue).unique proper.distinct latched⟩ }

/-- A key that is reported down again while it is held, after another one was pressed, is no press;
and what came before the keyboard was lost does not count, but for the wish to quit. -/
theorem queue_handled_repeated :
    let controls : Controls :=
      ⟨⟨[48, 49, 50, 51, 52, 53, 54, 55, 56, 57, 97, 98, 99, 100, 101, 102]⟩, 0⟩
    let queue := [keyDown 97, closed, focusLost, keyDown 99, keyDown 98, keyDown 99, keyUp 98,
      keyDown space]
    Keymap.parse Keymap.standardText = .ok controls.keymap ∧
      Latched controls.keymap.codes Keypad.released queue (some 11) ∧
      Controls.asksToQuit (allCommands controls.keymap queue) = true := by
  intro controls queue
  have parsed : Keymap.parse Keymap.standardText = .ok controls.keymap := by decide
  obtain ⟨-, handled⟩ := queue_handled parsed Keypad.released queue []
  exact ⟨parsed, (handled.latched _).mp (by decide), handled.quits.mpr (.inl (by decide))⟩

end Chip8.WindowEvent
