/-
This file says what counts as a press in a history of events, and that the latch
of the keypad keeps just that.

A press is fresh when its key was up at that moment. Whether a fresh press is
still open, and which one, is told from the history alone: it must not have been
followed by a release of all keys, and the latest one counts. The latch sees one
event at a time and knows no history, yet from the moment it was cleared it
holds a key exactly when a fresh press is open, and then that key. That a key
went up again since does not close its press.
-/

import Mathlib.Data.List.Induction
import Chip8.Machine.Action

namespace Chip8

/-- What can happen around a machine that waits for a key. -/
inductive Event where
  | setKey (key : Fin 16) (down : Bool)
  | releaseKeys
  | tickTimers
  | step (trace : Bool)
  deriving DecidableEq

/-- What stands at a place of a history that has grown is what it has grown by, or stood there
before. -/
theorem split_concat {α : Type} {history earlier later : List α} {last middle : α}
    (whole : history ++ [last] = earlier ++ middle :: later) :
    (later = [] ∧ earlier = history ∧ middle = last) ∨
      ∃ rest, later = rest ++ [last] ∧ history = earlier ++ middle :: rest := by
  rcases List.eq_nil_or_concat later with rfl | ⟨rest, newest, rfl⟩
  · obtain ⟨rfl, same⟩ := List.append_inj' whole rfl
    exact .inl ⟨rfl, rfl, (List.singleton_inj.mp same).symm⟩
  · have shifted : history ++ [last] = (earlier ++ middle :: rest) ++ [newest] := by
      rw [whole, List.concat_eq_append, List.append_assoc]
      rfl
    obtain ⟨same, ends⟩ := List.append_inj' shifted rfl
    exact .inr ⟨rest, by rw [List.concat_eq_append, List.singleton_inj.mp ends], same⟩

namespace Event

/-- The action an event is to the machine. -/
def action : Event → Action
  | setKey key down => .setKey (key : Nat) down
  | releaseKeys => .releaseKeys
  | tickTimers => .tickTimers
  | step trace => .step trace

/-- Whether a key is held down after an event. -/
def hold (held : Fin 16 → Bool) (event : Event) (key : Fin 16) : Bool :=
  match event with
  | setKey other down => if key = other then down else held key
  | releaseKeys => false
  | _ => held key

/-- Which keys are held down after a history of events. -/
def heldAfter (held : Fin 16 → Bool) (events : List Event) : Fin 16 → Bool :=
  events.foldl hold held

/-- A fresh press of a key, and what came after it. -/
def PressedThen (held : Fin 16 → Bool) (events : List Event) (key : Fin 16)
    (later : List Event) : Prop :=
  ∃ earlier, events = earlier ++ setKey key true :: later ∧ heldAfter held earlier key = false

/-- No press is open: each fresh press was followed by a release of all keys. -/
def Unpressed (held : Fin 16 → Bool) (events : List Event) : Prop :=
  ∀ key later, PressedThen held events key later → releaseKeys ∈ later

/-- The latest fresh press was of a key, and all keys were not released since. -/
def PressedLast (held : Fin 16 → Bool) (events : List Event) (key : Fin 16) : Prop :=
  ∃ later, PressedThen held events key later ∧ releaseKeys ∉ later ∧
    ∀ other rest, PressedThen held events other rest → later.length ≤ rest.length

/-- No cycle in a history came upon an open press. -/
def Lasting (held : Fin 16 → Bool) (events : List Event) : Prop :=
  ∀ earlier trace later, events = earlier ++ step trace :: later → Unpressed held earlier

/-- The press that is open, if one is. -/
def OpenPress (held : Fin 16 → Bool) (events : List Event) : Option (Fin 16) → Prop
  | none => Unpressed held events
  | some key => PressedLast held events key

/-- What an event does to the keypad. -/
def onKeypad (keypad : Keypad) : Event → Keypad
  | setKey key down => keypad.set key down
  | releaseKeys => Keypad.released
  | _ => keypad

variable {held : Fin 16 → Bool} {events : List Event} {event : Event} {key : Fin 16}

/-! ### Histories that grow -/

theorem heldAfter_append :
    heldAfter held (events ++ [event]) = hold (heldAfter held events) event := by
  rw [heldAfter, List.foldl_append]
  rfl

/-- A fresh press in a history that has grown is the event it has grown by, or an old one. -/
theorem pressedThen_append {later : List Event} :
    PressedThen held (events ++ [event]) key later ↔
      (later = [] ∧ event = setKey key true ∧ heldAfter held events key = false) ∨
        ∃ rest, later = rest ++ [event] ∧ PressedThen held events key rest := by
  constructor
  · rintro ⟨earlier, whole, up⟩
    rcases split_concat whole with ⟨rfl, rfl, same⟩ | ⟨rest, rfl, older⟩
    · exact .inl ⟨rfl, same.symm, up⟩
    · exact .inr ⟨rest, rfl, earlier, older, up⟩
  · rintro (⟨rfl, rfl, up⟩ | ⟨rest, rfl, earlier, rfl, up⟩)
    · exact ⟨events, rfl, up⟩
    · exact ⟨earlier, by rw [List.append_assoc]; rfl, up⟩

theorem Lasting.of_append (lasting : Lasting held (events ++ [event])) : Lasting held events := by
  intro earlier trace later whole
  refine lasting earlier trace (later ++ [event]) ?_
  rw [whole, List.append_assoc]
  rfl

theorem Lasting.unpressed {trace : Bool} (lasting : Lasting held (events ++ [step trace])) :
    Unpressed held events :=
  lasting events trace [] rfl

theorem unpressed_nil : Unpressed held [] := by
  rintro key later ⟨earlier, whole, -⟩
  exact absurd whole (by simp)

theorem lasting_nil : Lasting held [] := by
  intro earlier trace later whole
  exact absurd whole (by simp)

/-- Every event goes on with a wait, but for a cycle that comes upon an open press. -/
theorem Lasting.append (lasting : Lasting held events)
    (quiet : ∀ trace, event = step trace → Unpressed held events) :
    Lasting held (events ++ [event]) := by
  intro earlier trace later whole
  rcases split_concat whole with ⟨-, rfl, same⟩ | ⟨rest, -, older⟩
  · exact quiet trace same.symm
  · exact lasting earlier trace rest older

/-- Where a wait does not last, there is a first cycle that comes upon an open press. -/
theorem lasting_or_ended (held : Fin 16 → Bool) (events : List Event) :
    Lasting held events ∨ ∃ earlier trace later, events = earlier ++ step trace :: later ∧
      Lasting held earlier ∧ ¬ Unpressed held earlier := by
  induction events using List.reverseRecOn with
  | nil => exact .inl lasting_nil
  | append_singleton events event inductionHypothesis =>
    rcases inductionHypothesis with lasting | ⟨earlier, trace, later, rfl, before, opened⟩
    · by_cases quiet : ∀ trace, event = step trace → Unpressed held events
      · exact .inl (lasting.append quiet)
      · refine .inr ?_
        simp only [Classical.not_forall] at quiet
        obtain ⟨trace, rfl, opened⟩ := quiet
        exact ⟨events, trace, [], rfl, lasting, opened⟩
    · refine .inr ⟨earlier, trace, later ++ [event], ?_, before, opened⟩
      rw [List.append_assoc]
      rfl

/-- A fresh press that opens a history that has grown is the latest. -/
theorem pressedLast_of_fresh (up : heldAfter held events key = false) :
    PressedLast held (events ++ [setKey key true]) key :=
  ⟨[], pressedThen_append.mpr (.inl ⟨rfl, rfl, up⟩), List.not_mem_nil, fun _ _ _ => Nat.zero_le _⟩

theorem unpressed_of_release : Unpressed held (events ++ [releaseKeys]) := by
  intro key later pressed
  rcases pressedThen_append.mp pressed with ⟨-, same, -⟩ | ⟨rest, rfl, -⟩
  · cases same
  · exact List.mem_append_right rest List.mem_cons_self

/-- An event that is no fresh press opens none. -/
theorem Unpressed.append (unpressed : Unpressed held events)
    (stale : ∀ key, event = setKey key true → heldAfter held events key = true) :
    Unpressed held (events ++ [event]) := by
  intro key later pressed
  rcases pressedThen_append.mp pressed with ⟨-, same, up⟩ | ⟨rest, rfl, older⟩
  · rw [stale key same] at up
    cases up
  · exact List.mem_append_left [event] (unpressed key rest older)

/-- An event that is no fresh press, and does not release all keys, leaves the latest press as it
is. -/
theorem PressedLast.append (pressed : PressedLast held events key)
    (stale : ∀ key, event = setKey key true → heldAfter held events key = true)
    (keeps : event ≠ releaseKeys) : PressedLast held (events ++ [event]) key := by
  obtain ⟨later, first, unreleased, latest⟩ := pressed
  refine ⟨later ++ [event], pressedThen_append.mpr (.inr ⟨later, rfl, first⟩), ?_, ?_⟩
  · intro released
    rcases List.mem_append.mp released with older | newest
    · exact unreleased older
    · exact keeps (List.mem_singleton.mp newest).symm
  · intro other rest second
    rcases pressedThen_append.mp second with ⟨-, same, up⟩ | ⟨older, rfl, before⟩
    · rw [stale other same] at up
      cases up
    · rw [List.length_append, List.length_append]
      exact Nat.add_le_add_right (latest other older before) 1

theorem OpenPress.append {latch : Option (Fin 16)} (opened : OpenPress held events latch)
    (stale : ∀ key, event = setKey key true → heldAfter held events key = true)
    (keeps : event ≠ releaseKeys) : OpenPress held (events ++ [event]) latch := by
  cases latch with
  | none => exact Unpressed.append opened stale
  | some key => exact PressedLast.append opened stale keeps

/-- There is only one latest press. -/
theorem PressedLast.unique {other : Fin 16} (first : PressedLast held events key)
    (second : PressedLast held events other) : key = other := by
  obtain ⟨later, ⟨earlier, whole, up⟩, -, latest⟩ := first
  obtain ⟨rest, ⟨before, same, down⟩, -, least⟩ := second
  have length : later.length = rest.length :=
    Nat.le_antisymm (latest other rest ⟨before, same, down⟩) (least key later ⟨earlier, whole, up⟩)
  have cut := List.append_inj' (whole.symm.trans same) (by simp only [List.length_cons, length])
  exact (setKey.inj (List.cons_eq_cons.mp cut.2).1).1

theorem PressedLast.not_unpressed (pressed : PressedLast held events key) :
    ¬ Unpressed held events := by
  obtain ⟨later, first, unreleased, -⟩ := pressed
  exact fun unpressed => unreleased (unpressed key later first)

theorem OpenPress.decided {latch : Option (Fin 16)} (opened : OpenPress held events latch) :
    Unpressed held events ∨ ∃ key, PressedLast held events key := by
  cases latch with
  | none => exact .inl opened
  | some key => exact .inr ⟨key, opened⟩

theorem OpenPress.eq_none {latch : Option (Fin 16)} (opened : OpenPress held events latch)
    (unpressed : Unpressed held events) : latch = none := by
  cases latch with
  | none => rfl
  | some key => exact absurd unpressed (PressedLast.not_unpressed opened)

theorem OpenPress.eq_some {latch : Option (Fin 16)} (opened : OpenPress held events latch)
    (pressed : PressedLast held events key) : latch = some key := by
  cases latch with
  | none => exact absurd opened pressed.not_unpressed
  | some other => rw [pressed.unique opened]

/-- A key that was held goes up only by an event that lets go of it. -/
theorem up_of_heldAfter (down : held key = true) (up : heldAfter held events key = false) :
    setKey key false ∈ events ∨ releaseKeys ∈ events := by
  induction events using List.reverseRecOn with
  | nil =>
    rw [heldAfter, List.foldl_nil, down] at up
    cases up
  | append_singleton events event inductionHypothesis =>
    rw [heldAfter_append] at up
    by_cases before : heldAfter held events key = false
    · rcases inductionHypothesis before with lifted | released
      · exact .inl (List.mem_append_left _ lifted)
      · exact .inr (List.mem_append_left _ released)
    · cases event with
      | releaseKeys => exact .inr (List.mem_append_right _ List.mem_cons_self)
      | tickTimers | step => exact absurd up before
      | setKey other pressed =>
        rw [hold] at up
        split at up
        · next same =>
          rw [same, up]
          exact .inl (List.mem_append_right _ List.mem_cons_self)
        · exact absurd up before

/-- The press of a key that was held at first comes after the key went up. -/
theorem PressedLast.after_up (pressed : PressedLast held events key) (down : held key = true) :
    ∃ earlier later, events = earlier ++ setKey key true :: later ∧
      (setKey key false ∈ earlier ∨ releaseKeys ∈ earlier) := by
  obtain ⟨later, ⟨earlier, whole, up⟩, -, -⟩ := pressed
  exact ⟨earlier, later, whole, up_of_heldAfter down up⟩

/-- A key that goes up again leaves its press open. -/
theorem PressedLast.set_up (pressed : PressedLast held events key) :
    PressedLast held (events ++ [setKey key false]) key :=
  pressed.append (fun _ same => by cases same) (by simp)

/-! ### The latch -/

theorem isDown_onKeypad (keypad : Keypad) (event : Event) :
    (onKeypad keypad event).isDown = hold keypad.isDown event := by
  funext other
  cases event with
  | setKey key down =>
    show (keypad.set key down).isDown other = if other = key then down else keypad.isDown other
    by_cases same : other = key
    · rw [if_pos same, same, Keypad.isDown_set_self]
    · rw [if_neg same, Keypad.isDown_set_other _ _ _ _ (Ne.symm same)]
  | releaseKeys => exact Vector.getElem_replicate ..
  | tickTimers | step => rfl

theorem isDown_foldl (keypad : Keypad) (events : List Event) :
    (events.foldl onKeypad keypad).isDown = heldAfter keypad.isDown events := by
  induction events generalizing keypad with
  | nil => rfl
  | cons event rest inductionHypothesis =>
    rw [List.foldl_cons, inductionHypothesis, isDown_onKeypad]
    rfl

/-- From the moment it was cleared, the latch holds the key of the open press, if one is. -/
theorem openPress_latch (keypad : Keypad) (cleared : keypad.latch = none) (events : List Event) :
    OpenPress keypad.isDown events (events.foldl onKeypad keypad).latch := by
  induction events using List.reverseRecOn with
  | nil =>
    rw [List.foldl_nil, cleared]
    exact unpressed_nil
  | append_singleton events event inductionHypothesis =>
    have held := isDown_foldl keypad events
    rw [List.foldl_append, List.foldl_cons, List.foldl_nil]
    generalize events.foldl onKeypad keypad = now at inductionHypothesis held
    cases event with
    | releaseKeys => exact unpressed_of_release
    | tickTimers | step =>
      exact inductionHypothesis.append (fun _ same => by cases same) (by simp)
    | setKey key down =>
      show OpenPress _ _ (if down && !now.isDown key then some key else now.latch)
      by_cases fresh : (down && !now.isDown key) = true
      · rw [if_pos fresh]
        obtain ⟨pressed, up⟩ := Bool.and_eq_true_iff.mp fresh
        subst pressed
        refine pressedLast_of_fresh ?_
        rw [← held]
        simpa using up
      · rw [if_neg fresh]
        refine inductionHypothesis.append (fun other same => ?_) (by simp)
        obtain ⟨rfl, rfl⟩ := setKey.inj same
        rw [← held]
        simpa using fresh

end Event

end Chip8
