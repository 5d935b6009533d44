/-
This file says what an operation on something that changes is. A routine reads
and changes a state in order and may be refused at any point. A refusal keeps
the state as it then was, so whether an operation that fails has already changed
something is a question about the operation, not a property of the notation.

The equations say what a routine leaves when it is run on a state, one for each
way routines are put together.
-/

import Chip8.Fault

namespace Chip8

/-- An operation on a state, which may be refused on the way. -/
abbrev Routine (σ : Type) := EStateM Trap σ

/-- Goes on with a result, or is refused as it was. -/
def demand {σ α : Type} : Except Trap α → Routine σ α
  | .ok value => pure value
  | .error trap => throw trap

namespace Routine

variable {σ τ α β : Type}

/-- The state a routine leaves, if it was not refused. -/
def completed (routine : Routine σ α) (state : σ) : Except Trap σ :=
  match routine state with
  | .ok _ after => .ok after
  | .error trap _ => .error trap

/-- Runs a routine on a part of a whole. A refusal, too, leaves the whole with the part as the
routine left it. -/
def onPart (part : τ → σ) (replace : τ → σ → τ) (routine : Routine σ α) : Routine τ α :=
  fun whole =>
    match routine (part whole) with
    | .ok value after => .ok value (replace whole after)
    | .error trap after => .error trap (replace whole after)

/-! ### What a routine leaves -/

theorem pure_apply (value : α) (state : σ) :
    (pure value : Routine σ α) state = .ok value state := rfl

theorem bind_apply (routine : Routine σ α) (next : α → Routine σ β) (state : σ) :
    (routine >>= next) state =
      match routine state with
      | .ok value after => next value after
      | .error trap after => .error trap after := by
  show EStateM.bind routine next state = _
  unfold EStateM.bind
  cases routine state <;> rfl

theorem get_apply (state : σ) : (get : Routine σ σ) state = .ok state state := rfl

theorem set_apply (after state : σ) : (set after : Routine σ PUnit) state = .ok ⟨⟩ after := rfl

theorem modify_apply (change : σ → σ) (state : σ) :
    (modify change : Routine σ PUnit) state = .ok ⟨⟩ (change state) := rfl

theorem demand_apply (result : Except Trap α) (state : σ) :
    demand result state =
      match result with
      | .ok value => .ok value state
      | .error trap => .error trap state := by
  cases result <;> rfl

/-! ### What a routine that was not refused has come through -/

theorem of_bind_ok {routine : Routine σ α} {next : α → Routine σ β} {state after : σ} {value : β}
    (ran : (routine >>= next) state = .ok value after) :
    ∃ first between, routine state = .ok first between ∧ next first between = .ok value after := by
  rw [bind_apply] at ran
  cases met : routine state with
  | ok first between =>
    rw [met] at ran
    exact ⟨first, between, rfl, ran⟩
  | error trap between =>
    rw [met] at ran
    cases ran

theorem of_demand_ok {result : Except Trap α} {state after : σ} {value : α}
    (ran : demand result state = .ok value after) : result = .ok value ∧ after = state := by
  rw [demand_apply] at ran
  cases result with
  | ok found =>
    cases ran
    exact ⟨rfl, rfl⟩
  | error trap => cases ran

end Routine

end Chip8
