/-
This file proves that the credit of a pace never runs out of numbers.

A frame adds the cycles of a frame to the credit, takes the whole part out and
carries the rest over. Only the sum is rounded: the whole part of a double is a
double, and so is what is left without it. So as long as the clock speed is a
moderate whole number, the sum is a moderate number, and what is carried over lies
between zero and one. That is the invariant; from it every frame owes a number of
cycles.
-/

import Chip8.Proofs.Doubles

namespace Chip8

open Double

/-! ### Wholes and fractions -/

namespace Double

variable {double : Float} {number : Rat}

/-- A number that a double holds is whole, or so many parts of a whole. -/
theorem Representable.parts (representable : Representable number) :
    (∃ whole : Int, number = whole) ∨
      ∃ (significand : Int) (count : Nat), |significand| ≤ 2 ^ 53 ∧
        -1074 ≤ -(count : Int) ∧ number = significand / (2 ^ count : Nat) := by
  obtain ⟨significand, power, small, low, rfl⟩ := representable
  rcases le_or_gt 0 power with high | below
  · obtain ⟨whole, same⟩ := exists_mul_zpow significand high
    rw [zpow_zero, mul_one] at same
    exact .inl ⟨whole, same⟩
  · obtain ⟨count, rfl⟩ : ∃ count : Nat, power = -count := ⟨(-power).toNat, by omega⟩
    refine .inr ⟨significand, count, small, low, ?_⟩
    rw [zpow_neg, zpow_natCast, div_eq_mul_inv]
    push_cast
    rfl

theorem Representable.floor (representable : Representable number) :
    Representable ⌊number⌋ := by
  rcases representable.parts with ⟨whole, rfl⟩ | ⟨significand, count, small, -, rfl⟩
  · rwa [Int.floor_intCast]
  · rw [Rat.floor_intCast_div_natCast]
    exact representable_int ((Int.abs_ediv_le_abs _ _).trans small)

theorem Representable.fract (representable : Representable number) (nonneg : 0 ≤ number) :
    Representable (Int.fract number) := by
  rcases representable.parts with ⟨whole, rfl⟩ | ⟨significand, count, small, low, same⟩
  · rw [Int.fract_intCast]
    exact representable_int (by decide)
  · have positive : (0 : Rat) < (2 ^ count : Nat) := by positivity
    have least : 0 ≤ significand := by
      rw [same, le_div_iff₀ positive, zero_mul] at nonneg
      exact_mod_cast nonneg
    have rest : Int.fract number =
        (significand % (2 ^ count : Nat) : Int) * (2 : Rat) ^ (-(count : Int)) := by
      rw [Int.fract, same, Rat.floor_intCast_div_natCast, Int.emod_def, zpow_neg, zpow_natCast]
      push_cast
      field_simp
    refine ⟨_, _, ?_, low, rest⟩
    rw [abs_of_nonneg least] at small
    rw [abs_of_nonneg (Int.emod_nonneg _ (by positivity))]
    refine le_trans ?_ small
    obtain ⟨magnitude, rfl⟩ := Int.eq_ofNat_of_zero_le least
    exact_mod_cast Nat.mod_le magnitude (2 ^ count)

theorem Holds.representable (holds : Holds double number) : Representable number := by
  obtain ⟨canonical, rfl⟩ := holds
  cases apart : double.toModel.unpack with
  | zero sign => exact representable_int (by decide)
  | finite sign significand power positive =>
    rw [apart] at canonical
    refine ⟨sign.apply significand, power, ?_, canonical.2.1, rfl⟩
    have magnitude : |sign.apply (significand : Int)| = significand := by
      cases sign with
      | positive => exact Nat.abs_cast _
      | negative => exact (abs_neg _).trans (Nat.abs_cast _)
    rw [magnitude]
    exact_mod_cast canonical.1.le
  | infinity | notANumber =>
    rw [apart] at canonical
    exact canonical.elim

/-- The whole part of a double is a double, and so is what is left without it. -/
theorem Holds.parted (holds : Holds double number) (nonneg : 0 ≤ number)
    (bounded : number ≤ limit) :
    whole double = .ok ⌊number⌋ ∧ Holds (double - ofInt ⌊number⌋) (Int.fract number) := by
  have cut := whole_of_holds holds
  rw [towardZero, if_pos nonneg] at cut
  refine ⟨cut, ?_⟩
  have least : (0 : Rat) ≤ ⌊number⌋ := by exact_mod_cast Int.floor_nonneg.mpr nonneg
  have converted : Holds (ofInt ⌊number⌋) ⌊number⌋ := by
    refine (rounds_ofInt ?_).holds holds.representable.floor
    rw [abs_of_nonneg least]
    exact (Int.floor_le number).trans bounded
  refine (holds.sub converted ?_).holds (holds.representable.fract nonneg)
  show |Int.fract number| ≤ limit
  rw [abs_of_nonneg (Int.fract_nonneg number)]
  exact (Int.fract_lt_one number).le.trans (pow_le_limit (Nat.zero_le 1023))

end Double

namespace Pace

/-- A pace whose numbers are numbers: so many cycles a frame, and a credit of at most one. -/
structure Sound (pace : Pace) : Prop where
  perFrame : ∃ cycles, Holds pace.perFrame cycles ∧ 0 ≤ cycles ∧ cycles ≤ 2 ^ 50
  credit : ∃ owed, Holds pace.credit owed ∧ 0 ≤ owed ∧ owed ≤ 1

variable {pace : Pace}

theorem Sound.restart (sound : pace.Sound) : pace.restart.Sound where
  perFrame := sound.perFrame
  credit := ⟨0, holds_zero, le_rfl, zero_le_one⟩

/-- A frame owes the whole part of what has come together, rounded, and carries over just what is
left of it. -/
theorem due_of_holds {perFrame credit : Float} {cycles carried : Rat}
    (held : Holds perFrame cycles) (holds : Holds credit carried)
    (nonneg : 0 ≤ carried + cycles) (bounded : carried + cycles ≤ limit) :
    ∃ total left, Faithful (carried + cycles) total ∧ 0 ≤ total ∧
      Pace.due ⟨perFrame, credit⟩ = (.ok ⌊total⌋.toNat, ⟨perFrame, left⟩) ∧
        Holds left (Int.fract total) := by
  obtain ⟨total, summed, faithful⟩ := holds.add held (by rwa [abs_of_nonneg nonneg])
  have least : 0 ≤ total := by
    exact_mod_cast faithful.ge_of_ge _ (representable_int (show |(0 : Int)| ≤ 2 ^ 53 by decide))
      (by exact_mod_cast nonneg)
  obtain ⟨cut, rest⟩ := summed.parted least (faithful.le_of_le _ representable_limit bounded)
  refine ⟨total, _, faithful, least, ?_, rest⟩
  rw [Pace.due, cut]

/-- A frame of a sound pace owes a number of cycles, and the pace stays sound. -/
theorem Sound.due (sound : pace.Sound) :
    ∃ owed credit, pace.due = (.ok owed, { pace with credit := credit }) ∧
      Sound { pace with credit := credit } := by
  obtain ⟨perFrame, carried, holds, least, most⟩ := sound
  obtain ⟨cycles, held, nonneg, few⟩ := perFrame
  have bounded : carried + cycles ≤ 2 ^ 51 := by linarith
  obtain ⟨total, credit, -, -, owes, rest⟩ := due_of_holds held holds (add_nonneg least nonneg)
    (bounded.trans (pow_le_limit (by decide)))
  exact ⟨_, credit, owes, ⟨cycles, held, nonneg, few⟩, Int.fract total, rest,
    Int.fract_nonneg total, (Int.fract_lt_one total).le⟩

/-! ### Clock speeds -/

theorem holds_framesPerSecond : Holds framesPerSecond 60 :=
  holds_ofNat 60 (by decide)

theorem ofInt?_of_holds {count : Int} {number : Rat} (holds : Holds (ofInt count) number) :
    ofInt? count = some (ofInt count) :=
  if_pos (notFinite?_of_holds holds)

/-- A whole number of operations has a pace if it is above zero and within the doubles. -/
theorem ofSpeed_whole_iff {count : Int} :
    ofSpeed (.whole count) = .ok pace ↔
      0 < count ∧ (∃ speed, Holds (ofInt count) speed) ∧
        pace = ⟨ofInt count / framesPerSecond, 0⟩ := by
  have above : (ClockSpeed.whole count).isPositive = true ↔ 0 < count := decide_eq_true_iff
  rw [ofSpeed, ClockSpeed.toDouble?, ofInt?]
  by_cases positive : 0 < count
  · rw [if_pos (above.mpr positive)]
    by_cases finite : notFinite? (ofInt count) = none
    · have held := exists_holds_of_finite finite
      simp [finite, positive, held, eq_comm]
    · have unheld : ¬ ∃ speed, Holds (ofInt count) speed :=
        fun ⟨_, holds⟩ => finite (notFinite?_of_holds holds)
      simp [finite, unheld]
  · rw [if_neg (mt above.mp positive)]
    simp [positive]

/-- A whole number of operations above zero and not too large is a clock speed, of a sound
pace. -/
theorem ofSpeed_whole {count : Int} (positive : 0 < count) (moderate : count ≤ 2 ^ 54) :
    ∃ pace, ofSpeed (.whole count) = .ok pace ∧ pace.Sound := by
  have above : (0 : Rat) ≤ count := by exact_mod_cast positive.le
  have below : (count : Rat) ≤ 2 ^ 54 := by exact_mod_cast moderate
  have within : |(count : Rat)| ≤ limit := by
    rw [abs_of_nonneg above]
    exact below.trans (pow_le_limit (by decide))
  obtain ⟨speed, holds, faithful⟩ := rounds_ofInt within
  have nonneg : 0 ≤ speed := by
    exact_mod_cast faithful.ge_of_ge _ (representable_int (show |(0 : Int)| ≤ 2 ^ 53 by decide))
      (by exact_mod_cast above)
  have few : speed ≤ 2 ^ 54 := by
    exact_mod_cast faithful.le_of_le _ (representable_pow (show -1074 ≤ (54 : Int) by decide))
      (by exact_mod_cast below)
  have low : ((0 : Int) : Rat) ≤ speed / 60 := by
    push_cast
    positivity
  have high : speed / 60 ≤ ((2 ^ 50 : Int) : Rat) := by
    push_cast
    linarith
  obtain ⟨cycles, divided, faithful⟩ := holds.div holds_framesPerSecond (by norm_num) (by
    push_cast at low high
    rw [abs_of_nonneg low]
    exact high.trans (le_trans (by norm_num) (pow_le_limit (show 50 ≤ 1023 by decide))))
  obtain ⟨low, high⟩ := faithful.within low high (by decide) (by decide)
  push_cast at low high
  refine ⟨⟨ofInt count / framesPerSecond, 0⟩, ?_, ⟨cycles, divided, low, high⟩,
    0, holds_zero, le_rfl, zero_le_one⟩
  exact ofSpeed_whole_iff.mpr ⟨positive, ⟨speed, holds⟩, rfl⟩

end Pace

end Chip8
