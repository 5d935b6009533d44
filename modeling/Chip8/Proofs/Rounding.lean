/-
This file proves that arithmetic in doubles rounds, and rounds faithfully.

A double is an integer of at most fifty-three bits before a power of two. A sum,
a product or a quotient of two of them seldom is one again. What an operation
gives in its place lies on the same side of every double as the exact result
does: nothing that could have been had is passed over. So a result that is a
double comes out as it is, and no bound that is a double is ever crossed. That
is less than rounding to the nearest, and all that the pace of a machine asks
for.

The operations take a number apart into a sign, a significand and a power, shift
the significand to where its last bit belongs, and keep two bits of what is
shifted out. What a shift keeps and what it forgets is stated once; addition,
multiplication and division differ only in the number they shift.
-/

import Mathlib.Algebra.Order.Floor.Ring
import Mathlib.Algebra.Order.Field.Power
import Mathlib.Data.Rat.Floor
import Mathlib.Tactic.Linarith
import Mathlib.Tactic.Positivity
import Mathlib.Tactic.NormNum
import Mathlib.Tactic.FieldSimp
import Mathlib.Tactic.Ring
import Chip8.Pace

namespace Chip8.Double

open Float.Model (Format totalExponent UnpackedFloat)
open Float.Model.UnpackedFloat

/-- A number that a double holds if it is not too large: at most fifty-three bits before a power
of two. -/
def Representable (number : Rat) : Prop :=
  ∃ significand power : Int,
    |significand| ≤ 2 ^ 53 ∧ -1074 ≤ power ∧ number = significand * 2 ^ power

/-- A rounding that passes over no number that could have been had. -/
structure Faithful (exact rounded : Rat) : Prop where
  le_of_le : ∀ bound, Representable bound → exact ≤ bound → rounded ≤ bound
  ge_of_ge : ∀ bound, Representable bound → bound ≤ exact → bound ≤ rounded

theorem Representable.neg {number : Rat} (representable : Representable number) :
    Representable (-number) := by
  obtain ⟨significand, power, small, low, rfl⟩ := representable
  exact ⟨-significand, power, by rwa [abs_neg], low, by push_cast; ring⟩

theorem representable_int {number : Int} (small : |number| ≤ 2 ^ 53) : Representable number :=
  ⟨number, 0, small, by decide, by simp⟩

theorem representable_pow {power : Int} (low : -1074 ≤ power) : Representable (2 ^ power) :=
  ⟨1, power, by decide, low, by simp⟩

theorem Faithful.refl (number : Rat) : Faithful number number :=
  ⟨fun _ _ => id, fun _ _ => id⟩

theorem Faithful.neg {exact rounded : Rat} (faithful : Faithful exact rounded) :
    Faithful (-exact) (-rounded) where
  le_of_le bound representable above := by
    have := faithful.ge_of_ge (-bound) representable.neg (by linarith)
    linarith
  ge_of_ge bound representable below := by
    have := faithful.le_of_le (-bound) representable.neg (by linarith)
    linarith

theorem Faithful.eq {exact rounded : Rat} (faithful : Faithful exact rounded)
    (representable : Representable exact) : rounded = exact :=
  le_antisymm (faithful.le_of_le _ representable le_rfl) (faithful.ge_of_ge _ representable le_rfl)

/-- Rounding keeps a number between the integers that it lies between. -/
theorem Faithful.within {exact rounded : Rat} (faithful : Faithful exact rounded)
    {least most : Int} (low : (least : Rat) ≤ exact) (high : exact ≤ most)
    (small : |least| ≤ 2 ^ 53) (large : |most| ≤ 2 ^ 53) :
    (least : Rat) ≤ rounded ∧ rounded ≤ most :=
  ⟨faithful.ge_of_ge _ (representable_int small) low,
    faithful.le_of_le _ (representable_int large) high⟩

/-! ### Mantissas -/

/-- What a mantissa and its two bits tell of a number: its whole part, and whether anything is left
of it. -/
structure Tells (mantissa : ExtendedMantissa) (number : Rat) : Prop where
  low : mantissa.mantissa ≤ number
  high : number < mantissa.mantissa + 1
  whole : (mantissa.roundBit || mantissa.stickyBit) = false → number = mantissa.mantissa
  more : (mantissa.roundBit || mantissa.stickyBit) = true → mantissa.mantissa < number

theorem Tells.shiftRightOne {mantissa : ExtendedMantissa} {number : Rat}
    (tells : Tells mantissa number) : Tells mantissa.shiftRightOne (number / 2) := by
  obtain ⟨significand, round, sticky⟩ := mantissa
  obtain ⟨low, high, whole, more⟩ := tells
  dsimp only at low high whole more
  have split : (significand : Rat) = 2 * (significand / 2 : Nat) + (significand % 2 : Nat) := by
    exact_mod_cast (Nat.div_add_mod significand 2).symm
  rcases Nat.mod_two_eq_zero_or_one significand with even | odd
  · rw [even] at split
    push_cast at split
    constructor
    all_goals simp only [ExtendedMantissa.shiftRightOne, even]
    · linarith
    · linarith
    · intro none
      rw [whole (by simpa using none)]
      linarith
    · intro some
      have := more (by simpa using some)
      linarith
  · rw [odd] at split
    push_cast at split
    constructor
    all_goals simp only [ExtendedMantissa.shiftRightOne, odd]
    · linarith
    · linarith
    · intro none
      simp at none
    · intro some
      linarith

theorem Tells.shift {mantissa : ExtendedMantissa} {number : Rat} (tells : Tells mantissa number)
    (count : Nat) : Tells (mantissa >>> count) (number / 2 ^ count) := by
  induction count with
  | zero =>
    rw [pow_zero, div_one]
    exact tells
  | succ count inductionHypothesis =>
    rw [pow_succ, ← div_div]
    exact inductionHypothesis.shiftRightOne

theorem Tells.rounded {mantissa : ExtendedMantissa} {number : Rat} (tells : Tells mantissa number)
    (bound : Nat) :
    (number ≤ bound → mantissa.roundedMantissa ≤ bound) ∧
      (bound ≤ number → bound ≤ mantissa.roundedMantissa) := by
  obtain ⟨significand, round, sticky⟩ := mantissa
  obtain ⟨low, high, whole, more⟩ := tells
  dsimp only at low high whole more
  have least : (bound : Rat) ≤ number → bound ≤ significand := fun below => by
    have : (bound : Rat) < significand + 1 := by linarith
    exact Nat.lt_succ_iff.mp (by exact_mod_cast this)
  cases round with
  | false =>
    have rounded :
        (⟨significand, false, sticky⟩ : ExtendedMantissa).roundedMantissa = significand := by
      cases sticky <;> rfl
    rw [rounded]
    exact ⟨fun above => by exact_mod_cast low.trans above, least⟩
  | true =>
    have rounded :
        (⟨significand, true, sticky⟩ : ExtendedMantissa).roundedMantissa ≤ significand + 1 ∧
          significand ≤ (⟨significand, true, sticky⟩ : ExtendedMantissa).roundedMantissa := by
      cases sticky
      · show significand + significand % 2 ≤ _ ∧ _ ≤ significand + significand % 2
        omega
      · show significand + 1 ≤ _ ∧ _ ≤ significand + 1
        omega
    refine ⟨fun above => ?_, fun below => (least below).trans rounded.2⟩
    have : (significand : Rat) < bound := (more rfl).trans_le above
    exact rounded.1.trans (by exact_mod_cast this)

theorem tells_ofMantissaAndAccuracy_exact (significand : Nat) :
    Tells (.ofMantissaAndAccuracy significand .exact) significand :=
  ⟨le_rfl, lt_add_one _, fun _ => rfl, fun some => by cases some⟩

theorem targetExponent_binary64 (total : Int) :
    Format.binary64.targetExponent total = max (total - 53) (-1074) := rfl

theorem targetExponent_eq (significand : Nat) (power : Int) :
    Format.binary64.targetExponent (totalExponent significand power) =
      max (significand.log2 + power - 52) (-1074) := by
  rw [targetExponent_binary64, totalExponent]
  omega

theorem Tells.nonneg {mantissa : ExtendedMantissa} {number : Rat} (tells : Tells mantissa number) :
    0 ≤ number :=
  (Nat.cast_nonneg _).trans tells.low

variable {significand : Nat} {power : Int} {accuracy : Accuracy} {number : Rat}

theorem two_zpow_pos (power : Int) : (0 : Rat) < 2 ^ power :=
  zpow_pos two_pos power

/-- A whole multiple of a power of two is a whole multiple of any lower one. -/
theorem exists_mul_zpow (count : Int) {high low : Int} (le : low ≤ high) :
    ∃ more : Int, (count : Rat) * 2 ^ high = more * 2 ^ low := by
  refine ⟨count * 2 ^ (high - low).toNat, ?_⟩
  push_cast
  rw [mul_assoc, ← zpow_natCast, ← zpow_add₀ two_ne_zero, Int.toNat_of_nonneg (by omega)]
  congr 2
  omega

/-- The first shift of a rounding tells of the number in units of the target. -/
theorem tells_shiftToTargetExponent (low : power ≤ max (significand.log2 + power - 52) (-1074))
    (tells : Tells (.ofMantissaAndAccuracy significand accuracy) number) :
    let target : Int := max (significand.log2 + power - 52) (-1074)
    let shifted := shiftToTargetExponent Format.binary64 significand power accuracy
    shifted.2 = target ∧ Tells shifted.1 (number * 2 ^ power / 2 ^ target) := by
  intro target shifted
  obtain ⟨count, counted⟩ : ∃ count : Nat, (target - power).toNat = count := ⟨_, rfl⟩
  have reached : power + (count : Int) = target := by omega
  have first : shifted =
      (ExtendedMantissa.ofMantissaAndAccuracy significand accuracy >>> count, target) := by
    show shiftToTargetExponent _ _ _ _ = _
    unfold shiftToTargetExponent
    rw [targetExponent_eq, ← reached, ← counted]
    rfl
  have scaled : number * 2 ^ power / 2 ^ target = number / 2 ^ count := by
    rw [← reached, zpow_add₀ two_ne_zero, zpow_natCast]
    field_simp
  rw [first, scaled]
  exact ⟨rfl, tells.shift count⟩

/-- Rounding to a count of units is faithful, if the units are as small as they can be or the
count leaves no bit of a significand unused. -/
theorem faithful_units {count : Nat} {unit : Int} (nonneg : 0 ≤ number)
    (rounds : ∀ bound : Nat, (number ≤ bound → count ≤ bound) ∧ (bound ≤ number → bound ≤ count))
    (fine : 2 ^ 52 ≤ number ∨ unit ≤ -1074) :
    Faithful (number * 2 ^ unit) (count * 2 ^ unit) := by
  have positive := two_zpow_pos unit
  -- A bound in smaller units lies below all that the significand can count.
  have coarse {bits power : Int} (small : |bits| ≤ 2 ^ 53) (low : -1074 ≤ power)
      (below : power < unit) :
      2 ^ 52 ≤ number ∧ 2 ^ 52 ≤ count ∧ (bits : Rat) * 2 ^ power ≤ 2 ^ 52 * 2 ^ unit := by
    have many : (2 : Rat) ^ 52 ≤ number := fine.resolve_right (by omega)
    refine ⟨many, by exact_mod_cast (rounds (2 ^ 52)).2 (by exact_mod_cast many), ?_⟩
    have half : (2 : Rat) ^ power ≤ 2 ^ (unit - 1) := zpow_le_zpow_right₀ one_le_two (by omega)
    have double : (2 : Rat) ^ unit = 2 * 2 ^ (unit - 1) := by
      rw [← zpow_one_add₀ two_ne_zero]
      congr 1
      omega
    have bound : (bits : Rat) ≤ 2 ^ 53 := by exact_mod_cast (le_abs_self bits).trans small
    calc (bits : Rat) * 2 ^ power ≤ 2 ^ 53 * 2 ^ (unit - 1) :=
          mul_le_mul bound half (two_zpow_pos power).le (by positivity)
      _ = 2 ^ 52 * 2 ^ unit := by rw [double]; ring
  constructor
  · rintro bound ⟨bits, power, small, low, rfl⟩ above
    by_cases below : power < unit
    · obtain ⟨many, -, under⟩ := coarse small low below
      have least := mul_le_mul_of_nonneg_right many positive.le
      have exact : number ≤ (2 ^ 52 : Nat) := by
        push_cast
        exact le_of_mul_le_mul_right (above.trans under) positive
      have counted : (count : Rat) ≤ 2 ^ 52 := by exact_mod_cast (rounds _).1 exact
      exact (mul_le_mul_of_nonneg_right counted positive.le).trans (least.trans above)
    · obtain ⟨more, same⟩ := exists_mul_zpow bits (not_lt.mp below)
      rw [same] at above ⊢
      have within := le_of_mul_le_mul_right above positive
      obtain ⟨bound, rfl⟩ :=
        Int.eq_ofNat_of_zero_le (show 0 ≤ more by exact_mod_cast nonneg.trans within)
      have counted : (count : Rat) ≤ bound := by
        exact_mod_cast (rounds bound).1 (by exact_mod_cast within)
      exact mul_le_mul_of_nonneg_right (by exact_mod_cast counted) positive.le
  · rintro bound ⟨bits, power, small, low, rfl⟩ above
    by_cases below : power < unit
    · obtain ⟨-, many, under⟩ := coarse small low below
      exact under.trans (mul_le_mul_of_nonneg_right (by exact_mod_cast many) positive.le)
    · obtain ⟨more, same⟩ := exists_mul_zpow bits (not_lt.mp below)
      rw [same] at above ⊢
      have within := le_of_mul_le_mul_right above positive
      refine mul_le_mul_of_nonneg_right ?_ positive.le
      rcases le_or_gt more 0 with negative | nonneg
      · exact (show (more : Rat) ≤ 0 by exact_mod_cast negative).trans (Nat.cast_nonneg _)
      · obtain ⟨bound, rfl⟩ := Int.eq_ofNat_of_zero_le nonneg.le
        exact_mod_cast (rounds bound).2 (by exact_mod_cast within)

/-- The value of a number taken apart. What is infinite or no number counts as zero. -/
def value : UnpackedFloat → Rat
  | .finite sign significand power _ => sign.apply significand * 2 ^ power
  | _ => 0

/-- A finite number taken apart as doubles are, however large. -/
def Canonical : UnpackedFloat → Prop
  | .zero _ => True
  | .finite _ significand power _ =>
      significand < 2 ^ 53 ∧ -1074 ≤ power ∧ (2 ^ 52 ≤ significand ∨ power = -1074)
  | _ => False

/-- The second shift of a rounding takes up a carry, and changes nothing else. -/
theorem shiftToTargetExponent_carry (small : significand ≤ 2 ^ 53) (low : -1074 ≤ power) :
    let shifted := shiftToTargetExponent Format.binary64 significand power .exact
    (shifted.1.mantissa : Rat) * 2 ^ shifted.2 = significand * 2 ^ power ∧
      shifted.1.mantissa < 2 ^ 53 ∧ -1074 ≤ shifted.2 ∧
      (2 ^ 52 ≤ significand ∨ power = -1074 →
        2 ^ 52 ≤ shifted.1.mantissa ∨ shifted.2 = -1074) := by
  intro shifted
  rcases Nat.lt_or_ge significand (2 ^ 53) with below | full
  · have bits : significand.log2 ≤ 52 := by
      rcases Nat.eq_zero_or_pos significand with rfl | positive
      · decide
      · exact Nat.lt_succ_iff.mp ((Nat.log2_lt positive.ne').mpr below)
    have same : shifted = (⟨significand, false, false⟩, power) := by
      show shiftToTargetExponent _ _ _ _ = _
      unfold shiftToTargetExponent
      rw [targetExponent_eq, shiftToExponent]
      rw [show (max (significand.log2 + power - 52) (-1074) - power).toNat = 0 by omega]
      simp [ExtendedMantissa.ofMantissaAndAccuracy, HShiftRight.hShiftRight, Nat.repeat]
    rw [same]
    exact ⟨rfl, below, low, id⟩
  · obtain rfl : significand = 2 ^ 53 := Nat.le_antisymm small full
    have carried : shifted = (⟨2 ^ 52, false, false⟩, power + 1) := by
      show shiftToTargetExponent _ _ _ _ = _
      unfold shiftToTargetExponent
      rw [targetExponent_eq, Nat.log2_two_pow, shiftToExponent]
      rw [show (max ((53 : Nat) + power - 52) (-1074) - power).toNat = 1 by omega]
      rfl
    rw [carried]
    refine ⟨?_, show 2 ^ 52 < 2 ^ 53 by decide, by omega, fun _ => .inl le_rfl⟩
    rw [zpow_add_one₀ two_ne_zero]
    push_cast
    ring

theorem sign_apply_cast (sign : Sign) (count : Nat) :
    ((sign.apply count : Int) : Rat) = (sign.apply 1 : Int) * count := by
  cases sign <;> simp [Sign.apply]

/-- Signs do not matter to rounding. -/
theorem Faithful.signed {exact rounded : Rat} (faithful : Faithful exact rounded) (sign : Sign) :
    Faithful ((sign.apply 1 : Int) * exact) ((sign.apply 1 : Int) * rounded) := by
  cases sign with
  | positive => simpa [Sign.apply] using faithful
  | negative => simpa [Sign.apply] using faithful.neg

/-- In units of the target a number has fifty-three bits, unless the units are the smallest. -/
theorem units_bounds (low : power ≤ max (significand.log2 + power - 52) (-1074))
    (tells : Tells (.ofMantissaAndAccuracy significand accuracy) number) :
    let target : Int := max (significand.log2 + power - 52) (-1074)
    number * 2 ^ power / 2 ^ target ≤ 2 ^ 53 ∧
      (2 ^ 52 ≤ number * 2 ^ power / 2 ^ target ∨ target = -1074) := by
  intro target
  have whole : (ExtendedMantissa.ofMantissaAndAccuracy significand accuracy).mantissa =
      significand := by
    cases accuracy with
    | exact => rfl
    | inexact order => cases order <;> rfl
  have least := tells.low
  have most := tells.high
  rw [whole] at least most
  have positive := two_zpow_pos target
  rw [div_le_iff₀ positive, le_div_iff₀ positive]
  constructor
  · have under : (significand : Rat) + 1 ≤ 2 ^ (significand.log2 + 1) := by
      exact_mod_cast Nat.lt_log2_self
    calc number * 2 ^ power ≤ 2 ^ (significand.log2 + 1) * 2 ^ power :=
          mul_le_mul_of_nonneg_right (most.le.trans under) (two_zpow_pos power).le
      _ = 2 ^ ((significand.log2 : Int) + 1 + power) := by
          rw [← zpow_natCast, ← zpow_add₀ two_ne_zero]
          push_cast
          rfl
      _ ≤ 2 ^ (53 + target) := zpow_le_zpow_right₀ one_le_two (by omega)
      _ = 2 ^ 53 * 2 ^ target := by rw [zpow_add₀ two_ne_zero]; norm_num
  · by_cases lowest : target = -1074
    · exact .inr lowest
    · left
      have nonzero : significand ≠ 0 := by
        rintro rfl
        have none : Nat.log2 0 = 0 := Nat.log2_zero
        omega
      have reached : (2 : Rat) ^ significand.log2 ≤ significand := by
        exact_mod_cast Nat.log2_self_le nonzero
      calc (2 : Rat) ^ 52 * 2 ^ target = 2 ^ (52 + target) := by
            rw [zpow_add₀ two_ne_zero]; norm_num
        _ = 2 ^ ((significand.log2 : Int) + power) := by congr 1; omega
        _ = 2 ^ significand.log2 * 2 ^ power := by rw [zpow_add₀ two_ne_zero, zpow_natCast]
        _ ≤ number * 2 ^ power :=
          mul_le_mul_of_nonneg_right (reached.trans least) (two_zpow_pos power).le

/-- Rounding is faithful, and leaves a number taken apart as doubles are. -/
theorem roundWithAccuracy_faithful (sign : Sign)
    (low : power ≤ max (significand.log2 + power - 52) (-1074))
    (tells : Tells (.ofMantissaAndAccuracy significand accuracy) number) :
    let result := roundWithAccuracy Format.binary64 sign significand power accuracy
    Canonical result ∧ Faithful ((sign.apply 1 : Int) * (number * 2 ^ power)) (value result) := by
  obtain ⟨reached, told⟩ := tells_shiftToTargetExponent low tells
  obtain ⟨below, fine⟩ := units_bounds low tells
  have least : -1074 ≤ max (significand.log2 + power - 52) (-1074) := le_max_right _ _
  generalize max (significand.log2 + power - 52) (-1074) = target at reached told below fine least
  generalize shifted : shiftToTargetExponent Format.binary64 significand power accuracy = first
    at reached told
  obtain ⟨mantissa, unit⟩ := first
  obtain rfl : unit = target := reached
  have rounded := told.rounded
  have small : mantissa.roundedMantissa ≤ 2 ^ 53 :=
    (rounded _).1 (by exact_mod_cast below)
  have full : 2 ^ 52 ≤ mantissa.roundedMantissa ∨ unit = -1074 :=
    fine.imp_left fun many => (rounded _).2 (by exact_mod_cast many)
  have faithful := faithful_units told.nonneg rounded (fine.imp_right Eq.le)
  rw [div_mul_cancel₀ _ (two_zpow_pos _).ne'] at faithful
  -- The second shift changes the number no more, so what was faithful stays so.
  obtain ⟨same, bits, powers, canonical⟩ := shiftToTargetExponent_carry small least
  rw [← same] at faithful
  unfold roundWithAccuracy
  rw [shifted]
  dsimp only at bits powers canonical faithful ⊢
  by_cases none :
      (shiftToTargetExponent Format.binary64 mantissa.roundedMantissa unit .exact).1.mantissa = 0
  · rw [none, Nat.cast_zero, zero_mul] at faithful
    have signed := faithful.signed sign
    rw [mul_zero] at signed
    rw [dif_pos none]
    exact ⟨trivial, signed⟩
  · rw [dif_neg none]
    refine ⟨⟨bits, powers, canonical full⟩, ?_⟩
    have signed := faithful.signed sign
    rw [← mul_assoc _ (Nat.cast _ : Rat), ← sign_apply_cast] at signed
    exact signed

theorem log2_shiftLeft (positive : 0 < significand) (count : Nat) :
    (significand <<< count).log2 = significand.log2 + count := by
  rw [Nat.shiftLeft_eq, Nat.log2_eq_iff (by positivity), Nat.pow_add, Nat.add_right_comm,
    Nat.pow_add]
  exact ⟨Nat.mul_le_mul_right _ (Nat.log2_self_le positive.ne'),
    Nat.mul_lt_mul_of_pos_right Nat.lt_log2_self (by positivity)⟩

/-- So is rounding a number whose power is first brought down to the target. -/
theorem round_faithful (sign : Sign) (power : Int) (positive : 0 < significand) :
    let result := UnpackedFloat.round Format.binary64 sign significand power
    Canonical result ∧
      Faithful ((sign.apply significand : Int) * 2 ^ power) (value result) := by
  unfold UnpackedFloat.round decreaseExponent
  rw [targetExponent_eq]
  dsimp only
  generalize counted : (power - max (significand.log2 + power - 52) (-1074)).toNat = count
  have bits := log2_shiftLeft positive count
  have low : power - count ≤ max ((significand <<< count).log2 + (power - count) - 52) (-1074) := by
    rw [bits]
    push_cast
    omega
  have rounded := roundWithAccuracy_faithful sign low (tells_ofMantissaAndAccuracy_exact _)
  have same :
      ((significand <<< count : Nat) : Rat) * 2 ^ (power - count) = significand * 2 ^ power := by
    rw [Nat.shiftLeft_eq, zpow_sub₀ two_ne_zero, zpow_natCast]
    push_cast
    field_simp
  rw [same, ← mul_assoc, ← sign_apply_cast] at rounded
  exact rounded

/-! ### Operations on numbers taken apart -/

theorem normalize_faithful (count : Int) (power : Int) (sign : Sign) :
    Canonical (normalize Format.binary64 count power sign) ∧
      Faithful (count * 2 ^ power) (value (normalize Format.binary64 count power sign)) := by
  rcases lt_trichotomy count 0 with negative | rfl | positive
  · obtain ⟨magnitude, rfl⟩ : ∃ magnitude : Nat, count = -magnitude := ⟨count.natAbs, by omega⟩
    have rounded := round_faithful .negative power (show 0 < magnitude by omega)
    have same : normalize Format.binary64 (-magnitude) power sign =
        UnpackedFloat.round Format.binary64 .negative magnitude power := by
      rw [UnpackedFloat.normalize, Int.compare_eq_lt.mpr negative]
      simp
    rw [same]
    exact rounded
  · have same : normalize Format.binary64 0 power sign = .zero sign := rfl
    rw [same, Int.cast_zero, zero_mul]
    exact ⟨trivial, .refl 0⟩
  · obtain ⟨magnitude, rfl⟩ := Int.eq_ofNat_of_zero_le positive.le
    have rounded := round_faithful .positive power (show 0 < magnitude by omega)
    have same : normalize Format.binary64 magnitude power sign =
        UnpackedFloat.round Format.binary64 .positive magnitude power := by
      rw [UnpackedFloat.normalize, Int.compare_eq_gt.mpr positive]
      simp
    rw [same]
    exact rounded

theorem decreaseExponent_value (sign : Sign) {low : Int} (below : low ≤ power) :
    ((sign.apply (decreaseExponent significand power low).1 : Int) : Rat) * 2 ^ low =
      (sign.apply significand : Int) * 2 ^ power := by
  obtain ⟨count, rfl⟩ : ∃ count : Nat, power = low + count := ⟨(power - low).toNat, by omega⟩
  have same : (decreaseExponent significand (low + count) low).1 = significand * 2 ^ count := by
    rw [decreaseExponent, add_sub_cancel_left, Int.toNat_natCast, Nat.shiftLeft_eq]
  rw [same, sign_apply_cast, sign_apply_cast sign significand, zpow_add₀ two_ne_zero, zpow_natCast]
  push_cast
  ring

theorem sign_neg_apply (sign : Sign) (count : Int) : (-sign).apply count = -sign.apply count := by
  cases sign with
  | positive => rfl
  | negative => exact (Int.neg_neg count).symm

theorem value_neg (number : UnpackedFloat) : value number.neg = -value number := by
  cases number with
  | finite sign significand power positive =>
    show (((-sign).apply significand : Int) : Rat) * 2 ^ power = _
    rw [sign_neg_apply, Int.cast_neg, neg_mul]
    rfl
  | _ => exact neg_zero.symm

theorem Canonical.neg {number : UnpackedFloat} (canonical : Canonical number) :
    Canonical number.neg := by
  cases number <;> exact canonical

theorem value_zero (sign : Sign) : value (.zero sign) = 0 := rfl

theorem value_finite (sign : Sign) (positive : 0 < significand) :
    value (.finite sign significand power positive) = (sign.apply significand : Int) * 2 ^ power :=
  rfl

theorem add_faithful {first second : UnpackedFloat} (left : Canonical first)
    (right : Canonical second) :
    Canonical (add Format.binary64 first second) ∧
      Faithful (value first + value second) (value (add Format.binary64 first second)) := by
  cases first with
  | infinity | notANumber => exact left.elim
  | zero sign =>
    rw [value_zero, zero_add]
    cases second with
    | infinity | notANumber => exact right.elim
    | zero other => cases sign <;> cases other <;> exact ⟨trivial, .refl 0⟩
    | finite => exact ⟨right, .refl _⟩
  | finite sign significand power positive =>
    cases second with
    | infinity | notANumber => exact right.elim
    | zero other =>
      rw [value_zero, add_zero]
      exact ⟨left, .refl _⟩
    | finite other more height another =>
      have rounded := normalize_faithful
        (sign.apply (decreaseExponent significand power (min power height)).1 +
          other.apply (decreaseExponent more height (min power height)).1)
        (min power height) .positive
      push_cast at rounded
      rw [add_mul, decreaseExponent_value sign (min_le_left _ _),
        decreaseExponent_value other (min_le_right _ _)] at rounded
      exact rounded

theorem sub_eq_add_opposite {first second : UnpackedFloat} (left : Canonical first)
    (right : Canonical second) :
    sub Format.binary64 first second = add Format.binary64 first second.neg := by
  cases first with
  | infinity | notANumber => exact left.elim
  | zero =>
    cases second with
    | infinity | notANumber => exact right.elim
    | zero | finite => rfl
  | finite =>
    cases second with
    | infinity | notANumber => exact right.elim
    | zero => rfl
    | finite other =>
      show normalize Format.binary64 (_ - _) _ _ =
        normalize Format.binary64 (_ + (-other).apply _) _ _
      rw [sign_neg_apply, ← sub_eq_add_neg]

theorem sub_faithful {first second : UnpackedFloat} (left : Canonical first)
    (right : Canonical second) :
    Canonical (sub Format.binary64 first second) ∧
      Faithful (value first - value second) (value (sub Format.binary64 first second)) := by
  rw [sub_eq_add_opposite left right, sub_eq_add_neg, ← value_neg]
  exact add_faithful left right.neg

theorem sign_mul (sign other : Sign) :
    (((sign * other).apply 1 : Int) : Rat) = (sign.apply 1 : Int) * (other.apply 1 : Int) := by
  have same : (sign * other).apply 1 = sign.apply 1 * other.apply 1 := by
    cases sign <;> cases other <;> rfl
  exact_mod_cast same

theorem mul_faithful {first second : UnpackedFloat} (left : Canonical first)
    (right : Canonical second) :
    Canonical (mul Format.binary64 first second) ∧
      Faithful (value first * value second) (value (mul Format.binary64 first second)) := by
  cases first with
  | infinity | notANumber => exact left.elim
  | zero sign =>
    rw [value_zero, zero_mul]
    cases second with
    | infinity | notANumber => exact right.elim
    | zero | finite => exact ⟨trivial, .refl 0⟩
  | finite sign significand power positive =>
    cases second with
    | infinity | notANumber => exact right.elim
    | zero other =>
      rw [value_zero, mul_zero]
      exact ⟨trivial, .refl 0⟩
    | finite other more height another =>
      obtain ⟨-, -, full⟩ := left
      obtain ⟨-, -, whole⟩ := right
      have nonzero : significand * more ≠ 0 := (Nat.mul_pos positive another).ne'
      -- One significand that leaves no bit unused is enough for the product.
      have bits (many : 2 ^ 52 ≤ significand ∨ 2 ^ 52 ≤ more) :
          52 ≤ (significand * more).log2 := by
        refine (Nat.le_log2 nonzero).mpr ?_
        rcases many with many | many
        · exact many.trans (Nat.le_mul_of_pos_right _ another)
        · exact many.trans (Nat.le_mul_of_pos_left _ positive)
      have low : power + height ≤
          max ((significand * more).log2 + (power + height) - 52) (-1074) := by
        rcases full with full | rfl
        · have := bits (.inl full)
          omega
        · rcases whole with whole | rfl
          · have := bits (.inr whole)
            omega
          · omega
      have rounded := roundWithAccuracy_faithful (sign * other) low
        (tells_ofMantissaAndAccuracy_exact _)
      have same : value (.finite sign significand power positive) *
          value (.finite other more height another) =
            ((sign * other).apply 1 : Int) *
              ((significand * more : Nat) * 2 ^ (power + height)) := by
        rw [value_finite, value_finite, sign_apply_cast, sign_apply_cast other, sign_mul,
          zpow_add₀ two_ne_zero]
        push_cast
        ring
      rw [same]
      exact rounded

theorem sign_div (sign other : Sign) :
    (((sign / other).apply 1 : Int) : Rat) = (sign.apply 1 : Int) / (other.apply 1 : Int) := by
  have same : sign / other = sign * other := by cases sign <;> cases other <;> rfl
  rw [same, sign_mul]
  cases sign <;> cases other <;> norm_num [Sign.apply]

/-- A remainder tells whether anything is left of a quotient. -/
theorem tells_quotient {dividend divisor : Nat} (positive : 0 < divisor) :
    Tells (.ofMantissaAndAccuracy (dividend / divisor)
      (accuracyOfFraction (dividend % divisor) divisor)) (dividend / divisor : Rat) := by
  have divides : (0 : Rat) < divisor := by exact_mod_cast positive
  have parts :
      (dividend : Rat) = (dividend / divisor : Nat) * divisor + (dividend % divisor : Nat) := by
    exact_mod_cast (Nat.div_add_mod' dividend divisor).symm
  have under : ((dividend % divisor : Nat) : Rat) < divisor := by
    exact_mod_cast Nat.mod_lt _ positive
  generalize dividend / divisor = quotient at parts
  generalize dividend % divisor = rest at parts under
  rw [parts, add_div, mul_div_cancel_right₀ _ divides.ne']
  have part : (rest : Rat) / divisor < 1 := (div_lt_one divides).mpr under
  unfold accuracyOfFraction
  split
  · next none =>
    rw [none, Nat.cast_zero, zero_div, add_zero]
    exact tells_ofMantissaAndAccuracy_exact _
  · next some =>
    have more : (0 : Rat) < rest / divisor :=
      div_pos (by exact_mod_cast Nat.pos_of_ne_zero some) divides
    constructor
    all_goals
      cases compare (2 * rest) divisor <;>
        simp [ExtendedMantissa.ofMantissaAndAccuracy] <;> linarith

/-- A quotient is taken in units so small that it leaves no bit of a significand unused. -/
theorem divCore_eq {more : Nat} (power height : Int) (positive : 0 < significand)
    (another : 0 < more) :
    ∃ count : Nat,
      power - height - count ≤
          max ((significand <<< count / more).log2 + (power - height - count) - 52) (-1074) ∧
        divCore Format.binary64 significand power more height =
          (significand <<< count / more, power - height - count,
            accuracyOfFraction (significand <<< count % more) more) := by
  have target : Format.binary64.targetExponent
      (totalExponent significand power - totalExponent more height) =
        max (significand.log2 + power - (more.log2 + height) - 53) (-1074) := by
    rw [targetExponent_binary64, totalExponent, totalExponent]
    omega
  obtain ⟨count, counted⟩ : ∃ count : Nat, (power - height - min (power - height)
      (max (significand.log2 + power - (more.log2 + height) - 53) (-1074))).toNat = count :=
    ⟨_, rfl⟩
  have units : min (power - height)
      (max (significand.log2 + power - (more.log2 + height) - 53) (-1074)) =
        power - height - count := by omega
  refine ⟨count, ?_, ?_⟩
  · by_cases lowest : power - height - count ≤ -1074
    · exact lowest.trans (le_max_right _ _)
    · have shifted : more.log2 + 53 ≤ significand.log2 + count := by omega
      have dividend : 2 ^ (more.log2 + 53) ≤ significand <<< count := by
        rw [← log2_shiftLeft positive] at shifted
        exact (Nat.pow_le_pow_right two_pos shifted).trans
          (Nat.log2_self_le (by rw [Nat.shiftLeft_eq]; positivity))
      have quotient : 2 ^ 52 ≤ significand <<< count / more := by
        rw [Nat.le_div_iff_mul_le another]
        refine le_trans ?_ dividend
        rw [show more.log2 + 53 = 52 + (more.log2 + 1) by omega, Nat.pow_add]
        exact Nat.mul_le_mul_left _ Nat.lt_log2_self.le
      have bits := (Nat.le_log2 (by positivity)).mpr quotient
      omega
  · unfold divCore
    rw [target, units]
    have same : (power - height - (power - height - (count : Int))).toNat = count := by omega
    dsimp only
    rw [same]

theorem div_faithful {first second : UnpackedFloat} (left : Canonical first)
    (right : Canonical second) (nonzero : value second ≠ 0) :
    Canonical (div Format.binary64 first second) ∧
      Faithful (value first / value second) (value (div Format.binary64 first second)) := by
  cases second with
  | infinity | notANumber => exact right.elim
  | zero other => exact absurd rfl nonzero
  | finite other more height another =>
    cases first with
    | infinity | notANumber => exact left.elim
    | zero sign =>
      rw [value_zero, zero_div]
      exact ⟨trivial, .refl 0⟩
    | finite sign significand power positive =>
      obtain ⟨count, low, same⟩ := divCore_eq power height positive another
      have rounded := roundWithAccuracy_faithful (sign / other) low (tells_quotient another)
      have exact : value (.finite sign significand power positive) /
          value (.finite other more height another) = ((sign / other).apply 1 : Int) *
            ((significand <<< count : Nat) / more * 2 ^ (power - height - count)) := by
        have divisor : (more : Rat) ≠ 0 := by exact_mod_cast another.ne'
        have sign_ne : ((other.apply 1 : Int) : Rat) ≠ 0 := by cases other <;> norm_num [Sign.apply]
        rw [value_finite, value_finite, sign_apply_cast, sign_apply_cast other, sign_div,
          Nat.shiftLeft_eq, zpow_sub₀ two_ne_zero, zpow_sub₀ two_ne_zero, zpow_natCast]
        push_cast
        field_simp
      have divided : div Format.binary64 (.finite sign significand power positive)
          (.finite other more height another) = roundWithAccuracy Format.binary64 (sign / other)
            (divCore Format.binary64 significand power more height).1
            (divCore Format.binary64 significand power more height).2.1
            (divCore Format.binary64 significand power more height).2.2 := rfl
      rw [exact, divided, same]
      exact rounded

end Chip8.Double
