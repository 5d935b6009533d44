/-
This file says which number a double holds, and what becomes of it.

The bits of a double are three fields, and the fields are the number taken
apart. Putting together what a rounding leaves and taking it apart again changes
nothing, as long as the number stays within the doubles. So the four operations
can be spoken of in numbers alone: each gives a double that holds what comes of
rounding the exact result. The double nearest to an integer is the integer
rounded, and the whole part of a double is the whole part of its number, at every
magnitude.
-/

import Chip8.Proofs.Rounding

namespace Chip8.Double

open Float.Model (Format UnpackedFloat)
open Float.Model.UnpackedFloat

/-! ### Bits -/

/-- How a double is taken apart, by its three fields. -/
inductive Unpacks (sign : Sign) (exponent fraction : Nat) : UnpackedFloat → Prop
  | infinite (all : exponent = 2047) (none : fraction = 0) :
      Unpacks sign exponent fraction (.infinity sign)
  | notANumber (all : exponent = 2047) (some : fraction ≠ 0) :
      Unpacks sign exponent fraction .notANumber
  | zero (least : exponent = 0) (none : fraction = 0) : Unpacks sign exponent fraction (.zero sign)
  | subnormal (least : exponent = 0) (some : 0 < fraction) :
      Unpacks sign exponent fraction (.finite sign fraction (-1074) some)
  | normal (some : exponent ≠ 0) (less : exponent ≠ 2047) {significand : Nat}
      (positive : 0 < significand) (full : significand = 2 ^ 52 + fraction) :
      Unpacks sign exponent fraction (.finite sign significand (exponent - 1075) positive)

theorem toNat_implicit (fraction : BitVec 52) :
    (1#1 ++ fraction).toNat = 2 ^ 52 + fraction.toNat := by
  rw [BitVec.toNat_append, ← Nat.shiftLeft_add_eq_or_of_lt fraction.isLt]
  rfl

theorem unpacks (bits : BitVec 64) :
    Unpacks (.ofBitVec (@unpackSign Format.binary64 bits))
      (@unpackExponent Format.binary64 bits).toNat (@unpackMantissa Format.binary64 bits).toNat
      (UnpackedFloat.unpack Format.binary64 bits) := by
  unfold UnpackedFloat.unpack
  dsimp only
  by_cases all : @unpackExponent Format.binary64 bits = -1#11
  · have full := congrArg BitVec.toNat all
    by_cases none : @unpackMantissa Format.binary64 bits = 0#52
    · rw [if_pos all, if_pos none]
      exact .infinite full (congrArg BitVec.toNat none)
    · rw [if_pos all, if_neg none]
      exact .notANumber full fun zero => none (BitVec.eq_of_toNat_eq zero)
  · rw [if_neg all]
    by_cases least : @unpackExponent Format.binary64 bits = 0#11
    · have lowest := congrArg BitVec.toNat least
      by_cases none : @unpackMantissa Format.binary64 bits = 0#52
      · rw [if_pos least, dif_pos none]
        exact .zero lowest (congrArg BitVec.toNat none)
      · rw [if_pos least, dif_neg none, lowest]
        exact .subnormal rfl (Nat.pos_of_ne_zero fun zero => none (BitVec.eq_of_toNat_eq zero))
    · rw [if_neg least]
      exact .normal (fun zero => least (BitVec.eq_of_toNat_eq zero))
        (fun full => all (BitVec.eq_of_toNat_eq full)) _ (toNat_implicit _)

/-- The sign lies above the two other fields. -/
theorem ofBitVec_unpackSign_packComponents (sign : Sign) (exponent : BitVec 11)
    (fraction : BitVec 52) :
    Sign.ofBitVec (unpackSign (packComponents Format.binary64 sign exponent fraction)) = sign := by
  unfold unpackSign packComponents BitVec.extractLsb
  rw [BitVec.extractLsb'_append_eq_of_le (by decide),
    BitVec.extractLsb'_append_eq_of_le (by decide)]
  cases sign <;> rfl

theorem unpacks_packComponents (sign : Sign) (exponent : BitVec 11) (fraction : BitVec 52) :
    Unpacks sign exponent.toNat fraction.toNat (UnpackedFloat.unpack Format.binary64
      (packComponents Format.binary64 sign exponent fraction)) := by
  have apart := unpacks (packComponents Format.binary64 sign exponent fraction)
  rw [ofBitVec_unpackSign_packComponents, unpackExponent_packComponents,
    unpackMantissa_packComponents] at apart
  exact apart

theorem Unpacks.eq_normal {sign : Sign} {exponent fraction : Nat} {number : UnpackedFloat}
    (apart : Unpacks sign exponent fraction number) (some : exponent ≠ 0)
    (less : exponent ≠ 2047) {significand : Nat} (positive : 0 < significand)
    (full : significand = 2 ^ 52 + fraction) :
    number = .finite sign significand (exponent - 1075) positive := by
  subst full
  cases apart with
  | normal _ _ _ same =>
    subst same
    rfl
  | infinite all | notANumber all => exact absurd all less
  | zero least | subnormal least => exact absurd least some

theorem Unpacks.eq_subnormal {sign : Sign} {fraction : Nat} {number : UnpackedFloat}
    (apart : Unpacks sign 0 fraction number) (some : 0 < fraction) :
    number = .finite sign fraction (-1074) some := by
  cases apart with
  | subnormal => rfl
  | infinite all | notANumber all => cases all
  | zero _ none => exact absurd none some.ne'
  | normal least => exact absurd rfl least

theorem unpack_pack_finite {sign : Sign} {significand : Nat} {power : Int}
    {positive : 0 < significand} (canonical : Canonical (.finite sign significand power positive))
    (high : power ≤ 971) :
    (Float.Model.pack (.finite sign significand power positive)).unpack =
      .finite sign significand power positive := by
  obtain ⟨small, low, full⟩ := canonical
  obtain ⟨biased, fits⟩ : ∃ biased : Nat, power + 1075 = biased :=
    ⟨(power + 1075).toNat, by omega⟩
  have bias : (power + Format.binary64.exponentBias +
      Format.binary64.mantissaBitsWithoutImplicit).toNat = biased := by
    show (power + 1023 + 52).toNat = biased
    omega
  have within : ¬ 2 ^ Format.binary64.exponentBits ≤ biased + 1 := by
    show ¬ 2 ^ 11 ≤ biased + 1
    omega
  have bits : 2 ^ 52 ≤ significand ↔ significand.log2 + 1 = Format.binary64.mantissaBits := by
    have upper := (Nat.log2_lt positive.ne').mpr small
    have lower := Nat.le_log2 positive.ne' (k := 52)
    show _ ↔ _ = 53
    omega
  have fraction : (BitVec.ofNat 52 significand).toNat = significand % 2 ^ 52 :=
    BitVec.toNat_ofNat _ _
  delta Float.Model.pack Float.Model.unpack UnpackedFloat.pack
  dsimp only
  rw [bias, if_neg within]
  by_cases least : 2 ^ 52 ≤ significand
  · rw [if_pos (bits.mp least)]
    have exponent : (BitVec.ofNat 11 biased).toNat = biased := by
      rw [BitVec.toNat_ofNat]
      omega
    have apart := unpacks_packComponents sign (.ofNat 11 biased) (.ofNat 52 significand)
    rw [exponent, fraction] at apart
    refine (apart.eq_normal (by omega) (by omega) positive (by omega)).trans ?_
    exact congrArg (UnpackedFloat.finite sign significand · positive) (by omega)
  · rw [if_neg (mt bits.mpr least)]
    have apart := unpacks_packComponents sign 0#11 (.ofNat 52 significand)
    rw [fraction, Nat.mod_eq_of_lt (by omega)] at apart
    exact (apart.eq_subnormal positive).trans
      (congrArg (UnpackedFloat.finite sign significand · positive)
        (full.resolve_left least).symm)

theorem value_negative {significand : Nat} {power : Int} (positive : 0 < significand) :
    value (.finite .negative significand power positive) = -((significand : Rat) * 2 ^ power) := by
  rw [value_finite]
  simp [Sign.apply]

theorem abs_value_finite (sign : Sign) {significand : Nat} {power : Int}
    (positive : 0 < significand) :
    |value (.finite sign significand power positive)| = significand * 2 ^ power := by
  have nonneg : (0 : Rat) ≤ significand * 2 ^ power :=
    mul_nonneg (Nat.cast_nonneg _) (two_zpow_pos power).le
  cases sign with
  | positive => exact abs_of_nonneg nonneg
  | negative => rw [value_negative, abs_neg, abs_of_nonneg nonneg]

/-- Numbers up to here are within the doubles. Irreducible, as nothing comes of writing it out. -/
@[irreducible] def limit : Rat :=
  2 ^ (1023 : Int)

theorem zpow_le_limit {power : Int} (low : power ≤ 1023) : (2 : Rat) ^ power ≤ limit := by
  rw [limit]
  exact zpow_le_zpow_right₀ one_le_two low

theorem pow_le_limit {power : Nat} (low : power ≤ 1023) : (2 : Rat) ^ power ≤ limit := by
  rw [← zpow_natCast]
  exact zpow_le_limit (by omega)

theorem representable_limit : Representable limit := by
  rw [limit]
  exact representable_pow (by decide)

/-- Taking apart what was put together gives back any number within the doubles. -/
theorem unpack_pack {number : UnpackedFloat} (canonical : Canonical number)
    (bounded : |value number| ≤ limit) : (Float.Model.pack number).unpack = number := by
  cases number with
  | infinity | notANumber => exact canonical.elim
  | zero sign => cases sign <;> rfl
  | finite sign significand power positive =>
    refine unpack_pack_finite canonical ?_
    obtain ⟨small, low, full | rfl⟩ := canonical
    · rw [abs_value_finite, limit] at bounded
      have least : (2 : Rat) ^ 52 ≤ significand := by exact_mod_cast full
      have bound : (2 : Rat) ^ (52 + power) ≤ 2 ^ (1023 : Int) := by
        calc (2 : Rat) ^ (52 + power) = 2 ^ 52 * 2 ^ power := by
              rw [zpow_add₀ two_ne_zero, zpow_ofNat]
          _ ≤ significand * 2 ^ power := mul_le_mul_of_nonneg_right least (two_zpow_pos power).le
          _ ≤ 2 ^ (1023 : Int) := bounded
      have := (zpow_le_zpow_iff_right₀ one_lt_two).mp bound
      omega
    · decide

/-- A number beyond the doubles is put together as infinite. -/
theorem unpack_pack_large {sign : Sign} {significand : Nat} {power : Int}
    {positive : 0 < significand} (high : 971 < power) :
    (Float.Model.pack (.finite sign significand power positive)).unpack = .infinity sign := by
  have beyond : 2 ^ Format.binary64.exponentBits ≤ (power + Format.binary64.exponentBias +
      Format.binary64.mantissaBitsWithoutImplicit).toNat + 1 := by
    show 2 ^ 11 ≤ (power + 1023 + 52).toNat + 1
    omega
  unfold Float.Model.pack Float.Model.unpack UnpackedFloat.pack
  dsimp only
  rw [if_pos beyond]
  cases sign <;> rfl

/-- So is any number that was put together to a finite one. -/
theorem unpack_pack_of_canonical {number : UnpackedFloat} (canonical : Canonical number)
    (finite : Canonical (Float.Model.pack number).unpack) :
    (Float.Model.pack number).unpack = number := by
  cases number with
  | infinity | notANumber => exact canonical.elim
  | zero sign => cases sign <;> rfl
  | finite sign significand power positive =>
    refine unpack_pack_finite canonical (not_lt.mp fun high => ?_)
    rw [unpack_pack_large high] at finite
    exact finite

/-! ### Doubles -/

/-- A double is finite, and this is the number it holds. -/
def Holds (double : Float) (number : Rat) : Prop :=
  Canonical double.toModel.unpack ∧ value double.toModel.unpack = number

/-- A double holds what comes of rounding a number. -/
def Rounds (double : Float) (exact : Rat) : Prop :=
  ∃ rounded, Holds double rounded ∧ Faithful exact rounded

variable {first second : Float} {left right exact number : Rat}

/-- Rounding does not go past a number that a double holds. -/
theorem Faithful.bounded {rounded bound : Rat} (faithful : Faithful exact rounded)
    (representable : Representable bound) (bounded : |exact| ≤ bound) : |rounded| ≤ bound := by
  obtain ⟨least, most⟩ := abs_le.mp bounded
  exact abs_le.mpr ⟨faithful.ge_of_ge _ representable.neg least,
    faithful.le_of_le _ representable most⟩

theorem rounds_pack {number : UnpackedFloat}
    (rounded : Canonical number ∧ Faithful exact (value number))
    (bounded : |exact| ≤ limit) : Rounds ⟨Float.Model.pack number⟩ exact := by
  have same := unpack_pack rounded.1 (rounded.2.bounded representable_limit bounded)
  refine ⟨value number, ?_, rounded.2⟩
  show Canonical (Float.Model.pack number).unpack ∧ value (Float.Model.pack number).unpack = _
  rw [same]
  exact ⟨rounded.1, rfl⟩

theorem Holds.add (one : Holds first left) (other : Holds second right)
    (bounded : |left + right| ≤ limit) : Rounds (first + second) (left + right) := by
  have rounded := add_faithful one.1 other.1
  rw [one.2, other.2] at rounded
  exact rounds_pack rounded bounded

theorem Holds.sub (one : Holds first left) (other : Holds second right)
    (bounded : |left - right| ≤ limit) : Rounds (first - second) (left - right) := by
  have rounded := sub_faithful one.1 other.1
  rw [one.2, other.2] at rounded
  exact rounds_pack rounded bounded

theorem Holds.mul (one : Holds first left) (other : Holds second right)
    (bounded : |left * right| ≤ limit) : Rounds (first * second) (left * right) := by
  have rounded := mul_faithful one.1 other.1
  rw [one.2, other.2] at rounded
  exact rounds_pack rounded bounded

theorem Holds.div (one : Holds first left) (other : Holds second right) (nonzero : right ≠ 0)
    (bounded : |left / right| ≤ limit) : Rounds (first / second) (left / right) := by
  have rounded := div_faithful one.1 other.1 (other.2 ▸ nonzero)
  rw [one.2, other.2] at rounded
  exact rounds_pack rounded bounded

theorem Rounds.holds (rounds : Rounds first exact) (representable : Representable exact) :
    Holds first exact := by
  obtain ⟨rounded, holds, faithful⟩ := rounds
  rwa [faithful.eq representable] at holds

/-! ### Integers -/

theorem holds_zero : Holds 0 0 :=
  ⟨trivial, rfl⟩

theorem holds_one : Holds 1 1 := by
  have apart : (1 : Float).toModel.unpack = .finite .positive (2 ^ 52) (-52) (by decide) := rfl
  rw [Holds, apart, value_finite]
  exact ⟨⟨by decide, by decide, .inl le_rfl⟩, by norm_num [Sign.apply]⟩

theorem holds_half : Holds 0.5 (1 / 2) := by
  have apart : (0.5 : Float).toModel.unpack = .finite .positive (2 ^ 52) (-53) (by decide) := rfl
  rw [Holds, apart, value_finite]
  exact ⟨⟨by decide, by decide, .inl le_rfl⟩, by norm_num [Sign.apply]⟩

/-- The double of a machine word is the word rounded. -/
theorem rounds_toFloat (word : UInt64) : Rounds word.toFloat word.toNat := by
  have rounded := normalize_faithful (word.toNat : Int) 0 .positive
  rw [zpow_zero, mul_one, Int.cast_natCast] at rounded
  refine rounds_pack rounded (le_trans ?_ (pow_le_limit (show 64 ≤ 1023 by decide)))
  rw [Nat.abs_cast]
  exact_mod_cast word.toNat_lt.le

/-- A natural number read off its digits is shifted so far that it leaves no bit unused, and then
rounded. -/
theorem ofScientific_eq {count : Nat} (positive : 0 < count) :
    UnpackedFloat.ofScientific Format.binary64 count (Int.ofNat 0) =
      roundWithAccuracy Format.binary64 .positive (count <<< 53 * 10 ^ 0) (-53 + 0) .exact := by
  have reaches : ¬ Int.ofNat 0 < -(2 ^ Format.binary64.exponentBits + (count.log2 : Int)) := by
    show ¬ (0 : Int) < -(2 ^ 11 + (count.log2 : Int))
    omega
  rw [UnpackedFloat.ofScientific, dif_neg positive.ne', if_neg (by decide), if_neg reaches,
    if_pos (by decide)]
  rfl

/-- A double that was put together from what rounding leaves of a number, which may be too large for
it. -/
def Packed (double : Float) (exact : Rat) : Prop :=
  ∃ number, (Canonical number ∧ Faithful exact (value number)) ∧
    double = ⟨Float.Model.pack number⟩

theorem Packed.rounds (packed : Packed first exact) (bounded : |exact| ≤ limit) :
    Rounds first exact := by
  obtain ⟨number, rounded, rfl⟩ := packed
  exact rounds_pack rounded bounded

/-- If it holds a number at all, that is the number rounded. -/
theorem Packed.faithful (packed : Packed first exact) (holds : Holds first number) :
    Faithful exact number := by
  obtain ⟨number, ⟨canonical, faithful⟩, rfl⟩ := packed
  obtain ⟨finite, rfl⟩ := holds
  have same : (Float.Model.pack number).unpack = number :=
    unpack_pack_of_canonical canonical finite
  show Faithful exact (value (Float.Model.pack number).unpack)
  rwa [same]

/-- The double nearest to a natural number is the number rounded. -/
theorem packed_ofNat (count : Nat) : Packed (ofNat count) count := by
  unfold ofNat Float.ofScientific
  -- Up to fifty-three bits a number is converted from a machine word, beyond them from its digits.
  split
  · next few =>
    have word : count.toUInt64.toNat = count := by
      rw [Nat.toUInt64, UInt64.toNat_ofNat']
      omega
    have converted := rounds_toFloat count.toUInt64
    rw [word] at converted
    have least : |(count : Int)| ≤ 2 ^ 53 := by
      rw [Nat.abs_cast]
      omega
    have held : Holds count.toUInt64.toFloat count := converted.holds (representable_int least)
    have product := mul_faithful held.1 holds_one.1
    rw [held.2, holds_one.2, mul_one] at product
    exact ⟨_, product, rfl⟩
  · next many =>
    have positive : 0 < count := by omega
    have bits : 53 ≤ count.log2 := (Nat.le_log2 positive.ne').mpr (by omega)
    have shifted := log2_shiftLeft positive 53
    have low : (-53 + 0 : Int) ≤
        max (((count <<< 53 * 10 ^ 0).log2 : Int) + (-53 + 0) - 52) (-1074) := by
      rw [pow_zero, mul_one, shifted]
      push_cast
      omega
    have rounded := roundWithAccuracy_faithful .positive low (tells_ofMantissaAndAccuracy_exact _)
    have exact : ((Sign.positive.apply 1 : Int) : Rat) *
        ((count <<< 53 * 10 ^ 0 : Nat) * 2 ^ (-53 + 0 : Int)) = count := by
      have unit : (2 : Rat) ^ 53 * 2 ^ (-53 + 0 : Int) = 1 := by norm_num
      rw [Nat.shiftLeft_eq, pow_zero, mul_one, Nat.cast_mul, Nat.cast_pow, Nat.cast_two, mul_assoc,
        unit, mul_one]
      exact one_mul _
    rw [exact, ← ofScientific_eq positive] at rounded
    exact ⟨_, rounded, rfl⟩

theorem rounds_ofNat {count : Nat} (small : (count : Rat) ≤ limit) : Rounds (ofNat count) count :=
  (packed_ofNat count).rounds (by rwa [Nat.abs_cast])

theorem holds_ofNat (count : Nat) (small : count ≤ 2 ^ 53) : Holds (ofNat count) count := by
  have least : |(count : Int)| ≤ 2 ^ 53 := by
    rw [Nat.abs_cast]
    exact_mod_cast small
  have within : (count : Rat) ≤ 2 ^ 53 := by exact_mod_cast small
  exact (rounds_ofNat (within.trans (pow_le_limit (by decide)))).holds (representable_int least)

theorem holds_two : Holds 2 2 :=
  holds_ofNat 2 (by decide)

theorem Rounds.neg (rounds : Rounds first exact) (bounded : |exact| ≤ limit) :
    Rounds (-first) (-exact) := by
  obtain ⟨rounded, ⟨canonical, same⟩, faithful⟩ := rounds
  have negated : Faithful (-exact) (value first.toModel.unpack.neg) := by
    rw [value_neg, same]
    exact faithful.neg
  exact rounds_pack ⟨canonical.neg, negated⟩ (by rwa [abs_neg])

/-- The double nearest to an integer is the integer rounded. -/
theorem rounds_ofInt {count : Int} (small : |(count : Rat)| ≤ limit) :
    Rounds (ofInt count) count := by
  have magnitude : ((count.natAbs : Nat) : Rat) = |(count : Rat)| := by
    rw [Nat.cast_natAbs, Int.cast_abs]
  have rounds : Rounds (ofNat count.natAbs) (count.natAbs : Nat) :=
    rounds_ofNat (by rwa [magnitude])
  rw [magnitude] at rounds
  unfold ofInt
  split
  · next negative =>
    have same : (count : Rat) = -|(count : Rat)| := by
      rw [abs_of_neg (by exact_mod_cast negative), neg_neg]
    rw [same]
    exact rounds.neg (by rwa [abs_abs])
  · next nonneg =>
    have whole : count.toNat = count.natAbs := by omega
    rw [abs_of_nonneg (by exact_mod_cast not_lt.mp nonneg)] at rounds
    rw [whole]
    exact rounds

theorem holds_ofInt {count : Int} (small : |count| ≤ 2 ^ 53) : Holds (ofInt count) count := by
  have within : |(count : Rat)| ≤ 2 ^ 53 := by exact_mod_cast small
  exact (rounds_ofInt (within.trans (pow_le_limit (by decide)))).holds (representable_int small)

/-! ### Whole parts -/

/-- A number without its fraction. -/
def towardZero (number : Rat) : Int :=
  if 0 ≤ number then ⌊number⌋ else ⌈number⌉

theorem towardZero_neg (number : Rat) : towardZero (-number) = -towardZero number := by
  unfold towardZero
  rcases lt_trichotomy number 0 with negative | rfl | positive
  · rw [if_pos (by linarith), if_neg (by linarith), Int.floor_neg]
  · decide
  · rw [if_neg (by linarith), if_pos positive.le, Int.ceil_neg]

theorem towardZero_le {number : Rat} {bound : Int} (le : number ≤ bound) :
    towardZero number ≤ bound := by
  unfold towardZero
  split
  · exact Int.floor_le_iff.mpr (by linarith)
  · exact Int.ceil_le.mpr le

theorem toNat_unpackExponent (bits : BitVec 64) :
    (@unpackExponent Format.binary64 bits).toNat = (bits.toNat >>> 52) % 0x800 :=
  rfl

theorem toNat_unpackMantissa (bits : BitVec 64) :
    (@unpackMantissa Format.binary64 bits).toNat = bits.toNat % 0x10000000000000 :=
  rfl

theorem ofBitVec_unpackSign (bits : BitVec 64) :
    Sign.ofBitVec (@unpackSign Format.binary64 bits) =
      if bits.toNat >>> 63 = 1 then .negative else .positive := by
  have word : (@unpackSign Format.binary64 bits).toNat = (bits.toNat >>> 63) % 2 := rfl
  have inside := bits.isLt
  rw [Nat.shiftRight_eq_div_pow] at word ⊢
  unfold Sign.ofBitVec
  split
  · next none =>
    rw [none] at word
    rw [if_neg]
    intro one
    rw [one] at word
    cases word
  · next some =>
    rw [if_pos]
    by_contra other
    refine some (BitVec.eq_of_toNat_eq (word.trans ?_))
    rw [BitVec.toNat_ofNat]
    omega

/-- A significand shifted by an exponent, as doubles count them: cut off below the point. -/
def shifted (significand exponent : Nat) : Nat :=
  if 1075 ≤ exponent then significand <<< (exponent - 1075) else significand >>> (1075 - exponent)

theorem floor_mul_zpow (significand exponent : Nat) :
    ⌊(significand : Rat) * 2 ^ ((exponent : Int) - 1075)⌋ = shifted significand exponent := by
  unfold shifted
  split
  · next above =>
    obtain ⟨count, rfl⟩ := Nat.exists_eq_add_of_le above
    have power : ((1075 + count : Nat) : Int) - 1075 = count := by omega
    rw [power, Nat.add_sub_cancel_left, Nat.shiftLeft_eq, zpow_natCast]
    exact_mod_cast Int.floor_natCast (significand * 2 ^ count)
  · next below =>
    obtain ⟨count, under⟩ := Nat.exists_eq_add_of_le (not_le.mp below).le
    have power : (exponent : Int) - 1075 = -count := by omega
    have cut := Rat.floor_intCast_div_natCast significand (2 ^ count)
    rw [power, under, Nat.add_sub_cancel_left, Nat.shiftRight_eq_div_pow, zpow_neg, zpow_natCast,
      ← div_eq_mul_inv]
    push_cast at cut ⊢
    exact cut

/-- Below the least exponents nothing of a fraction is left. -/
theorem shifted_fraction {fraction exponent : Nat} (small : fraction < 2 ^ 52)
    (low : exponent ≤ 1) : shifted fraction exponent = 0 := by
  rw [shifted, if_neg (by omega)]
  exact Nat.shiftRight_eq_zero _ _ (small.trans_le (Nat.pow_le_pow_right two_pos (by omega)))

theorem towardZero_finite (sign : Sign) {significand : Nat} (exponent : Nat)
    (positive : 0 < significand) :
    towardZero (value (.finite sign significand (exponent - 1075) positive)) =
      sign.apply (shifted significand exponent) := by
  have nonneg : (0 : Rat) ≤ significand * 2 ^ ((exponent : Int) - 1075) :=
    mul_nonneg (Nat.cast_nonneg _) (two_zpow_pos _).le
  have magnitude : towardZero (significand * 2 ^ ((exponent : Int) - 1075)) = _ :=
    (if_pos nonneg).trans (floor_mul_zpow significand exponent)
  cases sign with
  | positive => exact magnitude
  | negative =>
    rw [value_negative, towardZero_neg, magnitude]
    rfl

theorem towardZero_of_unpacks {sign : Sign} {exponent fraction : Nat} {number : UnpackedFloat}
    (apart : Unpacks sign exponent fraction number) (small : fraction < 2 ^ 52)
    (finite : exponent ≠ 2047) :
    towardZero (value number) = sign.apply
      (shifted (fraction + if exponent = 0 then 0 else 2 ^ 52) exponent) := by
  cases apart with
  | infinite all | notANumber all => exact absurd all finite
  | zero least none =>
    subst least none
    cases sign <;> rfl
  | subnormal least some =>
    subst least
    have cut := towardZero_finite sign 1 some
    rw [shifted_fraction small le_rfl] at cut
    rw [if_pos rfl, Nat.add_zero, shifted_fraction small (Nat.zero_le 1)]
    exact cut
  | normal some less positive full =>
    rw [if_neg some, Nat.add_comm fraction, ← full]
    exact towardZero_finite sign exponent positive

theorem Unpacks.exponent_ne {sign : Sign} {exponent fraction : Nat} {number : UnpackedFloat}
    (apart : Unpacks sign exponent fraction number) (canonical : Canonical number) :
    exponent ≠ 2047 := by
  cases apart with
  | infinite | notANumber => exact canonical.elim
  | zero least | subnormal least => omega
  | normal _ less => exact less

/-- A double taken apart by the fields of its word. -/
theorem unpacks_double (double : Float) :
    Unpacks (if double.toBits.toNat >>> 63 = 1 then .negative else .positive)
      ((double.toBits.toNat >>> 52) % 0x800) (double.toBits.toNat % 0x10000000000000)
      double.toModel.unpack := by
  have apart : Unpacks _ _ _ double.toModel.unpack := unpacks double.toModel.toBits.toBitVec
  rw [toNat_unpackExponent, toNat_unpackMantissa, ofBitVec_unpackSign] at apart
  exact apart

theorem Unpacks.canonical {sign : Sign} {exponent fraction : Nat} {number : UnpackedFloat}
    (apart : Unpacks sign exponent fraction number) (small : fraction < 2 ^ 52)
    (finite : exponent ≠ 2047) : Canonical number := by
  cases apart with
  | infinite all | notANumber all => exact absurd all finite
  | zero => trivial
  | subnormal => exact ⟨by omega, le_rfl, .inr rfl⟩
  | normal _ _ _ full => exact ⟨by omega, by omega, .inl (by omega)⟩

/-- A double that is finite holds a number. -/
theorem exists_holds_of_finite {double : Float} (finite : notFinite? double = none) :
    ∃ number, Holds double number := by
  have apart := unpacks_double double
  refine ⟨_, apart.canonical (Nat.mod_lt _ (by decide)) fun all => ?_, rfl⟩
  unfold notFinite? at finite
  dsimp only at finite
  rw [if_neg (not_not.mpr all)] at finite
  split at finite <;> cases finite

theorem abs_value_le {sign : Sign} {significand : Nat} {power : Int}
    {positive : 0 < significand} (canonical : Canonical (.finite sign significand power positive))
    (high : power ≤ 971) : |value (.finite sign significand power positive)| ≤ 2 * limit := by
  have small : (significand : Rat) ≤ 2 ^ (53 : Int) := by exact_mod_cast canonical.1.le
  have twice : 2 * limit = 2 ^ (53 : Int) * 2 ^ (971 : Int) := by
    rw [limit, ← zpow_one_add₀ two_ne_zero, ← zpow_add₀ two_ne_zero]
    rfl
  rw [abs_value_finite, twice]
  exact mul_le_mul small (zpow_le_zpow_right₀ one_le_two high) (two_zpow_pos power).le
    (two_zpow_pos 53).le

/-- Doubles go no further than twice the limit. -/
theorem Holds.abs_le {double : Float} (holds : Holds double number) : |number| ≤ 2 * limit := by
  obtain ⟨canonical, rfl⟩ := holds
  have few := Nat.mod_lt (double.toBits.toNat >>> 52) (show 0 < 0x800 by decide)
  have apart := unpacks_double double
  generalize double.toModel.unpack = number at canonical apart ⊢
  cases apart with
  | infinite | notANumber => exact canonical.elim
  | zero =>
    rw [value_zero, abs_zero]
    exact mul_nonneg zero_le_two (zero_le_two.trans (pow_le_limit (show 1 ≤ 1023 by decide)))
  | subnormal => exact abs_value_le canonical (by decide)
  | normal _ less => exact abs_value_le canonical (by omega)

theorem notFinite?_of_holds {double : Float} (holds : Holds double number) :
    notFinite? double = none :=
  if_pos ((unpacks_double double).exponent_ne holds.1)

/-- The whole part of a double is that of the number it holds. -/
theorem whole_of_holds {double : Float} (holds : Holds double number) :
    whole double = .ok (towardZero number) := by
  have present := notFinite?_of_holds holds
  obtain ⟨canonical, rfl⟩ := holds
  have apart := unpacks_double double
  have same := towardZero_of_unpacks apart (Nat.mod_lt _ (by decide)) (apart.exponent_ne canonical)
  rw [whole, present, same]
  refine congrArg Except.ok (?_ : truncate double = _)
  unfold truncate
  dsimp only
  -- The sign of the word decides on both sides.
  split <;> rfl

end Chip8.Double
