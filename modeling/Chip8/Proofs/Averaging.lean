/-
This file proves how near the frames of a machine keep to its clock speed.

A frame is accounted in doubles: the quotient that it adds is rounded, and so is
every sum. What it carries over is exact. So what was run and what is carried
differ from the exact quotient, taken as often as there were frames, by as many
small errors. If there is no error, as for speeds whose quotient is a number of
quarters, the cycles that were run are the whole part of what the speed asks for.
Otherwise a sum that ought to be a whole number can fall just short of it, and
then the frame that should run the last cycle of it leaves it to the next: at
that moment the machine is one cycle behind.
-/

import Mathlib.Data.Int.Log
import Chip8.Proofs.Credit
import Chip8.Proofs.Landing
import Chip8.Proofs.Renewal

namespace Chip8

open Double

namespace Double

variable {exact rounded : Rat}

/-! ### How far rounding goes -/

/-- A number that is not too close to zero is counted in units that are small to it, and that leave
a bit for the next count. -/
theorem exists_unit (normal : 2 ^ (-1022 : Int) ≤ exact) :
    ∃ unit : Int, -1074 ≤ unit ∧ 2 ^ 52 * 2 ^ unit ≤ exact ∧ exact < 2 ^ 53 * 2 ^ unit := by
  have positive : 0 < exact := (two_zpow_pos _).trans_le normal
  have least : -1022 ≤ Int.log 2 exact := (Int.zpow_le_iff_le_log one_lt_two positive).mp (by
    exact_mod_cast normal)
  have low := Int.zpow_log_le_self one_lt_two positive
  have high := Int.lt_zpow_succ_log_self one_lt_two exact
  push_cast at low high
  refine ⟨Int.log 2 exact - 52, by omega, ?_, ?_⟩
  · calc (2 : Rat) ^ 52 * 2 ^ (Int.log 2 exact - 52) = 2 ^ Int.log 2 exact := by
          rw [← zpow_natCast, ← zpow_add₀ two_ne_zero]
          congr 1
          omega
      _ ≤ exact := low
  · calc exact < 2 ^ (Int.log 2 exact + 1) := high
      _ = 2 ^ 53 * 2 ^ (Int.log 2 exact - 52) := by
          rw [← zpow_natCast, ← zpow_add₀ two_ne_zero]
          congr 1
          omega

/-- Rounding moves a number that is not too close to zero by one part in `2 ^ 52` at most. -/
theorem Faithful.error (faithful : Faithful exact rounded) (normal : 2 ^ (-1022 : Int) ≤ exact) :
    |rounded - exact| ≤ exact / 2 ^ 52 := by
  obtain ⟨unit, fine, many, few⟩ := exists_unit normal
  have positive := two_zpow_pos unit
  have nonneg : 0 ≤ exact := (two_zpow_pos _).le.trans normal
  have least : 0 ≤ ⌊exact / 2 ^ unit⌋ := Int.floor_nonneg.mpr (by positivity)
  have most : ⌊exact / 2 ^ unit⌋ < 2 ^ 53 := by
    rw [Int.floor_lt, div_lt_iff₀ positive]
    exact_mod_cast few
  have low := (le_div_iff₀ positive).mp (Int.floor_le (exact / 2 ^ unit))
  have high := (div_lt_iff₀ positive).mp (Int.lt_floor_add_one (exact / 2 ^ unit))
  generalize ⌊exact / 2 ^ unit⌋ = count at least most low high
  -- Neither of the counts next to the number is passed over.
  have below : (count : Rat) * 2 ^ unit ≤ rounded :=
    faithful.ge_of_ge _ ⟨count, unit, by rw [abs_of_nonneg least]; omega, fine, rfl⟩ low
  have above : rounded ≤ (count + 1) * 2 ^ unit :=
    faithful.le_of_le _ ⟨count + 1, unit, by rw [abs_of_nonneg] <;> omega, fine, by push_cast; rfl⟩
      high.le
  have small : (2 : Rat) ^ unit ≤ exact / 2 ^ 52 := by
    rw [le_div_iff₀ (by positivity), mul_comm]
    exact many
  rw [abs_le]
  constructor <;> linarith

end Double

namespace Pace

variable {pace : Pace} {count : Int}

/-! ### Frames that are accounted -/

/-- With what may be carried into a frame, what it runs and carries on is as far as a slack at most
from what was carried and a rate, and may be carried again. -/
def Accounts (carries : Rat → Prop) (rate slack : Rat) (perFrame : Float) : Prop :=
  ∀ credit carried, Holds credit carried → carries carried →
    ∃ owed left rest, Pace.due ⟨perFrame, credit⟩ = (.ok owed, ⟨perFrame, left⟩) ∧
      Holds left rest ∧ carries rest ∧ |(owed + rest : Rat) - (carried + rate)| ≤ slack

/-- How far a frame of a whole number of operations can be off. -/
def drift (count : Int) : Rat :=
  (count + 15) / (15 * 2 ^ 52)

/-- No speed has a pace that owes something. -/
theorem restart_of_ofSpeed {speed : ClockSpeed} (paced : ofSpeed speed = .ok pace) :
    pace.restart = pace := by
  unfold ofSpeed at paced
  split at paced
  · split at paced
    · cases paced
      rfl
    · cases paced
  · cases paced

/-- What the pace of a whole number of operations holds: it was rounded, and its quotient was. -/
theorem perFrame_of_ofSpeed (paced : ofSpeed (.whole count) = .ok pace) :
    0 < count ∧ ∃ speed cycles, Faithful count speed ∧
      Faithful (speed / 60) cycles ∧ Holds pace.perFrame cycles ∧ |speed| ≤ 2 * limit := by
  obtain ⟨positive, ⟨speed, holds⟩, rfl⟩ := ofSpeed_whole_iff.mp paced
  have packed : Packed (ofInt count) count := by
    have same : ((count.toNat : Nat) : Rat) = count := by
      exact_mod_cast Int.toNat_of_nonneg positive.le
    have natural : ofInt count = ofNat count.toNat := if_neg positive.not_gt
    rw [natural, ← same]
    exact packed_ofNat count.toNat
  have bounded := holds.abs_le
  obtain ⟨cycles, divided, faithful⟩ := holds.div holds_framesPerSecond (by norm_num) (by
    rw [abs_div, abs_of_pos (by norm_num : (0 : Rat) < 60)]
    linarith [abs_nonneg speed])
  exact ⟨positive, speed, cycles, packed.faithful holds, faithful, divided, bounded⟩

theorem normal_of_le {exact : Rat} (least : 1 / 128 ≤ exact) : 2 ^ (-1022 : Int) ≤ exact := by
  have small : (2 : Rat) ^ (-1022 : Int) ≤ 2 ^ (-7 : Int) :=
    zpow_le_zpow_right₀ one_le_two (by decide)
  exact small.trans (le_trans (by norm_num) least)

theorem toNat_floor_add_fract {total : Rat} (nonneg : 0 ≤ total) :
    (⌊total⌋.toNat : Rat) + Int.fract total = total := by
  have whole : ((⌊total⌋.toNat : Nat) : Rat) = ⌊total⌋ := by
    exact_mod_cast Int.toNat_of_nonneg (Int.floor_nonneg.mpr nonneg)
  rw [whole, Int.floor_add_fract]

/-- At any whole speed a frame is off by little. -/
theorem accounts_near (paced : ofSpeed (.whole count) = .ok pace) :
    Accounts (fun carried => 0 ≤ carried ∧ carried < 1) (count / 60) (drift count)
      pace.perFrame := by
  rintro credit carried holds ⟨least, most⟩
  obtain ⟨positive, speed, cycles, first, second, held, bounded⟩ := perFrame_of_ofSpeed paced
  have one : (1 : Rat) ≤ count := by exact_mod_cast positive
  have speeds := abs_le.mp (first.error (normal_of_le (by linarith)))
  have quotient := abs_le.mp (second.error (normal_of_le (by linarith)))
  have within := (le_abs_self speed).trans bounded
  have room := pow_le_limit (show 1 ≤ 1023 by decide)
  obtain ⟨total, left, third, nonneg, owes, rest⟩ :=
    due_of_holds held holds (by linarith) (by linarith)
  have sum := abs_le.mp (third.error (normal_of_le (by linarith)))
  refine ⟨_, left, _, owes, rest, ⟨Int.fract_nonneg total, Int.fract_lt_one total⟩, ?_⟩
  rw [toNat_floor_add_fract nonneg, abs_le, drift]
  constructor <;> linarith

theorem representable_quarters {quarters : Int} (small : |quarters| ≤ 2 ^ 53) :
    Representable (quarters / 4) :=
  ⟨quarters, -2, small, by decide, by rw [div_eq_mul_inv]; norm_num⟩

/-- The quotient of some speeds is a number of quarters, and is not rounded. -/
theorem perFrame_of_dvd (paced : ofSpeed (.whole count) = .ok pace) (divides : 15 ∣ count)
    (moderate : count ≤ 2 ^ 53) :
    ∃ part : Int, 0 < part ∧ part ≤ 2 ^ 50 ∧ (count / 60 : Rat) = part / 4 ∧
      Holds pace.perFrame (part / 4) := by
  obtain ⟨positive, speed, cycles, first, second, held, -⟩ := perFrame_of_ofSpeed paced
  obtain ⟨part, rfl⟩ := divides
  obtain rfl := first.eq (representable_int (by rwa [abs_of_pos positive]))
  have quotient : ((15 * part : Int) : Rat) / 60 = part / 4 := by
    push_cast
    ring
  rw [quotient] at second
  obtain rfl := second.eq (representable_quarters (by rw [abs_of_pos] <;> omega))
  exact ⟨part, by omega, by omega, quotient, held⟩

/-- At these speeds a frame is not off at all. -/
theorem accounts_exact (paced : ofSpeed (.whole count) = .ok pace) (divides : 15 ∣ count)
    (moderate : count ≤ 2 ^ 53) :
    Accounts (fun carried => (0 ≤ carried ∧ carried < 1) ∧ ∃ quarters : Int, carried = quarters / 4)
      (count / 60) 0 pace.perFrame := by
  obtain ⟨part, positive, few, rate, held⟩ := perFrame_of_dvd paced divides moderate
  rintro credit carried holds ⟨⟨least, most⟩, quarters, rfl⟩
  have low : 0 ≤ quarters := by exact_mod_cast (le_div_iff₀ (by norm_num)).mp least
  have high : quarters < 4 := by exact_mod_cast (div_lt_iff₀ (by norm_num)).mp most
  have sum : (quarters / 4 : Rat) + part / 4 = ((quarters + part : Int) : Rat) / 4 := by
    push_cast
    ring
  have nonneg : (0 : Rat) ≤ quarters / 4 + part / 4 := by positivity
  have bounded : (quarters / 4 + part / 4 : Rat) ≤ 2 ^ 53 := by
    rw [sum, div_le_iff₀ (by norm_num)]
    exact_mod_cast (show quarters + part ≤ 2 ^ 53 * 4 by omega)
  obtain ⟨total, left, faithful, -, owes, rest⟩ :=
    due_of_holds held holds nonneg (bounded.trans (pow_le_limit (by decide)))
  rw [sum] at faithful
  -- So the sum is not rounded either, and what is left of it is a number of quarters.
  obtain rfl := faithful.eq (representable_quarters (by rw [abs_of_nonneg] <;> omega))
  refine ⟨_, left, _, owes, rest, ⟨⟨Int.fract_nonneg _, Int.fract_lt_one _⟩,
    quarters + part - 4 * ⌊((quarters + part : Int) : Rat) / 4⌋, ?_⟩, ?_⟩
  · rw [Int.fract]
    push_cast
    ring
  · rw [toNat_floor_add_fract (sum ▸ nonneg), rate, sum, sub_self, abs_zero]

end Pace

/-- The action runs no cycle and resets nothing. -/
def Action.Prepares : Action → Prop
  | .step _ | .execute _ _ | .executeWord _ _ | .runFrame _ | .reset _ => False
  | .tickTimers | .loadRom _ | .poke _ _ | .setKey _ _ | .releaseKeys | .collectPicture => True

namespace Machine

/-- A machine of a clock speed that was built or reset, and has run no cycle since. -/
inductive Fresh (speed : ClockSpeed) : Machine → Prop
  | built {rom : Option (List UInt8)} {dialect : Dialect} {bytes : Nat → UInt8} {new : Machine}
      (built : boot rom (some speed) dialect bytes = .ok new) : Fresh speed new
  | reset {rom : Option (List UInt8)} {dialect : Dialect} {bytes : Nat → UInt8} {new : Machine}
      (built : boot rom (some speed) dialect bytes = .ok new) (actions : List Action)
      (address : Int) : Fresh speed (new.actAll (actions ++ [.reset address]))
  | prepared {machine : Machine} (fresh : Fresh speed machine) {action : Action}
      (prepares : action.Prepares) : Fresh speed (machine.act action).2

variable {machine last : Machine} {speed : ClockSpeed} {count : Int} {listening : Bool}
  {owed : Nat} {frames : List Framed} {carries : Rat → Prop} {rate slack carried : Rat}

/-! ### Fresh machines -/

theorem onMemory_keeps (machine : Machine) (change : Memory → Except Trap Memory) :
    ((onMemory change).leaves machine).pace = machine.pace ∧
      ((onMemory change).leaves machine).cycles = machine.cycles := by
  unfold Routine.leaves onMemory
  simp only [Routine.bind_apply, Routine.get_apply, Routine.demand_apply]
  cases change machine.memory <;> exact ⟨rfl, rfl⟩

/-- What prepares a machine leaves its pace and the count of its cycles alone. -/
theorem act_of_prepares {action : Action} (prepares : action.Prepares) (machine : Machine) :
    (machine.act action).2.pace = machine.pace ∧
      (machine.act action).2.cycles = machine.cycles := by
  cases action with
  | step | execute | executeWord | runFrame | reset => exact prepares.elim
  | tickTimers | releaseKeys | collectPicture => exact ⟨rfl, rfl⟩
  | loadRom | poke =>
    rw [act, obeying, answering_snd]
    exact onMemory_keeps machine _
  | setKey key down =>
    rw [act, obeying, answering_snd, Routine.leaves, onKeypad]
    simp only [Routine.bind_apply, Routine.get_apply, Routine.demand_apply]
    cases machine.keypad.setKey key down <;> exact ⟨rfl, rfl⟩

/-- A fresh machine owes nothing, and has counted nothing. -/
theorem Fresh.unspent (fresh : Fresh speed machine) :
    Pace.ofSpeed speed = .ok machine.pace ∧ machine.cycles = 0 := by
  induction fresh with
  | built built =>
    obtain ⟨pace, paced, -, rfl⟩ := boot_eq_ok_iff.mp built
    rw [show (booted pace _ _ _).pace = pace.restart from rfl, Pace.restart_of_ofSpeed paced]
    exact ⟨paced, rfl⟩
  | @reset rom dialect bytes new built actions address =>
    have intact : new.Intact := intact_of_boot built []
    obtain ⟨pace, paced, -, rfl⟩ := boot_eq_ok_iff.mp built
    have akin := akin_actAll intact actions
    rw [actAll_reset intact]
    have renewed : ((actAll _ actions).restarted address).pace = pace.restart :=
      congrArg (Pace.mk · 0) akin.perFrame
    rw [renewed, Pace.restart_of_ofSpeed paced]
    exact ⟨paced, rfl⟩
  | prepared _ prepares inductionHypothesis =>
    obtain ⟨paced, counted⟩ := act_of_prepares prepares _
    rw [paced, counted]
    exact inductionHypothesis

/-! ### Frame after frame -/

/-- A frame that is not cut short runs what its pace owes, and keeps the accounted pace. -/
theorem due_of_runFrame {run : Run} (ran : machine.runFrame listening = (owed, run))
    (untrapped : run.trap = none) : machine.pace.due = (.ok owed, run.machine.pace) := by
  rcases due_cases machine.pace with ⟨due, credit, owes⟩ | ⟨cause, credit, owes⟩
  · have law : FrameLaw machine listening true due credit := frameLaw (fun _ => rfl) owes
    obtain ⟨observed, stepped, steps, whole | ⟨short, trap, after, refused⟩⟩ := law.decided
    · rw [law.whole observed stepped steps whole] at ran
      cases ran
      rw [owes, ← steps.keeps_pace]
      rfl
    · rw [law.cut observed stepped trap after steps short refused] at ran
      cases ran
      cases untrapped
  · rw [runFrame_of_unowed owes] at ran
    cases ran
    cases untrapped

/-- Over a number of frames what is off comes together at most as often as there are frames. -/
theorem Frames.accounted (ran : Frames machine frames last)
    (accounts : Pace.Accounts carries rate slack machine.pace.perFrame)
    (holds : Holds machine.pace.credit carried) (carrying : carries carried) :
    ∃ rest, carries rest ∧
      |((frames.map Framed.owed).sum + rest : Rat) - (carried + frames.length * rate)| ≤
        frames.length * slack := by
  induction ran generalizing carried with
  | none => exact ⟨carried, carrying, by simp⟩
  | @more first last listening owed run others ran untrapped _ inductionHypothesis =>
    obtain ⟨due, credit, rest, owes, holds', carrying', error⟩ :=
      accounts first.pace.credit carried holds carrying
    rw [due_of_runFrame ran untrapped] at owes
    obtain ⟨same, paced⟩ := Prod.mk.inj owes
    cases same
    obtain ⟨left, carrying', errors⟩ :=
      inductionHypothesis (by rw [paced]; exact accounts) (by rw [paced]; exact holds') carrying'
    refine ⟨left, carrying', ?_⟩
    have split : ((owed + (others.map Framed.owed).sum : Nat) + left : Rat) -
        (carried + (others.length + 1 : Nat) * rate) =
          (owed + rest - (carried + rate)) +
            ((others.map Framed.owed).sum + left - (rest + others.length * rate)) := by
      push_cast
      ring
    rw [List.map_cons, List.sum_cons, List.length_cons, split]
    calc _ ≤ slack + others.length * slack := (abs_add_le _ _).trans (add_le_add error errors)
      _ = (others.length + 1 : Nat) * slack := by push_cast; ring

theorem Frames.append {middle : Machine} {others : List Framed}
    (first : Frames machine frames middle) (second : Frames middle others last) :
    Frames machine (frames ++ others) last := by
  induction first with
  | none => exact second
  | more ran untrapped _ inductionHypothesis =>
    exact .more ran untrapped (inductionHypothesis second)

/-- The cycles of a number of frames at a clock speed. -/
structure Averages (speed : Int) (frames cycles : Nat) : Prop where
  /-- They are what the speed asks for, but for the rest of less than a cycle and for what the
  frames can be off. -/
  near : (frames * speed / 60 - 1 - frames * Pace.drift speed : Rat) < cycles ∧
    (cycles : Rat) ≤ frames * speed / 60 + frames * Pace.drift speed
  /-- For a long time that is the whole part of what the speed asks for, or one cycle less at a
  moment where the speed asks for a whole number. -/
  long : frames * (speed + 15) < 2 ^ 50 →
    (cycles : Int) = frames * speed / 60 ∨
      (60 ∣ frames * speed ∧ (cycles : Int) = frames * speed / 60 - 1)
  /-- At speeds whose quotient is a number of quarters it is the whole part for ever. -/
  exact : 15 ∣ speed → speed ≤ 2 ^ 53 → (cycles : Int) = frames * speed / 60

/-- What a fresh machine has run and carries after some frames. -/
theorem Frames.accounted_fresh (ran : Frames machine frames last)
    (fresh : Fresh (.whole count) machine)
    (accounts : Pace.Accounts carries (count / 60) slack machine.pace.perFrame)
    (carrying : carries 0) :
    ∃ rest, carries rest ∧
      |(last.cycles + rest : Rat) - frames.length * count / 60| ≤ frames.length * slack := by
  obtain ⟨paced, uncounted⟩ := fresh.unspent
  have owing : machine.pace.credit = 0 := congrArg Pace.credit (Pace.restart_of_ofSpeed paced).symm
  obtain ⟨rest, carries, error⟩ :=
    ran.accounted accounts (by rw [owing]; exact holds_zero) carrying
  have counted := ran.tally.1
  rw [uncounted, zero_add] at counted
  rw [← counted, zero_add, ← mul_div_assoc] at error
  exact ⟨rest, carries, error⟩

/-- What the speed asks for and the cycles that were run are not far apart. -/
theorem Frames.near (ran : Frames machine frames last) (fresh : Fresh (.whole count) machine) :
    (frames.length * count / 60 - 1 - frames.length * Pace.drift count : Rat) < last.cycles ∧
      (last.cycles : Rat) ≤ frames.length * count / 60 + frames.length * Pace.drift count := by
  obtain ⟨rest, ⟨least, most⟩, error⟩ := ran.accounted_fresh fresh
    (Pace.accounts_near fresh.unspent.1) ⟨le_rfl, zero_lt_one⟩
  obtain ⟨low, high⟩ := abs_le.mp error
  constructor <;> linarith

/-- Sixty times the cycles are a multiple of sixty, and as long as what the frames can be off is
less than a sixtieth, there are two that are near enough at most. -/
theorem whole_or_behind {number cycles : Nat}
    (near : (number * count / 60 - 1 - number * Pace.drift count : Rat) < cycles ∧
      (cycles : Rat) ≤ number * count / 60 + number * Pace.drift count)
    (long : number * (count + 15) < 2 ^ 50) :
    (cycles : Int) = number * count / 60 ∨
      (60 ∣ number * count ∧ (cycles : Int) = number * count / 60 - 1) := by
  have small : (number * Pace.drift count : Rat) < 1 / 60 := by
    have few : (number * (count + 15) : Rat) < 2 ^ 50 := by exact_mod_cast long
    rw [Pace.drift, ← mul_div_assoc, div_lt_iff₀ (by norm_num)]
    linarith
  have above : (60 * cycles : Rat) < number * count + 1 := by linarith
  have below : (number * count - 61 : Rat) < 60 * cycles := by linarith
  have most : 60 * (cycles : Int) < number * count + 1 := by exact_mod_cast above
  have least : number * count - 61 < 60 * (cycles : Int) := by exact_mod_cast below
  omega

/-- At speeds whose quotient is a number of quarters nothing is lost. -/
theorem Frames.exact (ran : Frames machine frames last) (fresh : Fresh (.whole count) machine)
    (divides : 15 ∣ count) (moderate : count ≤ 2 ^ 53) :
    (last.cycles : Int) = frames.length * count / 60 := by
  obtain ⟨rest, ⟨⟨least, most⟩, -⟩, error⟩ := ran.accounted_fresh fresh
    (Pace.accounts_exact fresh.unspent.1 divides moderate) ⟨⟨le_rfl, zero_lt_one⟩, 0, by norm_num⟩
  rw [mul_zero] at error
  have none := abs_nonpos_iff.mp error
  have above : (60 * last.cycles : Rat) ≤ frames.length * count := by linarith
  have below : (frames.length * count : Rat) < 60 * last.cycles + 60 := by linarith
  have whole : 60 * (last.cycles : Int) ≤ frames.length * count := by exact_mod_cast above
  have next : frames.length * count < 60 * (last.cycles : Int) + 60 := by exact_mod_cast below
  omega

theorem Frames.averages (ran : Frames machine frames last)
    (fresh : Fresh (.whole count) machine) : Averages count frames.length last.cycles where
  near := ran.near fresh
  long := whole_or_behind (ran.near fresh)
  exact := ran.exact fresh

/-- Whatever came before, a second runs what the speed asks for, or one cycle more or less. -/
theorem Frames.second {sixty : List Framed} {final : Machine}
    (ran : Frames machine frames last) (fresh : Fresh (.whole count) machine)
    (more : Frames last sixty final) (second : sixty.length = 60)
    (long : (frames.length + 60) * (count + 15) < 2 ^ 50) :
    |(final.cycles : Int) - last.cycles - count| ≤ 1 := by
  have positive : 0 < count := (Pace.perFrame_of_ofSpeed fresh.unspent.1).1
  have later := (ran.append more).near fresh
  rw [List.length_append, second] at later
  have after := whole_or_behind later (by exact_mod_cast long)
  have before := whole_or_behind (ran.near fresh) (by linarith)
  push_cast at after
  rw [add_mul] at after
  rw [abs_le]
  omega

/-- A machine keeps to its clock speed, as far as doubles go: from the start, and from one second to
the next. -/
theorem frames_average (fresh : Fresh (.whole count) machine) (ran : Frames machine frames last) :
    Averages count frames.length last.cycles ∧
      ∀ sixty final, Frames last sixty final → sixty.length = 60 →
        (frames.length + 60) * (count + 15) < 2 ^ 50 →
          |(final.cycles : Int) - last.cycles - count| ≤ 1 :=
  ⟨ran.averages fresh, fun _ _ => ran.second fresh⟩

/-! ### Falling behind -/

/-- Frames that owe no cycle pass a credit on, and run nothing. -/
theorem exists_idle_frames {perFrame credit : Float} {credits : List Float}
    (idle : List.IsChain (fun credit next =>
      Pace.due ⟨perFrame, credit⟩ = (.ok 0, ⟨perFrame, next⟩)) (credit :: credits))
    (paced : machine.pace = ⟨perFrame, credit⟩) :
    ∃ frames last, Frames machine frames last ∧ frames.length = credits.length ∧
      last.cycles = machine.cycles := by
  induction credits generalizing machine credit with
  | nil => exact ⟨[], machine, .none machine, rfl, rfl⟩
  | cons next credits inductionHypothesis =>
    obtain ⟨owes, others⟩ := List.isChain_cons_cons.mp idle
    rw [← paced] at owes
    have law : FrameLaw machine false false 0 next := frameLaw (by simp) owes
    have ran := law.whole [] machine (.none machine) rfl
    have passed : (machine.tickTimers.owing next).pace = ⟨perFrame, next⟩ :=
      congrArg (fun pace : Pace => { pace with credit := next }) paced
    obtain ⟨frames, last, rest, length, counted⟩ := inductionHypothesis others passed
    exact ⟨_, last, .more ran rfl rest, congrArg (· + 1) length, counted⟩

/-- Six sixths, added one after the other, fall short of one. -/
theorem six_sixths :
    List.IsChain (fun credit next => Pace.due ⟨.ofBits 0x3FC5555555555555, credit⟩ =
        (.ok 0, ⟨.ofBits 0x3FC5555555555555, next⟩))
      [0, .ofBits 0x3FC5555555555555, .ofBits 0x3FD5555555555555, .ofBits 0x3FE0000000000000,
        .ofBits 0x3FE5555555555555, .ofBits 0x3FEAAAAAAAAAAAAA, .ofBits 0x3FEFFFFFFFFFFFFF] :=
  .cons_cons rfl (.cons_cons rfl (.cons_cons rfl (.cons_cons rfl (.cons_cons rfl
    (.cons_cons rfl (.singleton _))))))

/-- At ten operations per second a frame adds a sixth of a cycle. -/
theorem exists_six_frames_behind :
    ∃ machine frames last, Fresh (.whole 10) machine ∧ Frames machine frames last ∧
      frames.length = 6 ∧ last.cycles = 0 := by
  let dialect := Dialect.ofChoices none none none none
  have paced : Pace.ofSpeed (.whole 10) = .ok ⟨.ofBits 0x3FC5555555555555, 0⟩ := rfl
  have built : boot (some [0x12, 0x00]) (some (.whole 10)) dialect (fun _ => 0) =
      .ok (booted ⟨.ofBits 0x3FC5555555555555, 0⟩ dialect (fun _ => 0) [0x12, 0x00]) :=
    boot_eq_ok_iff.mpr ⟨_, paced, by decide, rfl⟩
  have unspent : (booted ⟨.ofBits 0x3FC5555555555555, 0⟩ dialect (fun _ => 0) [0x12, 0x00]).pace =
      ⟨.ofBits 0x3FC5555555555555, 0⟩ := rfl
  obtain ⟨frames, last, ran, length, counted⟩ := exists_idle_frames six_sixths unspent
  exact ⟨_, frames, last, .built built, ran, length, counted⟩

/-- The sum of six sixths is not one. -/
theorem frames_average_behind :
    ∃ machine frames last, Fresh (.whole 10) machine ∧ Frames machine frames last ∧
      frames.length = 6 ∧ last.cycles = 0 ∧ Averages 10 6 0 := by
  obtain ⟨machine, frames, last, fresh, ran, length, counted⟩ := exists_six_frames_behind
  have averages := (frames_average fresh ran).1
  rw [length, counted] at averages
  exact ⟨machine, frames, last, fresh, ran, length, counted, averages⟩

/-- So the cycles that were run are not always the whole part of what the speed asks for. -/
theorem frames_fall_behind :
    ¬ ∀ (speed : Int) (machine last : Machine) (frames : List Framed), 0 < speed →
      Fresh (.whole speed) machine → Frames machine frames last →
        (last.cycles : Int) = frames.length * speed / 60 := by
  intro keeps
  obtain ⟨machine, frames, last, fresh, ran, length, counted⟩ := exists_six_frames_behind
  have kept := keeps 10 machine last frames (by decide) fresh ran
  rw [length, counted] at kept
  exact absurd kept (by decide)

end Machine

end Chip8
