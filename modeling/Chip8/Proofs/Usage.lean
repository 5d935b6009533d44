/-
This file says what a command line asks for.

Whatever its words are and in whatever order they come, a command line that is
read to its end names one of three speeds or none, and leaves the keymap
standing unless it puts another in its place or empties it. The clock speed of a
launch is the number given, or the standard one, multiplied by the named speed
and cut off. The multiplication is done in doubles, but for a moderate number it
loses nothing but the fraction, so the clock speed can be stated in numbers. What
a setting was emptied of is missed in a fixed order: first the named speed, then
the number it would have multiplied.
-/

import Chip8.Launch.CommandLine
import Chip8.Launch.Start
import Chip8.Proofs.Credit

namespace Chip8

namespace Choice

/-- A choice that a text makes is made or emptied. -/
theorem cases_of_read? {α : Type} {value? : String → Option α} {text : String} {choice : Choice α}
    (read : read? value? text = some choice) :
    choice = emptied ∨ ∃ value, value? text = some value ∧ choice = made value := by
  unfold read? at read
  split at read
  · exact .inl (Option.some.inj read).symm
  · obtain ⟨value, found, rfl⟩ := Option.map_eq_some_iff.mp read
    exact .inr ⟨value, found, rfl⟩

end Choice

namespace Settings

/-- Settings as a command line makes them: a speed that is named is one of three, and the keymap
is never left alone. -/
structure Proper (settings : Settings) : Prop where
  speed : ∀ name, settings.speed = .made name → name ∈ ["0.5", "1", "2"]
  keymap : settings.keymap ≠ .unmade

variable {settings after : Settings} {setting : Setting} {text : String}

theorem proper_standard (filename : String) : (standard filename).Proper where
  speed _ named := by cases named
  keymap := by nofun

theorem Proper.give (proper : settings.Proper)
    (given : settings.give setting text = some after) : after.Proper := by
  unfold Settings.give at given
  cases setting with
  | debug | step | help => cases given
  | speed =>
    obtain ⟨choice, read, rfl⟩ := Option.map_eq_some_iff.mp given
    refine ⟨fun name named => ?_, proper.keymap⟩
    rcases Choice.cases_of_read? read with rfl | ⟨value, found, rfl⟩
    · cases named
    · cases named
      unfold oneOf? at found
      split at found
      · next member =>
        cases found
        exact member
      · cases found
  | keymap =>
    obtain ⟨choice, read, rfl⟩ := Option.map_eq_some_iff.mp given
    refine ⟨proper.speed, ?_⟩
    rcases Choice.cases_of_read? read with rfl | ⟨value, -, rfl⟩
    · nofun
    · nofun
  | _ =>
    obtain ⟨choice, -, rfl⟩ := Option.map_eq_some_iff.mp given
    exact ⟨proper.speed, proper.keymap⟩

theorem Proper.mark (proper : settings.Proper) (setting : Setting) :
    (settings.mark setting).Proper := by
  cases setting <;> exact ⟨proper.speed, proper.keymap⟩

end Settings

namespace CommandLine

variable {α β : Type} {progress after : Progress} {words : List Word} {named : Bool}

theorem proper_applyMarks {marks : List Setting} (proper : progress.settings.Proper)
    (applied : applyMarks progress marks = .ok after) : after.settings.Proper := by
  unfold applyMarks at applied
  split at applied
  · cases applied
  · cases applied
    exact List.foldlRecOn marks Settings.mark proper fun _ kept setting _ => kept.mark setting

theorem proper_applyValue {setting : Setting} {text : String} (proper : progress.settings.Proper)
    (applied : applyValue progress setting text = .ok after) : after.settings.Proper := by
  unfold applyValue at applied
  split at applied
  · next settings given =>
    cases applied
    exact proper.give given
  · cases applied

theorem settings_takeValue (progress : Progress) (text : String) :
    (takeValue progress text).settings = progress.settings := by
  unfold takeValue
  split <;> rfl

/-- What was read in two parts was read in the first and then in the second. -/
theorem of_bind_ok {first : Except Exit α} {next : α → Except Exit β} {value : β}
    (read : first >>= next = .ok value) :
    ∃ middle, first = .ok middle ∧ next middle = .ok value := by
  cases first with
  | error exit => cases read
  | ok middle => exact ⟨middle, rfl, read⟩

/-- Reading words keeps settings proper, word by word. -/
theorem proper_readWords (proper : progress.settings.Proper)
    (read : readWords progress named words = .ok after) : after.settings.Proper := by
  fun_induction readWords progress named words with
  | case1 progress =>
    cases read
    exact proper
  | case2 progress _ text rest inductionHypothesis =>
    exact inductionHypothesis (settings_takeValue progress text ▸ proper) read
  | case3 progress _ rest apart inductionHypothesis => exact inductionHypothesis proper read
  | case4 progress _ rest inductionHypothesis => exact inductionHypothesis proper read
  -- These words end the reading without settings.
  | case5 | case6 | case10 => cases read
  | case7 progress _ marks rest inductionHypothesis =>
    obtain ⟨marked, applied, others⟩ := of_bind_ok read
    exact inductionHypothesis marked (proper_applyMarks proper applied) others
  | case8 progress _ marks setting text rest inductionHypothesis
  | case9 progress _ marks setting text rest inductionHypothesis =>
    obtain ⟨marked, applied, giving⟩ := of_bind_ok read
    obtain ⟨given, valued, others⟩ := of_bind_ok giving
    exact inductionHypothesis given
      (proper_applyValue (proper_applyMarks proper applied) valued) others

/-- What a command line comes to is proper. -/
theorem proper_of_parse {arguments : List String} {settings : Settings}
    (parsed : parse arguments = .ok settings) : settings.Proper := by
  unfold parse at parsed
  dsimp only at parsed
  split at parsed
  · cases parsed
  · obtain ⟨progress, read, named⟩ := of_bind_ok parsed
    have proper := proper_readWords (Settings.proper_standard "") read
    split at named
    · cases named
      exact ⟨proper.speed, proper.keymap⟩
    · cases named

end CommandLine

open Double

/-! ### The clock speed -/

/-- What a named speed multiplies by, as a number. -/
def speedRatio (name : String) : Rat :=
  if name = "0.5" then 1 / 2 else if name = "2" then 2 else 1

namespace Settings

/-- The operations per second before they are multiplied: those given, or the standard ones. -/
def baseSpeed? (settings : Settings) : Option Int :=
  match settings.clockSpeed with
  | .unmade => some 360
  | .emptied => none
  | .made count => some count

/-- The operations per second that settings come to: multiplied and without fraction if a speed
is named. -/
def effectiveSpeed (settings : Settings) : Except LaunchError Int :=
  match settings.speed, settings.baseSpeed? with
  | .emptied, _ => .error (.unfit "speed" (.list true))
  | .unmade, some count => .ok count
  | .unmade, none => .error (.unfit "clock_speed" (.list true))
  | .made name, some count => .ok (towardZero (count * speedRatio name))
  | .made _, none => .error (.unscalable (.list true))

/-- Settings whose clock speed is small enough to be counted in doubles. -/
def Moderate (settings : Settings) : Prop :=
  ∀ count, settings.clockSpeed = .made count → count.natAbs < 2 ^ 53

theorem Moderate.base {settings : Settings} (moderate : settings.Moderate) {count : Int}
    (base : settings.baseSpeed? = some count) : count.natAbs < 2 ^ 53 := by
  unfold baseSpeed? at base
  split at base
  · cases base
    decide
  · cases base
  · next made =>
    cases base
    exact moderate count made

end Settings

namespace Launch

/-- The doubles of the named speeds are powers of two. -/
theorem exists_speedFactor {name : String} (named : name ∈ ["0.5", "1", "2"]) :
    ∃ factor, speedFactor? name = some factor ∧ Holds factor (speedRatio name) ∧
      ∃ power : Int, -1 ≤ power ∧ power ≤ 1 ∧ speedRatio name = 2 ^ power := by
  simp only [List.mem_cons, List.not_mem_nil, or_false] at named
  rcases named with rfl | rfl | rfl
  · exact ⟨0.5, rfl, holds_half, -1, by decide, by decide, by norm_num [speedRatio]⟩
  · have plain : speedRatio "1" = 1 := by
      rw [speedRatio, if_neg (by decide), if_neg (by decide)]
    rw [plain]
    exact ⟨1, rfl, holds_one, 0, by decide, by decide, by norm_num⟩
  · have double : speedRatio "2" = 2 := by
      rw [speedRatio, if_neg (by decide), if_pos rfl]
    rw [double]
    exact ⟨2, rfl, holds_two, 1, by decide, by decide, by norm_num⟩

/-- Multiplying a moderate number of operations by a named speed loses nothing but the
fraction. -/
theorem scaled_whole {name : String} {count : Int} (named : name ∈ ["0.5", "1", "2"])
    (moderate : count.natAbs < 2 ^ 53) :
    ∃ factor, speedFactor? name = some factor ∧
      scaled (.whole count) factor = .ok (.whole (towardZero (count * speedRatio name))) ∧
      towardZero (count * speedRatio name) ≤ 2 ^ 54 := by
  obtain ⟨factor, found, held, power, low, high, ratio⟩ := exists_speedFactor named
  rw [ratio] at held ⊢
  have small : |count| ≤ 2 ^ 53 := by
    rw [← Int.natCast_natAbs]
    omega
  have converted := holds_ofInt small
  have bounded : |(count : Rat) * 2 ^ power| ≤ 2 ^ 54 := by
    have factor_le : (2 : Rat) ^ power ≤ 2 ^ (1 : Int) := zpow_le_zpow_right₀ one_le_two high
    have count_le : |(count : Rat)| ≤ 2 ^ 53 := by exact_mod_cast small
    rw [abs_mul, abs_of_pos (two_zpow_pos power)]
    calc |(count : Rat)| * 2 ^ power ≤ 2 ^ 53 * 2 ^ (1 : Int) :=
          mul_le_mul count_le factor_le (two_zpow_pos power).le (by positivity)
      _ = 2 ^ 54 := by norm_num
  have product := (converted.mul held (bounded.trans (pow_le_limit (by decide)))).holds
    ⟨count, power, small, by omega, rfl⟩
  refine ⟨factor, found, ?_, ?_⟩
  · rw [scaled, ClockSpeed.toDouble?, Pace.ofInt?_of_holds converted]
    dsimp only
    rw [whole_of_holds product]
  · exact towardZero_le (by exact_mod_cast (le_abs_self _).trans bounded)

variable {settings : Settings}

theorem speedFactor_of_unmade (unmade : settings.speed = .unmade) :
    speedFactor (.ofSettings settings) = .ok none := by
  simp only [speedFactor, Options.ofSettings, unmade]
  rfl

theorem speedFactor_of_emptied (emptied : settings.speed = .emptied) :
    speedFactor (.ofSettings settings) = .error (.unfit "speed" (.list true)) := by
  simp only [speedFactor, Options.ofSettings, emptied]
  rfl

theorem speedFactor_of_made {name : String} {factor : Float} (made : settings.speed = .made name)
    (found : speedFactor? name = some factor) :
    speedFactor (.ofSettings settings) = .ok (some factor) := by
  have looked : option "speed" (Entry.ofChoice (Choice.made name)) = .ok (some (.ok name)) := rfl
  simp only [speedFactor, Options.ofSettings, made, looked, bind, Except.bind, found]
  rfl

/-- How the clock speed comes about: the factor is looked at first. -/
theorem clockSpeed_eq (settings : Settings) :
    clockSpeed (.ofSettings settings) = (speedFactor (.ofSettings settings)).bind fun factor =>
      Except.bind (match settings.baseSpeed?, factor with
        | some count, none => .ok (.whole count)
        | some count, some factor => scaled (.whole count) factor
        | none, none => .error (.unfit "clock_speed" (.list true))
        | none, some _ => .error (.unscalable (.list true)))
        fun speed => if speed.isPositive then .ok speed else .error .clockTooSlow := by
  have read : (Options.ofSettings settings).clockSpeed =
      .ofChoice (settings.clockSpeed.map .whole) := rfl
  unfold clockSpeed Settings.baseSpeed?
  rw [read]
  cases settings.clockSpeed with
  | unmade | emptied | made =>
    show Except.bind (speedFactor _) _ = Except.bind (speedFactor _) _
    congr 1
    funext factor
    cases factor <;> rfl

theorem isPositive_whole (count : Int) :
    (if (ClockSpeed.whole count).isPositive then Except.ok (ClockSpeed.whole count)
      else .error LaunchError.clockTooSlow) =
        if 0 < count then .ok (.whole count) else .error .clockTooSlow := by
  simp only [ClockSpeed.isPositive, decide_eq_true_eq]

/-- The clock speed of a launch is that of its settings, if it is above zero. -/
theorem clockSpeed_ofSettings (proper : settings.Proper) (moderate : settings.Moderate) :
    (∀ speed, settings.effectiveSpeed = .ok speed → speed ≤ 2 ^ 54) ∧
      clockSpeed (.ofSettings settings) =
        settings.effectiveSpeed.bind fun speed =>
          if 0 < speed then .ok (.whole speed) else .error .clockTooSlow := by
  rw [clockSpeed_eq, Settings.effectiveSpeed]
  cases chosen : settings.speed with
  | emptied =>
    rw [speedFactor_of_emptied chosen]
    exact ⟨nofun, rfl⟩
  | unmade =>
    rw [speedFactor_of_unmade chosen]
    cases base : settings.baseSpeed? with
    | none => exact ⟨nofun, rfl⟩
    | some count =>
      have small := moderate.base base
      refine ⟨fun speed same => ?_, isPositive_whole count⟩
      cases same
      omega
  | made name =>
    have named := proper.speed name chosen
    cases base : settings.baseSpeed? with
    | none =>
      obtain ⟨factor, found, -⟩ := exists_speedFactor named
      rw [speedFactor_of_made chosen found]
      exact ⟨nofun, rfl⟩
    | some count =>
      obtain ⟨factor, found, multiplied, small⟩ := scaled_whole named (moderate.base base)
      rw [speedFactor_of_made chosen found]
      refine ⟨fun speed same => ?_, ?_⟩
      · cases same
        exact small
      · show Except.bind (scaled (.whole count) factor) _ = _
        rw [multiplied]
        exact isPositive_whole _

end Launch

end Chip8
