/-
This file says what a launch without a window comes to, and what decides it.

For settings that a command line makes, the way to the first frame has few
branches: the clock speed, the file, its size and the keymap, looked at in this
order. Past them there is a machine that can go on, and a session of it. The
session goes on with the moments it is told of until one of them ends it: a frame
that is asked to quit, a cycle that meets a fault, or a title that is due at no
time at all. The code the program exits with, and what it prints last, are read
off which of them came first. A machine that meets a fault is shown as it was
before, since a cycle that fails leaves it so.

What decides a launch is a relation with one case for each of these. A launch
comes to what it is decided to, and to nothing else; and a launch with a clock and
a source of its own comes to what the moments they tell it of decide.
-/

import Chip8.Proofs.Course
import Chip8.Proofs.Halting
import Chip8.Proofs.Usage

namespace Chip8

namespace Outcome

/-- The result of a launch, unless the clock stopped it. -/
def ended? (outcome : Outcome) : Option (Except LaunchError Finish) :=
  match outcome.result with
  | .ok .stopped => none
  | result => some result

end Outcome

/-- A new session runs its first frame at once, after it has set its title. -/
theorem Session.turn_create (machine : Machine) (keymap : Keymap) (screen : Screen)
    (debugging stepping : Bool) :
    let session := create machine keymap screen debugging stepping
    session.turn 0 = (.frame, { session.reportCounts 0 with frameDue := 0 + frameInterval }) := by
  intro session
  have due : session.titleDue ≤ 0 := show (0 : Float) ≤ 0 by decide
  have now : ¬ 0 < (session.reportCounts 0).frameDue := show ¬ (0 : Float) < 0 by decide
  have whole : Double.whole 0 = .ok 0 := rfl
  rw [turn, if_pos due, whole]
  exact if_neg now

/-- The picture of a machine that was halted where it found no instruction. -/
theorem Machine.snapshot_fetched (machine : Machine) (fault : Fault) :
    (machine.fetched.halted fault).snapshot =
      { machine.snapshot with opcode := machine.fetched.opcode, mnemonic := "???" } := rfl

namespace Launch

variable {settings : Settings} {host : Host} {session last : Session} {moments : List Moment}
  {printed : Array String} {ended : Option (Except LaunchError Finish)}

/-! ### Sessions -/

/-- What a session comes to as it is told of moments: the lines printed, and the result once there
is one. -/
def attend (session : Session) (moments : List Moment) :
    Array String × Option (Except LaunchError Finish) :=
  match session.reaches moments with
  | (last, none) => (last.printed, none)
  | (last, some ending) => (last.printed ++ (conclude last ending).1, some (conclude last ending).2)

/-- The same as a relation, by what decides it. -/
inductive Course (session : Session) (moments : List Moment) :
    Array String → Option (Except LaunchError Finish) → Prop
  /-- No moment ends the session. -/
  | lasts {last : Session} (outlasts : session.Outlasts moments last) :
      Course session moments last.printed none
  /-- A frame is asked to quit before any met a fault. -/
  | quits {earlier later : List Moment} {moment : Moment} {reached ready : Session}
      (split : moments = earlier ++ moment :: later) (outlasts : session.Outlasts earlier reached)
      (due : reached.turn moment.now = (.frame, ready)) (asks : Command.quit ∈ moment.commands) :
      Course session moments ready.printed (some (.ok (.exited 0)))
  /-- A cycle meets a fault first, and the machine is shown as it was before the cycle. -/
  | halts {earlier later : List Moment} {moment : Moment} {reached ready : Session}
      {observed : List Observation} {before failed : Machine} {fault : Fault} {picture : Snapshot}
      (split : moments = earlier ++ moment :: later) (outlasts : session.Outlasts earlier reached)
      (due : reached.turn moment.now = (.frame, ready))
      (meets : ready.Meets moment.commands observed before failed fault)
      (untouched : before.Untouched failed fault) (depicted : failed.Depicted picture)
      (shows : before.Shows none picture) :
      Course session moments
        (ready.printed ++ ready.reported observed ++
          #["Emulation halted.\n\nPlainChip8 Emulator V0.3.0 -- Debug info:\n" ++
            Report.crash picture ++ "\n\n" ++ fault.message])
        (some (.ok (.exited 1)))
  /-- A title is due at a time without whole part. -/
  | untimely {earlier later : List Moment} {moment : Moment} {reached : Session}
      {cause : Double.NotFinite} (split : moments = earlier ++ moment :: later)
      (outlasts : session.Outlasts earlier reached) (due : reached.titleDue ≤ moment.now)
      (endless : Double.whole moment.now = .error cause) :
      Course session moments reached.printed (some (.error (.trap (.notFinite cause))))

/-- The text of a halted machine is read off its snapshot. -/
theorem haltedText_fault (machine : Machine) (fault : Fault) :
    haltedText machine (.fault fault) =
      "Emulation halted.\n\nPlainChip8 Emulator V0.3.0 -- Debug info:\n" ++
        Report.crash machine.snapshot ++ "\n\n" ++ fault.message := by
  have opening : "Emulation halted.\n\n" ++ Program.heading ++ "Debug info:\n" =
      "Emulation halted.\n\nPlainChip8 Emulator V0.3.0 -- Debug info:\n" := by decide +kernel
  rw [← opening]
  rfl

theorem attend_of_ended {earlier later : List Moment} {moment : Moment}
    {reached after : Session} {passing : Passing} {ending : Ending}
    (outlasts : session.Outlasts earlier reached) (took : reached.take moment = (passing, after))
    (ends : passing.ending = some ending) :
    attend session (earlier ++ moment :: later) =
      (after.printed ++ (conclude after ending).1, some (conclude after ending).2) := by
  rw [attend, outlasts.reaches, Session.reaches_of_ended took ends]

/-- A course is what attending to the moments shows. -/
theorem Course.attend (course : Course session moments printed ended) :
    attend session moments = (printed, ended) := by
  cases course with
  | lasts outlasts =>
    have reaches := outlasts.reaches []
    rw [List.append_nil] at reaches
    rw [Launch.attend, reaches]
    rfl
  | quits split outlasts due asks =>
    subst split
    rw [attend_of_ended outlasts (Session.take_of_quit due asks) rfl]
    simp [conclude, Session.obey]
  | halts split outlasts due meets _ depicted =>
    subst split
    obtain rfl := depicted.eq_snapshot
    obtain ⟨last, framed, same, lines⟩ := Session.frame_of_meets meets
    rw [attend_of_ended outlasts (Session.take_of_frame due framed) rfl, conclude, lines,
      haltedText_fault, same]
  | untimely split outlasts due endless =>
    subst split
    rw [attend_of_ended outlasts (Session.take_of_untimely due endless) rfl]
    simp [conclude]

theorem exists_course (able : session.machine.Able) (moments : List Moment) :
    ∃ printed ended, Course session moments printed ended := by
  rcases session.outlasts_or_ends moments with ⟨last, outlasts⟩ | ⟨earlier, moment, later, reached,
    passing, after, ending, split, outlasts, took, ends⟩
  · exact ⟨_, _, .lasts outlasts⟩
  · cases Session.comes (outlasts.able able) moment with
    | on other goesOn =>
      rw [took] at other
      cases other
      rw [goesOn] at ends
      cases ends
    | quit due asks => exact ⟨_, _, .quits split outlasts due asks⟩
    | fault due meets untouched shows =>
      exact ⟨_, _, .halts split outlasts due meets untouched
        (Machine.depicted_snapshot _) shows⟩
    | untimely due endless => exact ⟨_, _, .untimely split outlasts due endless⟩

/-! ### The way to the session -/

/-- What a machine is built from fits it: the clock speed is above zero, and the file is there and
small enough. -/
structure Loads (settings : Settings) (host : Host) (speed : Int) (rom : List UInt8) : Prop where
  asked : settings.effectiveSpeed = .ok speed
  fast : 0 < speed
  present : host.fileAt settings.filename = .ok rom
  fits : rom.length ≤ 0xE00

/-- What a launch without a window comes to, by what decides it. Each case asks for what lets it
get past those above it. -/
inductive Decided (settings : Settings) (host : Host) (moments : List Moment) :
    Array String → Option (Except LaunchError Finish) → Prop
  /-- A setting that the clock speed depends on is emptied. -/
  | speedless {error : LaunchError} (asked : settings.effectiveSpeed = .error error) :
      Decided settings host moments #[Program.banner] (some (.error error))
  | tooSlow {speed : Int} (asked : settings.effectiveSpeed = .ok speed) (slow : speed ≤ 0) :
      Decided settings host moments #[Program.banner] (some (.error .clockTooSlow))
  | missing {speed : Int} {cause : FileError} (asked : settings.effectiveSpeed = .ok speed)
      (fast : 0 < speed) (absent : host.fileAt settings.filename = .error cause) :
      Decided settings host moments #[Program.banner]
        (some (.error (.file settings.filename cause)))
  | tooLarge {speed : Int} {rom : List UInt8} (asked : settings.effectiveSpeed = .ok speed)
      (fast : 0 < speed) (present : host.fileAt settings.filename = .ok rom)
      (large : 0xE00 < rom.length) :
      Decided settings host moments
        #[Program.banner, "Unable to start: ROM is " ++ toString rom.length ++
          " bytes, but only 3584 bytes are available"] (some (.ok (.exited 1)))
  /-- The keymap is emptied. -/
  | keyless {speed : Int} {rom : List UInt8} (loads : Loads settings host speed rom)
      (emptied : settings.keymap = .emptied) :
      Decided settings host moments #[Program.banner]
        (some (.error (.unfit "keymap" (.list true))))
  | miskeyed {speed : Int} {rom : List UInt8} {text : String} {cause : KeymapError}
      (loads : Loads settings host speed rom) (keyed : settings.keymap = .made text)
      (invalid : Keymap.parse text = .error cause) :
      Decided settings host moments #[Program.banner] (some (.error (.keymap cause)))
  | runs {speed : Int} {rom : List UInt8} {text : String} {keymap : Keymap} {dialect : Dialect}
      {machine : Machine} {screen : Screen} {printed : Array String}
      {ended : Option (Except LaunchError Finish)} (loads : Loads settings host speed rom)
      (keyed : settings.keymap = .made text) (valid : Keymap.parse text = .ok keymap)
      (chosen : Launch.dialect (.ofSettings settings) = .ok dialect)
      (built : Machine.boot (some rom) (some (.whole speed)) dialect host.bytes = .ok machine)
      (shown : Launch.screen (.ofSettings settings) false = .ok screen)
      (course : Course (Session.create machine keymap screen settings.debug settings.step) moments
        printed ended) :
      Decided settings host moments (#[Program.banner] ++ printed) ended

/-- What a launch comes to as it is told of moments: the lines printed, and the result once there
is one. -/
def follow (options : Options) (host : Host) (moments : List Moment) :
    Array String × Option (Except LaunchError Finish) :=
  match start options host with
  | .error error => (#[Program.banner], some (.error error))
  | .ok (.unable fault) => (#[Program.banner, unableText fault], some (.ok (.exited 1)))
  | .ok (.ready session _) =>
      (#[Program.banner] ++ (attend session moments).1, (attend session moments).2)

/-- The moments that the clock and the source of a host tell a launch of. -/
def told (options : Options) (host : Host) : List Moment :=
  match start options host with
  | .ok (.ready session source) =>
      session.told (2 * (host.clock.allowance + source.remaining) + 4) source host.clock
  | _ => []

/-- What is on or off is never unfit: emptied it counts as off. -/
theorem exists_choice (name : String) (setting : Choice Bool) :
    ∃ value, choice name (.ofChoice setting) = .ok value := by
  cases setting <;> exact ⟨_, rfl⟩

theorem exists_dialect (settings : Settings) :
    ∃ chosen, dialect (.ofSettings settings) = .ok chosen := by
  obtain ⟨load, loads⟩ := exists_choice "load_quirks" settings.loadDialect
  obtain ⟨shift, shifts⟩ := exists_choice "shift_quirks" settings.shiftDialect
  obtain ⟨logic, combines⟩ := exists_choice "logic_quirks" settings.logicDialect
  obtain ⟨jump, jumps⟩ := exists_choice "jump_quirks" settings.jumpDialect
  refine ⟨Dialect.ofChoices load shift logic jump, ?_⟩
  simp only [dialect, Options.ofSettings, loads, shifts, combines, jumps]
  rfl

theorem exists_screen (settings : Settings) :
    ∃ shown, screen (.ofSettings settings) false = .ok shown := by
  dsimp only [screen, Options.ofSettings]
  cases settings.scale <;> exact ⟨_, rfl⟩

theorem source_ofSettings (plain : settings.renderer = .made "null") (host : Host) :
    source (.ofSettings settings) host = .ok (false, host.plainSource) := by
  obtain ⟨muted, mutes⟩ := exists_choice "mute" settings.mute
  simp only [source, wantsWindow, Options.ofSettings, plain, mutes]
  rfl

theorem program_ofSettings (settings : Settings) (host : Host) :
    program (.ofSettings settings) host =
      (host.fileAt settings.filename).mapError (.file settings.filename) := rfl

theorem unableText_romTooLarge (size : Nat) : unableText (.romTooLarge size 0xE00) =
    "Unable to start: ROM is " ++ toString size ++ " bytes, but only 3584 bytes are available" := by
  have opening : "Unable to start: " ++ "ROM is " = "Unable to start: ROM is " := by decide +kernel
  have ending : " bytes, but only " ++ (toString (0xE00 : Int) ++ " bytes are available") =
      " bytes, but only 3584 bytes are available" := by decide +kernel
  show "Unable to start: " ++ ("ROM is " ++ toString size ++ " bytes, but only " ++
    toString (0xE00 : Int) ++ " bytes are available") = _
  rw [← opening, ← ending]
  simp only [String.append_assoc]

theorem boot_of_large {speed : ClockSpeed} {pace : Pace} {rom : List UInt8}
    (paced : Pace.ofSpeed speed = .ok pace) (large : 0xE00 < rom.length) (dialect : Dialect)
    (bytes : Nat → UInt8) :
    Machine.boot (some rom) (some speed) dialect bytes =
      .error (.fault (.romTooLarge rom.length 0xE00)) := by
  have size := (Machine.intact_booted pace dialect bytes []).memory
  have room : (Layout.memorySize : Int) - Layout.programStart = 0xE00 := by decide
  have given : Pace.ofSpeed ((some speed).getD ClockSpeed.standard) = .ok pace := paced
  have created := Machine.create_of_pace given dialect bytes
  unfold Machine.boot
  rw [created]
  simp only [bind, Except.bind, Machine.completed_loadRom, Memory.loadRom_eq, Memory.room, size,
    room]
  rw [if_neg (by omega)]
  rfl

/-- What a session's keymap comes to. -/
theorem session_ofSettings {machine : Machine} {shown : Screen}
    (screened : screen (.ofSettings settings) false = .ok shown) :
    Launch.session (.ofSettings settings) machine false =
      (keymap (.ofSettings settings)).map fun keymap =>
        Session.create machine keymap shown settings.debug settings.step := by
  unfold Launch.session
  rw [screened]
  cases keymap (.ofSettings settings) <;> rfl

theorem keymap_of_made {text : String} (made : settings.keymap = .made text) :
    keymap (.ofSettings settings) = (Keymap.parse text).mapError .keymap := by
  simp only [keymap, Options.ofSettings, made]
  rfl

theorem keymap_of_emptied (emptied : settings.keymap = .emptied) :
    keymap (.ofSettings settings) = .error (.unfit "keymap" (.list true)) := by
  simp only [keymap, Options.ofSettings, emptied]
  rfl

/-- A launch without a window takes its steps in this order. -/
theorem start_ofSettings (proper : settings.Proper) (moderate : settings.Moderate)
    (plain : settings.renderer = .made "null") (host : Host) {chosen : Dialect}
    (choice : dialect (.ofSettings settings) = .ok chosen) :
    start (.ofSettings settings) host = settings.effectiveSpeed.bind fun speed =>
      if 0 < speed then
        ((host.fileAt settings.filename).mapError (LaunchError.file settings.filename)).bind
          fun rom => match Machine.boot (some rom) (some (.whole speed)) chosen host.bytes with
            | .error (.fault fault) => .ok (.unable fault)
            | .error cause => .error (.trap cause)
            | .ok machine =>
                (Launch.session (.ofSettings settings) machine false).map fun session =>
                  .ready session host.plainSource
      else .error .clockTooSlow := by
  unfold start
  rw [choice, (clockSpeed_ofSettings proper moderate).2, source_ofSettings plain,
    program_ofSettings]
  cases settings.effectiveSpeed with
  | error error => rfl
  | ok speed =>
    by_cases fast : 0 < speed
    · simp only [bind, Except.bind, if_pos fast]
      cases host.fileAt settings.filename with
      | error cause => rfl
      | ok rom =>
        simp only [Except.mapError]
        cases Machine.boot (some rom) (some (.whole speed)) chosen host.bytes with
        | error cause => cases cause <;> rfl
        | ok machine =>
          simp only
          cases Launch.session (.ofSettings settings) machine false <;> rfl
    · simp only [Except.bind, if_neg fast]
      rfl

/-- A clock speed above zero and a program that fits make a machine that can go on. -/
theorem boot_of_loads (proper : settings.Proper) (moderate : settings.Moderate) {speed : Int}
    {rom : List UInt8} (loads : Loads settings host speed rom) (chosen : Dialect) :
    ∃ machine, Machine.boot (some rom) (some (.whole speed)) chosen host.bytes = .ok machine ∧
      machine.Able := by
  have small := (clockSpeed_ofSettings proper moderate).1 speed loads.asked
  obtain ⟨pace, paced, sound⟩ := Pace.ofSpeed_whole loads.fast small
  refine ⟨Machine.booted pace chosen host.bytes rom,
    Machine.boot_eq_ok_iff.mpr ⟨pace, paced, loads.fits, rfl⟩, ?_⟩
  exact { Machine.wellFormed_booted pace chosen host.bytes rom with
    running := rfl
    pace := sound.restart }

/-! ### What decides a launch -/

section

variable (proper : settings.Proper) (moderate : settings.Moderate)
  (plain : settings.renderer = .made "null")
include proper moderate plain

/-- Past the file, what is left to be looked at is the keymap. -/
theorem start_of_loads {speed : Int} {rom : List UInt8} {chosen : Dialect} {machine : Machine}
    {shown : Screen} (loads : Loads settings host speed rom)
    (choice : dialect (.ofSettings settings) = .ok chosen)
    (screened : screen (.ofSettings settings) false = .ok shown)
    (built : Machine.boot (some rom) (some (.whole speed)) chosen host.bytes = .ok machine) :
    start (.ofSettings settings) host = (keymap (.ofSettings settings)).map fun keymap =>
      .ready (Session.create machine keymap shown settings.debug settings.step)
        host.plainSource := by
  have started := start_ofSettings proper moderate plain host choice
  rw [loads.asked, loads.present] at started
  refine (started.trans (if_pos loads.fast)).trans ?_
  simp only [Except.mapError, Except.bind, built, session_ofSettings screened]
  cases keymap (.ofSettings settings) <;> rfl

/-- A launch goes as it is decided. -/
theorem Decided.follow (decided : Decided settings host moments printed ended) :
    follow (.ofSettings settings) host moments = (printed, ended) := by
  obtain ⟨chosen, choice⟩ := exists_dialect settings
  have started := start_ofSettings proper moderate plain host choice
  cases decided with
  | speedless asked =>
    rw [asked] at started
    rw [Launch.follow, started]
    rfl
  | tooSlow asked slow =>
    rw [asked] at started
    rw [Launch.follow, started.trans (if_neg (not_lt.mpr slow))]
  | missing asked fast absent =>
    rw [asked, absent] at started
    rw [Launch.follow, started.trans (if_pos fast)]
    rfl
  | tooLarge asked fast present large =>
    have small := (clockSpeed_ofSettings proper moderate).1 _ asked
    obtain ⟨pace, paced, -⟩ := Pace.ofSpeed_whole fast small
    rw [asked, present] at started
    have refused := boot_of_large paced large chosen host.bytes
    have unable := started.trans (if_pos fast)
    simp only [Except.mapError, Except.bind, refused] at unable
    rw [Launch.follow, unable, ← unableText_romTooLarge]
  | keyless loads emptied =>
    obtain ⟨machine, built, -⟩ := boot_of_loads proper moderate loads chosen
    obtain ⟨shown, screened⟩ := exists_screen settings
    rw [Launch.follow, start_of_loads proper moderate plain loads choice screened built,
      keymap_of_emptied emptied]
    rfl
  | miskeyed loads keyed invalid =>
    obtain ⟨machine, built, -⟩ := boot_of_loads proper moderate loads chosen
    obtain ⟨shown, screened⟩ := exists_screen settings
    rw [Launch.follow, start_of_loads proper moderate plain loads choice screened built,
      keymap_of_made keyed, invalid]
    rfl
  | runs loads keyed valid choice built screened course =>
    rw [Launch.follow, start_of_loads proper moderate plain loads choice screened built,
      keymap_of_made keyed, valid]
    show (#[Program.banner] ++ (attend _ moments).1, (attend _ moments).2) = _
    rw [course.attend]

omit plain in
/-- Every launch is decided. -/
theorem exists_decided (host : Host) (moments : List Moment) :
    ∃ printed ended, Decided settings host moments printed ended := by
  cases asked : settings.effectiveSpeed with
  | error error => exact ⟨_, _, .speedless asked⟩
  | ok speed =>
    rcases le_or_gt speed 0 with slow | fast
    · exact ⟨_, _, .tooSlow asked slow⟩
    · cases present : host.fileAt settings.filename with
      | error cause => exact ⟨_, _, .missing asked fast present⟩
      | ok rom =>
        rcases Nat.lt_or_ge 0xE00 rom.length with large | fits
        · exact ⟨_, _, .tooLarge asked fast present large⟩
        · have loads : Loads settings host speed rom := ⟨asked, fast, present, fits⟩
          cases keyed : settings.keymap with
          | unmade => exact absurd keyed proper.keymap
          | emptied => exact ⟨_, _, .keyless loads keyed⟩
          | made text =>
            cases valid : Keymap.parse text with
            | error cause => exact ⟨_, _, .miskeyed loads keyed valid⟩
            | ok keymap =>
              obtain ⟨chosen, choice⟩ := exists_dialect settings
              obtain ⟨shown, screened⟩ := exists_screen settings
              obtain ⟨machine, built, able⟩ := boot_of_loads proper moderate loads chosen
              have able : (Session.create machine keymap shown settings.debug
                settings.step).machine.Able := able
              obtain ⟨lines, result, course⟩ := exists_course able moments
              exact ⟨_, _, .runs loads keyed valid choice built screened course⟩

theorem decided_iff (host : Host) (moments : List Moment) (printed : Array String)
    (ended : Option (Except LaunchError Finish)) :
    Decided settings host moments printed ended ↔
      Launch.follow (.ofSettings settings) host moments = (printed, ended) := by
  refine ⟨Decided.follow proper moderate plain, fun followed => ?_⟩
  obtain ⟨lines, result, decided⟩ := exists_decided proper moderate host moments
  rw [decided.follow proper moderate plain] at followed
  cases followed
  exact decided

end

/-! ### Launches with a clock and a source -/

/-- A launch comes to what following the moments it is told of comes to. -/
theorem follow_told (options : Options) (host : Host) :
    follow options host (told options host) =
      ((run options host).printed, (run options host).ended?) := by
  unfold follow told run
  cases start options host with
  | error error => rfl
  | ok begun =>
    cases begun with
    | unable fault => rfl
    | ready session source =>
      obtain ⟨last, ended⟩ := Session.pass_told (2 * (host.clock.allowance + source.remaining) + 4)
        session source host.clock
      dsimp only
      rw [attend, Session.reaches, last, ended, Session.run]
      rcases session.turns _ source host.clock with ⟨_ | trap | _, after, clock⟩
      · simp [conclude, Ending.ofItself?, Outcome.ended?]
      · cases trap <;> simp [conclude, Ending.ofItself?, Outcome.ended?]
      · simp [conclude, Ending.ofItself?, Outcome.ended?]

/-- No machine is to blame for the refusal of a clock speed. -/
theorem effectiveSpeed_ne_trap (settings : Settings) (trap : Trap) :
    settings.effectiveSpeed ≠ .error (.trap trap) := by
  unfold Settings.effectiveSpeed
  split <;> nofun

/-- What no launch makes up for is a time without whole part, and nothing that a machine was
refused. -/
theorem Decided.untimely {trap : Trap}
    (decided : Decided settings host moments printed (some (.error (.trap trap)))) :
    ∃ moment ∈ moments, ∃ cause, Double.whole moment.now = .error cause ∧
      trap = .notFinite cause := by
  cases decided with
  | speedless asked => exact absurd asked (effectiveSpeed_ne_trap settings trap)
  | runs _ _ _ _ _ _ course =>
    cases course with
    | @untimely earlier later moment reached cause split outlasts due endless =>
      exact ⟨moment, by simp [split], cause, endless, rfl⟩

/-- What a launch without a window comes to, for whatever settings a command line makes. -/
theorem launch_decided {arguments : List String}
    (parsed : CommandLine.parse arguments = .ok settings)
    (plain : settings.renderer = .made "null") (moderate : settings.Moderate) (host : Host) :
    (∀ moments printed ended, Decided settings host moments printed ended ↔
        follow (.ofSettings settings) host moments = (printed, ended)) ∧
      follow (.ofSettings settings) host (told (.ofSettings settings) host) =
        ((run (.ofSettings settings) host).printed, (run (.ofSettings settings) host).ended?) ∧
      ∀ moments trap, (follow (.ofSettings settings) host moments).2 = some (.error (.trap trap)) →
        ∃ moment ∈ moments, ∃ cause, Double.whole moment.now = .error cause ∧
          trap = .notFinite cause := by
  have decides := decided_iff (CommandLine.proper_of_parse parsed) moderate plain host
  refine ⟨decides, follow_told _ host, fun moments trap escaped => ?_⟩
  rcases followed : follow (.ofSettings settings) host moments with ⟨printed, ended⟩
  rw [followed] at escaped
  obtain rfl : ended = _ := escaped
  exact ((decides moments _ _).mpr followed).untimely

/-- A word that is no instruction, met in the first single step that is asked for. -/
theorem launch_decided_unknown :
    let settings : Settings := { Settings.standard "game" with
      clockSpeed := .made 181, speed := .made "0.5", renderer := .made "null", step := true }
    let host : Host := ⟨fun _ => .ok [0x50, 0x01], none, .script [[.requestStep]],
      .startingAt 0 0 600, fun _ => 0⟩
    let text := "Emulation halted.\n\nPlainChip8 Emulator V0.3.0 -- Debug info:\n" ++
      "V: 0x00000000000000000000000000000000 I: 0x0000 DT: 0x00 ST: 0x00 PC: 0x200 OP: 0x5001 " ++
      "IN: ???\nStack: (Empty)\nCycles: 0\n\n" ++
      "Opcode 0x5001 at address 0x200 is not a CHIP-8 instruction"
    CommandLine.parse ["game", "--step", "-rnull", "-c181", "--speed", "0.5"] = .ok settings ∧
      settings.renderer = .made "null" ∧ settings.Moderate ∧ settings.effectiveSpeed = .ok 90 ∧
      follow (.ofSettings settings) host [⟨0, [.requestStep]⟩] =
        (#[Program.banner, text], some (.ok (.exited 1))) := by
  intro settings host text
  have parsed : CommandLine.parse ["game", "--step", "-rnull", "-c181", "--speed", "0.5"] =
      .ok settings := rfl
  have moderate : settings.Moderate := by
    rintro count ⟨⟩
    decide
  have asked : settings.effectiveSpeed = .ok 90 := by
    have half : Double.towardZero (181 * speedRatio "0.5") = 90 := by
      rw [speedRatio, if_pos rfl]
      decide +kernel
    exact congrArg Except.ok half
  have loads : Loads settings host 90 [0x50, 0x01] := ⟨asked, by decide, rfl, by decide⟩
  let dialect := Dialect.ofChoices none none none none
  obtain ⟨machine, built, able⟩ :=
    boot_of_loads (CommandLine.proper_of_parse parsed) moderate loads dialect
  obtain ⟨keymap, valid⟩ : ∃ keymap, Keymap.parse Keymap.standardText = .ok keymap := ⟨_, rfl⟩
  let session := Session.create machine keymap (.hidden none) false true
  let fault : Fault := .unknownOpcode 0x5001 0x200
  let failed := machine.fetched.halted fault
  obtain ⟨idle, next, shown⟩ : machine.awaiting = none ∧ machine.next = .error fault ∧
      failed.snapshot =
        ⟨⟨Vector.replicate 16 0⟩, 0, 0x200, [], 0, 0, 0x5001, "???", false, 0⟩ := by
    obtain ⟨pace, -, -, new⟩ := Machine.boot_eq_ok_iff.mp built
    obtain rfl : machine = Machine.booted pace dialect host.bytes [0x50, 0x01] := new
    have next := Machine.next_booted pace dialect host.bytes 0x50 0x01 [] (by decide)
    have word := Machine.word_booted pace dialect host.bytes 0x50 0x01 [] (by decide)
    have readable := (Machine.intact_booted pace dialect host.bytes [0x50, 0x01]).readable
      (show Layout.InProgram Layout.programStart by decide)
    have opcode : (Machine.booted pace dialect host.bytes [0x50, 0x01]).fetched.opcode = 0x5001 :=
      (Machine.next_of_fetch (Machine.fetch_of_readable _ readable)).2.trans word
    refine ⟨rfl, next, ?_⟩
    rw [Machine.snapshot_fetched, opcode]
    rfl
  have course : Course session [⟨0, [.requestStep]⟩]
      #["Emulation halted.\n\nPlainChip8 Emulator V0.3.0 -- Debug info:\n" ++
        Report.crash failed.snapshot ++ "\n\n" ++ fault.message] (some (.ok (.exited 1))) := by
    have refused : Machine.step true machine = .error (.fault fault) failed :=
      Machine.step_of_absent able.running idle next
    let ready := { session.reportCounts 0 with frameDue := 0 + Session.frameInterval }
    have reached : session.turn 0 = (.frame, ready) := Session.turn_create ..
    have meets : ready.Meets [.requestStep] [] machine failed fault :=
      ⟨by decide, ⟨1, rfl, by decide⟩, .none _, refused⟩
    have split : [(⟨0, [.requestStep]⟩ : Moment)] = [] ++ ⟨0, [.requestStep]⟩ :: [] := rfl
    exact .halts split (.none session) reached meets rfl (Machine.depicted_snapshot failed)
      (Machine.shows_fetched next)
  have decides := (launch_decided parsed rfl moderate host).1
  have followed := (decides _ _ _).mp (.runs loads rfl valid rfl built rfl course)
  have spelled : "Emulation halted.\n\nPlainChip8 Emulator V0.3.0 -- Debug info:\n" ++
      Report.crash failed.snapshot ++ "\n\n" ++ fault.message = text := by
    rw [shown]
    decide +kernel
  rw [spelled] at followed
  exact ⟨parsed, rfl, moderate, asked, followed⟩

theorem result_of_error {options : Options} {error : LaunchError}
    (started : start options host = .error error) : (run options host).result = .error error := by
  rw [run, started]

/-- A session whose first reading of the clock has no whole part is over at once. -/
theorem result_of_endless {options : Options} {source : EventSource} {cause : Double.NotFinite}
    (started : start options host = .ok (.ready session source))
    (due : session.titleDue ≤ host.clock.now)
    (endless : Double.whole host.clock.now = .error cause) :
    (run options host).result = .error (.trap (.notFinite cause)) := by
  have took (commands : List Command) :
      session.take ⟨host.clock.now, commands⟩ = (.untimely (.notFinite cause), session) :=
    Session.take_of_untimely due endless
  have now : host.clock.read.1 = host.clock.now := rfl
  rw [run, started]
  dsimp only
  rw [Session.run, Session.turns_succ]
  dsimp only
  rw [now, took]
  rfl

/-- Some settings that a command line can make are neither used nor refused for what they say: an
emptied keymap, clock speed or named speed. And a clock can read a time that ends the launch
without quitting and without a fault. -/
theorem launch_undecided :
    let steady : Host := ⟨fun _ => .ok [0x12, 0x00], none, .script [[.quit]],
      .startingAt 0 0 600, fun _ => 0⟩
    let endless : Host := { steady with clock := .startingAt (1 / 0) 0 600 }
    (∃ settings, CommandLine.parse ["game", "-rnull", "-k--"] = .ok settings ∧
      (run (.ofSettings settings) steady).result = .error (.unfit "keymap" (.list true))) ∧
    (∃ settings, CommandLine.parse ["game", "-rnull", "-c--"] = .ok settings ∧
      (run (.ofSettings settings) steady).result = .error (.unfit "clock_speed" (.list true))) ∧
    (∃ settings, CommandLine.parse ["game", "-rnull", "--speed=--"] = .ok settings ∧
      (run (.ofSettings settings) steady).result = .error (.unfit "speed" (.list true))) ∧
    ∃ settings, CommandLine.parse ["game", "-rnull"] = .ok settings ∧
      (run (.ofSettings settings) endless).result = .error (.trap (.notFinite .infinite)) := by
  intro steady endless
  let plain : Settings := { Settings.standard "game" with renderer := .made "null" }
  let keyless : Settings := { plain with keymap := .emptied }
  have read : CommandLine.parse ["game", "-rnull"] = .ok plain := rfl
  have unread : CommandLine.parse ["game", "-rnull", "-k--"] = .ok keyless := rfl
  obtain ⟨keymap, valid⟩ : ∃ keymap, Keymap.parse Keymap.standardText = .ok keymap := ⟨_, rfl⟩
  have moderate : plain.Moderate := nofun
  have loads : Loads plain endless 360 [0x12, 0x00] := ⟨rfl, by decide, rfl, by decide⟩
  obtain ⟨machine, built, -⟩ := boot_of_loads (CommandLine.proper_of_parse read) moderate loads
    (Dialect.ofChoices none none none none)
  refine ⟨⟨keyless, unread, ?_⟩, ⟨_, rfl, result_of_error rfl⟩, ⟨_, rfl, result_of_error rfl⟩,
    plain, read, ?_⟩
  · have loads : Loads keyless steady 360 [0x12, 0x00] := ⟨rfl, by decide, rfl, by decide⟩
    have proper := CommandLine.proper_of_parse unread
    have started := start_of_loads proper moderate rfl loads rfl rfl built
    rw [keymap_of_emptied rfl] at started
    exact result_of_error started
  · have proper := CommandLine.proper_of_parse read
    have started := start_of_loads proper moderate rfl loads rfl rfl built
    rw [keymap_of_made rfl, valid] at started
    have due : (0 : Float) ≤ 1 / 0 := by decide
    have timeless : Double.whole (1 / 0) = .error .infinite := rfl
    exact result_of_endless started due timeless

end Launch

end Chip8
