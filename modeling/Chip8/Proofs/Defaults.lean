/-
This file proves which options may be left open where they say what is usual.

Every option is read in one place of the launch, and there a default stands in
for nothing. So a table of which any places that say what is usual have been
emptied leads to the same machine and the same session, and from there to the
same run. The keymap is the exception. A command line puts the usual text in its
place, and nothing puts it there later: a launch that comes as far as the keymap
and finds its place empty fails, where it would have run.
-/

import Chip8.Proofs.Launching

namespace Chip8

/-- Whether a place of yes or no gives an answer or leaves it open. -/
def Entry.Allows (answer : Bool) : Entry Bool → Prop
  | .missing => False
  | .unset => True
  | .given value => value = answer
  | .stray value => value.isOn = answer

namespace Options

/-- Whether the place of a setting holds what is usual, or nothing. Without a window there is no
sound, so any place for that will do. -/
def HoldsUsual (options : Options) : Setting → Prop
  | .clockSpeed => options.clockSpeed ∈ [.unset, .given (.whole 360), .given (.real 360)]
  | .keymap => options.keymap ∈ [.unset, .given Keymap.standardText]
  | .scale => options.scale ∈ [.unset, .given 1]
  | .mute => options.mute ≠ .missing
  | .loadDialect => options.loadDialect.Allows false
  | .shiftDialect => options.shiftDialect.Allows true
  | .logicDialect => options.logicDialect.Allows false
  | .jumpDialect => options.jumpDialect.Allows false
  | .debug => options.debug.Allows false
  | .step => options.step.Allows false
  | .speed | .renderer | .help => False

/-- The table with nothing in the places of some settings. -/
def emptied (options : Options) (settings : List Setting) : Options :=
  settings.foldl (fun options setting => options.put setting.word none) options

variable {options : Options} {settings : List Setting}

theorem put_word (options : Options) (setting : Setting) :
    options.put setting.word none = options.place setting fun _ => .unset := by
  cases setting <;> rfl

theorem emptied_cons (options : Options) (setting : Setting) (rest : List Setting) :
    options.emptied (setting :: rest) =
      (options.place setting fun _ => .unset).emptied rest := by
  rw [emptied, List.foldl_cons, put_word]
  rfl

/-- Each place is emptied if it is to be, and left alone otherwise. -/
theorem emptied_eq (options : Options) (settings : List Setting) :
    options.emptied settings =
      { filename := options.filename
        clockSpeed := if .clockSpeed ∈ settings then .unset else options.clockSpeed
        speed := if .speed ∈ settings then .unset else options.speed
        renderer := if .renderer ∈ settings then .unset else options.renderer
        scale := if .scale ∈ settings then .unset else options.scale
        mute := if .mute ∈ settings then .unset else options.mute
        keymap := if .keymap ∈ settings then .unset else options.keymap
        loadDialect := if .loadDialect ∈ settings then .unset else options.loadDialect
        shiftDialect := if .shiftDialect ∈ settings then .unset else options.shiftDialect
        logicDialect := if .logicDialect ∈ settings then .unset else options.logicDialect
        jumpDialect := if .jumpDialect ∈ settings then .unset else options.jumpDialect
        debug := if .debug ∈ settings then .unset else options.debug
        step := if .step ∈ settings then .unset else options.step } := by
  induction settings generalizing options with
  | nil => rfl
  | cons setting rest inductionHypothesis =>
    rw [emptied_cons, inductionHypothesis]
    cases setting <;> simp [place]

end Options

namespace Launch

variable {options : Options} {settings : List Setting}

/-- Two ways of going on come to the same from values that agree in a part, if they use no more of
a value than this part. -/
theorem bind_congr_of_map {α β γ : Type} {value other : Except LaunchError α} {part : α → γ}
    {next last : α → Except LaunchError β} (same : value.map part = other.map part)
    (uses : ∀ first second, part first = part second → next first = last second) :
    value >>= next = other >>= last := by
  cases value with
  | error error =>
    cases other with
    | error other =>
      cases same
      rfl
    | ok other => cases same
  | ok value =>
    cases other with
    | error error => cases same
    | ok other => exact uses value other (Except.ok.inj same)

/-! ### Answers -/

/-- An answer of yes or no, or the usual one. -/
def answer (name : String) (usual : Bool) (entry : Entry Bool) : Except LaunchError Bool :=
  (choice name entry).map fun chosen => chosen.getD usual

theorem answer_of_allows {name : String} {usual : Bool} {entry : Entry Bool}
    (allows : entry.Allows usual) : answer name usual entry = .ok usual := by
  cases entry with
  | missing => exact allows.elim
  | unset => rfl
  | given value | stray value => exact congrArg Except.ok allows

theorem exists_choice_of_present (name : String) {entry : Entry Bool} (present : entry ≠ .missing) :
    ∃ chosen, choice name entry = .ok chosen := by
  cases entry with
  | missing => exact absurd rfl present
  | unset | given | stray => exact ⟨_, rfl⟩

/-- A place that says what is usual may be emptied. -/
theorem answer_emptied {name : String} {usual : Bool} {entry : Entry Bool} {setting : Setting}
    (allows : setting ∈ settings → entry.Allows usual) :
    answer name usual (if setting ∈ settings then .unset else entry) = answer name usual entry := by
  split
  · next member =>
    have blank : Entry.unset.Allows usual := trivial
    rw [answer_of_allows (allows member), answer_of_allows blank]
  · rfl

theorem isOn_eq_answer (name : String) (entry : Entry Bool) :
    isOn name entry = answer name false entry := by
  unfold isOn answer
  cases choice name entry <;> rfl

/-- An option that is off may be left open. -/
theorem isOn_emptied {name : String} {entry : Entry Bool} {setting : Setting}
    (allows : setting ∈ settings → entry.Allows false) :
    isOn name (if setting ∈ settings then .unset else entry) = isOn name entry := by
  rw [isOn_eq_answer, isOn_eq_answer, answer_emptied allows]

theorem exists_isOn_of_present (name : String) {entry : Entry Bool} (present : entry ≠ .missing) :
    ∃ value, isOn name entry = .ok value := by
  obtain ⟨chosen, reads⟩ := exists_choice_of_present name present
  refine ⟨chosen.getD false, ?_⟩
  rw [isOn, reads]
  rfl

theorem dialect_eq (options : Options) :
    dialect options = (do
      let load ← answer "load_quirks" false options.loadDialect
      let shift ← answer "shift_quirks" true options.shiftDialect
      let logic ← answer "logic_quirks" false options.logicDialect
      let jump ← answer "jump_quirks" false options.jumpDialect
      return ⟨load, shift, logic, jump⟩) := by
  unfold dialect answer
  cases choice "load_quirks" options.loadDialect with
  | error error => rfl
  | ok load =>
  cases choice "shift_quirks" options.shiftDialect with
  | error error => rfl
  | ok shift =>
  cases choice "logic_quirks" options.logicDialect with
  | error error => rfl
  | ok logic => cases choice "jump_quirks" options.jumpDialect <;> rfl

/-! ### The machine -/

/-- The machine that a launch without a window builds, or the fault for which it cannot take the
program. -/
def machineFor (options : Options) (host : Host) : Except LaunchError (Except Fault Machine) := do
  let dialect ← dialect options
  let speed ← clockSpeed options
  let _ ← choice "mute" options.mute
  let rom ← program options host
  match Machine.boot (some rom) (some speed) dialect host.bytes with
  | .error (.fault fault) => return .error fault
  | .error cause => throw (.trap cause)
  | .ok machine => return .ok machine

/-- A launch without a window builds its machine, and then the session around it. -/
theorem start_eq (plain : options.renderer = .given "null") (host : Host) :
    start options host = (machineFor options host).bind fun
      | .error fault => .ok (.unable fault)
      | .ok machine => (session options machine false).map fun session =>
          .ready session host.plainSource := by
  have hidden : wantsWindow options = .ok false := by
    unfold wantsWindow
    rw [plain]
    rfl
  unfold start machineFor source
  rw [hidden]
  cases dialect options with
  | error error => rfl
  | ok dialect =>
  cases clockSpeed options with
  | error error => rfl
  | ok speed =>
  cases choice "mute" options.mute with
  | error error => rfl
  | ok muted =>
  cases program options host with
  | error error => rfl
  | ok rom =>
    cases built : Machine.boot (some rom) (some speed) dialect host.bytes with
    | error cause =>
      cases cause <;> simp only [bind, Except.bind, pure, Except.pure, built] <;> rfl
    | ok machine =>
      simp only [bind, Except.bind, pure, Except.pure, built, Bool.false_eq_true, if_false]
      cases session options machine false <;> rfl

/-- What a machine is built from is a pace, however its speed was given. -/
theorem boot_congr {speed other : ClockSpeed} (same : Pace.ofSpeed speed = Pace.ofSpeed other)
    (rom : Option (List UInt8)) (dialect : Dialect) (bytes : Nat → UInt8) :
    Machine.boot rom (some speed) dialect bytes = Machine.boot rom (some other) dialect bytes := by
  simp only [Machine.boot, Machine.create, Option.getD_some, same]

/-! ### The clock speed -/

/-- The clock speed that comes of a number and of the factor of a named speed. -/
def multiplied (speed : ClockSpeed) (factor : Option Float) : Except LaunchError ClockSpeed := do
  let speed ← match factor with
    | none => pure speed
    | some factor => scaled speed factor
  if speed.isPositive then return speed else throw .clockTooSlow

/-- A clock speed that is given, or the standard one where none is, is multiplied. -/
theorem clockSpeed_of_stated {speed : ClockSpeed} (stated : options.clockSpeed = .given speed ∨
    options.clockSpeed = .unset ∧ speed = .standard) :
    clockSpeed options = (speedFactor options).bind (multiplied speed) := by
  unfold clockSpeed
  rcases stated with stated | ⟨stated, rfl⟩
  all_goals
    rw [stated]
    refine congrArg (Except.bind (speedFactor options)) (funext fun factor => ?_)
    cases factor <;> rfl

theorem clockSpeed_congr {other : Options} (speed : options.clockSpeed = other.clockSpeed)
    (factor : speedFactor options = speedFactor other) : clockSpeed options = clockSpeed other := by
  unfold clockSpeed
  rw [speed, factor]

/-- The standard clock speed may be written with a fraction. -/
theorem pace_standard (factor : Option Float) :
    (multiplied (.real 360) factor).map Pace.ofSpeed =
      (multiplied .standard factor).map Pace.ofSpeed := by
  cases factor with
  | none => rfl
  | some factor =>
    have same : scaled (.real 360) factor = scaled .standard factor := rfl
    rw [multiplied, same]
    rfl

/-! ### The keymap -/

theorem keymap_of_unset (unset : options.keymap = .unset) :
    keymap options = .error .keymapUnset := by
  rw [keymap, unset]
  rfl

theorem exists_keymap_of_standard (standard : options.keymap = .given Keymap.standardText) :
    ∃ read, keymap options = .ok read := by
  rw [keymap, standard]
  exact ⟨_, rfl⟩

/-- What becomes of the start of a launch without a keymap: it comes as far as the machine. -/
def Start.keyless : Start → Except LaunchError Start
  | .unable fault => .ok (.unable fault)
  | .ready _ _ => .error .keymapUnset

/-! ### Emptied places -/

section

variable (usual : ∀ setting ∈ settings, options.HoldsUsual setting)
include usual

theorem dialect_emptied : dialect (options.emptied settings) = dialect options := by
  rw [dialect_eq, dialect_eq, Options.emptied_eq]
  dsimp only
  rw [answer_emptied (usual .loadDialect), answer_emptied (usual .shiftDialect),
    answer_emptied (usual .logicDialect), answer_emptied (usual .jumpDialect)]

theorem speedFactor_emptied : speedFactor (options.emptied settings) = speedFactor options := by
  have named : .speed ∉ settings := usual .speed
  rw [Options.emptied_eq, speedFactor, speedFactor, if_neg named]

/-- The clock speed comes to the same pace. -/
theorem pace_emptied :
    (clockSpeed (options.emptied settings)).map Pace.ofSpeed =
      (clockSpeed options).map Pace.ofSpeed := by
  have factor := speedFactor_emptied usual
  have place : (options.emptied settings).clockSpeed =
      if .clockSpeed ∈ settings then .unset else options.clockSpeed := by
    rw [Options.emptied_eq]
  by_cases opened : .clockSpeed ∈ settings
  · rw [if_pos opened] at place
    rw [clockSpeed_of_stated (.inr ⟨place, rfl⟩), factor]
    have held : options.clockSpeed ∈ [.unset, .given (.whole 360), .given (.real 360)] :=
      usual .clockSpeed opened
    simp only [List.mem_cons, List.not_mem_nil, or_false] at held
    rcases held with unset | whole | real
    · rw [clockSpeed_of_stated (.inr ⟨unset, rfl⟩)]
    · rw [clockSpeed_of_stated (.inl whole)]
      rfl
    · rw [clockSpeed_of_stated (.inl real)]
      cases speedFactor options with
      | error error => rfl
      | ok factor => exact (pace_standard factor).symm
  · rw [if_neg opened] at place
    rw [clockSpeed_congr place factor]

/-- Whether the sound is muted is read, and of no consequence. -/
theorem mute_emptied :
    (choice "mute" (options.emptied settings).mute).map (fun _ => ()) =
      (choice "mute" options.mute).map fun _ => () := by
  rw [Options.emptied_eq]
  dsimp only
  split
  · next opened =>
    obtain ⟨chosen, reads⟩ := exists_choice_of_present "mute" (usual .mute opened)
    rw [reads]
    rfl
  · rfl

theorem machineFor_emptied (host : Host) :
    machineFor (options.emptied settings) host = machineFor options host := by
  have file : program (options.emptied settings) host = program options host := by
    rw [Options.emptied_eq, program, program]
  unfold machineFor
  rw [dialect_emptied usual, file]
  refine congrArg (dialect options >>= ·) (funext fun dialect => ?_)
  refine bind_congr_of_map (pace_emptied usual) fun speed other same => ?_
  refine bind_congr_of_map (mute_emptied usual) fun _ _ _ => ?_
  simp only [boot_congr same]

theorem screen_emptied : screen (options.emptied settings) false = screen options false := by
  rw [Options.emptied_eq]
  by_cases opened : .scale ∈ settings
  · have held : options.scale ∈ [.unset, .given 1] := usual .scale opened
    simp only [List.mem_cons, List.not_mem_nil, or_false] at held
    simp only [screen, if_pos opened]
    rcases held with unset | one
    · rw [unset]
    · rw [one]
      rfl
  · simp only [screen, if_neg opened]

/-- As long as the keymap keeps its place, the session is the same. -/
theorem session_emptied (kept : .keymap ∉ settings) (machine : Machine) :
    session (options.emptied settings) machine false = session options machine false := by
  unfold session
  rw [screen_emptied usual, Options.emptied_eq]
  simp only [keymap, if_neg kept, isOn_emptied (usual .debug), isOn_emptied (usual .step)]

/-- Without a keymap there is no session where there would have been one. -/
theorem session_keyless (opened : .keymap ∈ settings) (debug : options.debug ≠ .missing)
    (step : options.step ≠ .missing) (machine : Machine) :
    session (options.emptied settings) machine false =
      (session options machine false).bind fun _ => .error .keymapUnset := by
  have absent : keymap (options.emptied settings) = .error .keymapUnset := by
    refine keymap_of_unset ?_
    rw [Options.emptied_eq]
    exact if_pos opened
  unfold session
  rw [screen_emptied usual, absent]
  cases screen options false with
  | error error => rfl
  | ok screen =>
    have held : options.keymap ∈ [.unset, .given Keymap.standardText] := usual .keymap opened
    simp only [List.mem_cons, List.not_mem_nil, or_false] at held
    rcases held with unset | standard
    · rw [keymap_of_unset unset]
      rfl
    · obtain ⟨keymap, read⟩ := exists_keymap_of_standard standard
      obtain ⟨debugging, debugs⟩ := exists_isOn_of_present "debug" debug
      obtain ⟨stepping, steps⟩ := exists_isOn_of_present "step" step
      rw [read, debugs, steps]
      rfl

variable (plain : options.renderer = .given "null")
include plain

theorem renderer_emptied : (options.emptied settings).renderer = .given "null" := by
  have named : .renderer ∉ settings := usual .renderer
  rw [Options.emptied_eq]
  exact (if_neg named).trans plain

theorem start_emptied (kept : .keymap ∉ settings) (host : Host) :
    start (options.emptied settings) host = start options host := by
  rw [start_eq (renderer_emptied usual plain), start_eq plain, machineFor_emptied usual]
  simp only [session_emptied usual kept]

theorem start_keyless (opened : .keymap ∈ settings) (debug : options.debug ≠ .missing)
    (step : options.step ≠ .missing) (host : Host) :
    start (options.emptied settings) host = (start options host).bind Start.keyless := by
  rw [start_eq (renderer_emptied usual plain), start_eq plain, machineFor_emptied usual]
  simp only [session_keyless usual opened debug step]
  cases machineFor options host with
  | error error => rfl
  | ok built =>
    cases built with
    | error fault => rfl
    | ok machine =>
      simp only [Except.bind]
      cases session options machine false <;> rfl

end

/-- Nothing stands for the default of every option but the keymap. Places that say what is usual
may be emptied in any choice, and the launch starts the same session and runs the same; but once
the place of the keymap is among them, a launch that would have run its session fails. -/
theorem defaults_stand_in (plain : options.renderer = .given "null")
    (debug : options.debug ≠ .missing) (step : options.step ≠ .missing)
    (usual : ∀ setting ∈ settings, options.HoldsUsual setting) (host : Host) :
    (.keymap ∉ settings →
      start (options.emptied settings) host = start options host ∧
        run (options.emptied settings) host = run options host) ∧
    (.keymap ∈ settings →
      start (options.emptied settings) host = (start options host).bind Start.keyless ∧
        run (options.emptied settings) host =
          match start options host with
          | .ok (.ready _ _) => ⟨#[Program.banner], 0, .error .keymapUnset⟩
          | _ => run options host) := by
  refine ⟨fun kept => ?_, fun opened => ?_⟩
  · have started := start_emptied usual plain kept host
    refine ⟨started, ?_⟩
    rw [run, started, run]
  · have started := start_keyless usual plain opened debug step host
    refine ⟨started, ?_⟩
    rw [run, started, run]
    cases start options host with
    | error error => rfl
    | ok begun => cases begun <;> rfl

/-- All at once, some of them written in unusual ways, with and without the keymap. -/
theorem defaults_stand_in_everywhere :
    let table : Options := {
      filename := .given "game", clockSpeed := .given (.real 360), speed := .given "0.5",
      renderer := .given "null", scale := .given 1, mute := .given true,
      keymap := .given Keymap.standardText, loadDialect := .given false,
      shiftDialect := .stray (.whole 3), logicDialect := .stray (.text ""),
      jumpDialect := .given false, debug := .given false, step := .stray (.list true) }
    let settings : List Setting := [.step, .clockSpeed, .mute, .scale, .debug, .loadDialect,
      .shiftDialect, .logicDialect, .jumpDialect]
    let host : Host := ⟨fun _ => .ok [0x12, 0x00], none, .script [[.quit]],
      .startingAt 0 0 600, fun _ => 0⟩
    table.renderer = .given "null" ∧ table.debug ≠ .missing ∧ table.step ≠ .missing ∧
      (∀ setting ∈ .keymap :: settings, table.HoldsUsual setting) ∧
      run (table.emptied settings) host = run table host ∧
      start (table.emptied (.keymap :: settings)) host = (start table host).bind Start.keyless := by
  intro table settings host
  have all : ∀ setting ∈ .keymap :: settings, table.HoldsUsual setting := by
    simp [settings, table, Options.HoldsUsual, Entry.Allows, Datum.isOn]
  have most : ∀ setting ∈ settings, table.HoldsUsual setting := fun setting member =>
    all setting (List.mem_cons_of_mem _ member)
  have debug : table.debug ≠ .missing := show Entry.given false ≠ .missing from nofun
  have step : table.step ≠ .missing := show Entry.stray (.list true) ≠ .missing from nofun
  refine ⟨rfl, debug, step, all, ?_, ?_⟩
  · exact ((defaults_stand_in rfl debug step most host).1 (by decide)).2
  · exact ((defaults_stand_in rfl debug step all host).2 (List.mem_cons_self ..)).1

/-- A session that is asked to quit in its first frame is over without a fault. -/
theorem result_of_quit {host : Host} {session ready : Session} {source : EventSource}
    (started : start options host = .ok (.ready session source))
    (due : session.turn host.clock.now = (.frame, ready))
    (asks : Command.quit ∈ (source.poll session.controls.keymap).1) :
    (run options host).result = .ok (.exited 0) := by
  have took : session.take ⟨host.clock.now, (source.poll session.controls.keymap).1⟩ =
      (.framed .quit, ready.obey (source.poll session.controls.keymap).1) :=
    Session.take_of_quit due asks
  have now : host.clock.read.1 = host.clock.now := rfl
  rw [run, started]
  dsimp only
  rw [Session.run, Session.turns_succ]
  dsimp only
  rw [now, took]
  rfl

/-- Nothing does not stand for the usual keymap: the launch that runs with it fails without. -/
theorem keymap_not_optional :
    let table := Options.ofSettings { Settings.standard "game" with renderer := .made "null" }
    let host : Host := ⟨fun _ => .ok [0x12, 0x00], none, .script [[.quit]],
      .startingAt 0 0 600, fun _ => 0⟩
    table.HoldsUsual .keymap ∧
      (run table host).result = .ok (.exited 0) ∧
      (run (table.emptied [.keymap]) host).result = .error .keymapUnset := by
  intro table host
  let settings : Settings := { Settings.standard "game" with renderer := .made "null" }
  have proper : settings.Proper :=
    { Settings.proper_standard "game" with }
  have held : table.HoldsUsual .keymap := List.mem_cons_of_mem _ (List.mem_singleton.mpr rfl)
  have usual : ∀ setting ∈ [Setting.keymap], table.HoldsUsual setting := by
    intro setting member
    rw [List.mem_singleton.mp member]
    exact held
  have moderate : settings.Moderate := nofun
  have loads : Loads settings host 360 [0x12, 0x00] := ⟨rfl, by decide, rfl, by decide⟩
  obtain ⟨machine, built, -⟩ := boot_of_loads proper moderate loads
    (Dialect.ofChoices none none none none)
  obtain ⟨keymap, valid⟩ : ∃ keymap, Keymap.parse Keymap.standardText = .ok keymap := ⟨_, rfl⟩
  have started := start_of_loads proper moderate rfl loads rfl rfl built
  rw [keymap_of_made rfl, valid] at started
  refine ⟨held, ?_, ?_⟩
  · have reached := Session.turn_create machine keymap (.hidden none) false false
    exact result_of_quit started reached (List.mem_singleton.mpr rfl)
  · have present : Entry.given false ≠ .missing := nofun
    have keyless := start_keyless usual rfl (List.mem_singleton.mpr rfl) present present host
    rw [started] at keyless
    exact result_of_error keyless

end Launch

end Chip8
