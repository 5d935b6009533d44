/-
This file launches the program: from a table of options and what the host has to
offer, through a session, to an exit code and the lines printed on the way.

The options are looked at in a fixed order, and the first thing that is wrong
decides the outcome: the dialect, the clock speed, the window system, the file,
its size, the window, the keymap. The file is read before a window opens, so a
bad name fails quickly. A program that is too large, and a fault while it runs,
are no errors of the launch: they are told in print, and the exit code is one.
-/

import Chip8.Host.FileTree
import Chip8.Host.Session
import Chip8.Launch.Options
import Chip8.Machine.Reset

namespace Chip8

/-- Why a launch failed. -/
inductive LaunchError where
  /-- The table has no such option. -/
  | missingOption (name : String)
  /-- The option holds what it cannot be used with. -/
  | unfit (option : String) (what : Datum)
  | unknownSpeed (name : String)
  /-- What is no number was to be multiplied by a named speed. -/
  | unscalable (what : Datum)
  | clockTooSlow
  | noWindowSystem
  /-- The table names no file. -/
  | fileUnset
  | fileNumberNegative
  | file (name : String) (cause : FileError)
  | window (cause : WindowError)
  /-- The table holds no keymap. -/
  | keymapUnset
  | keymap (cause : KeymapError)
  /-- The machine was refused something that is no fault of its program. -/
  | trap (cause : Trap)
  deriving DecidableEq, Repr

/-- The sentence a failed launch is reported with. -/
def LaunchError.message : LaunchError → String
  | .missingOption name => "The option " ++ name ++ " is missing"
  | .unfit option what => "The option " ++ option ++ " cannot be " ++ what.kind
  | .unknownSpeed name => "There is no speed " ++ name
  | .unscalable what => "The clock speed cannot be " ++ what.kind
  | .clockTooSlow => "The clock speed must be at least 1 operation per second."
  | .noWindowSystem =>
      "PyGame does not appear to be installed.  Use '-r null' to run without a display."
  | .fileUnset => "No file is named"
  | .fileNumberNegative => "No file is open under a negative number"
  | .file name cause => "The file " ++ name ++ " " ++ cause.message
  | .window cause => cause.message
  | .keymapUnset => "There is no keymap"
  | .keymap cause => cause.message
  | .trap cause => cause.message

/-- What the host offers a launch. -/
structure Host where
  /-- The contents of the file of a name. -/
  fileAt : String → Except FileError (List UInt8)
  /-- The window's events, if windows can be opened. -/
  windowSource : Option EventSource
  /-- Where commands come from without a window. -/
  plainSource : EventSource
  clock : Clock
  /-- Random bytes for the machine. -/
  bytes : Nat → UInt8

/-- How a launch that did not fail ended. -/
inductive Finish where
  | exited (code : Nat)
  /-- The clock allowed no more sleep. -/
  | stopped
  deriving DecidableEq, Repr

/-- What a launch came to. -/
structure Outcome where
  /-- The lines printed. -/
  printed : Array String
  /-- How often the session slept. -/
  slept : Nat
  result : Except LaunchError Finish

namespace Launch

/-! ### Reading the table -/

/-- What an option holds, unless it is missing from the table. -/
def option {α : Type} (name : String) (entry : Entry α) :
    Except LaunchError (Option (Except Datum α)) :=
  match entry.read? with
  | some content => .ok content
  | none => .error (.missingOption name)

/-- What an option holds, which must be of its kind. -/
def fitting {α : Type} (name : String) (entry : Entry α) : Except LaunchError (Option α) := do
  match ← option name entry with
  | none => return none
  | some (.ok value) => return some value
  | some (.error what) => throw (.unfit name what)

/-- An option of yes or no. -/
def choice (name : String) (entry : Entry Bool) : Except LaunchError (Option Bool) := do
  match ← option name entry with
  | none => return none
  | some (.ok value) => return some value
  | some (.error what) => return some what.isOn

/-- An option that is either on or not. -/
def isOn (name : String) (entry : Entry Bool) : Except LaunchError Bool := do
  return (← choice name entry).getD false

def dialect (options : Options) : Except LaunchError Dialect := do
  let load ← choice "load_quirks" options.loadDialect
  let shift ← choice "shift_quirks" options.shiftDialect
  let logic ← choice "logic_quirks" options.logicDialect
  let jump ← choice "jump_quirks" options.jumpDialect
  return Dialect.ofChoices load shift logic jump

/-! ### The clock speed -/

/-- What a named speed multiplies the clock speed by. -/
def speedFactor? : String → Option Float
  | "0.5" => some 0.5
  | "1" => some 1
  | "2" => some 2
  | _ => none

/-- What the clock speed is multiplied by, if a speed is named. What can be looked up and is
no name is the name of no speed. -/
def speedFactor (options : Options) : Except LaunchError (Option Float) := do
  match ← option "speed" options.speed with
  | none => return none
  | some (.ok name) =>
      match speedFactor? name with
      | some factor => return some factor
      | none => throw (.unknownSpeed name)
  | some (.error what) =>
      match what.name? with
      | some name => throw (.unknownSpeed name)
      | none => throw (.unfit "speed" what)

/-- A clock speed multiplied in doubles and cut off to a whole number. -/
def scaled (speed : ClockSpeed) (factor : Float) : Except LaunchError ClockSpeed :=
  match speed.toDouble? with
  | none => .error (.trap .clockTooLarge)
  | some value =>
      match Double.whole (value * factor) with
      | .ok count => .ok (.whole count)
      | .error cause => .error (.trap (.notFinite cause))

/-- The clock speed the machine runs at: the one given or the standard one, multiplied and cut
off to a whole number if a speed is named. It must be above zero. -/
def clockSpeed (options : Options) : Except LaunchError ClockSpeed := do
  let base := (← option "clock_speed" options.clockSpeed).getD (.ok .standard)
  let speed ← match base, ← speedFactor options with
    | .ok speed, none => pure speed
    | .ok speed, some factor => scaled speed factor
    | .error what, none => throw (.unfit "clock_speed" what)
    | .error what, some _ => throw (.unscalable what)
  if speed.isPositive then return speed else throw .clockTooSlow

/-! ### Where pictures and commands come and go -/

/-- Whether a window is asked for. It is unless something else is named. -/
def wantsWindow (options : Options) : Except LaunchError Bool := do
  match ← option "renderer" options.renderer with
  | none => return true
  | some (.ok name) => return name == "" || name == "pygame"
  | some (.error what) => return !what.isOn

/-- Whether there is a window, and where commands come from. -/
def source (options : Options) (host : Host) : Except LaunchError (Bool × EventSource) := do
  let windowed ← wantsWindow options
  let _ ← choice "mute" options.mute
  if windowed then
    match host.windowSource with
    | some source => return (true, source)
    | none => throw .noWindowSystem
  else return (false, host.plainSource)

/-- The screen of a launch. Without a window its scale is of no consequence. -/
def screen (options : Options) (windowed : Bool) : Except LaunchError Screen := do
  if windowed then
    (Screen.windowed (← fitting "scale" options.scale)).mapError LaunchError.window
  else
    match ← option "scale" options.scale with
    | some (.ok scale) => return Screen.hidden (some scale)
    | _ => return Screen.hidden none

def keymap (options : Options) : Except LaunchError Keymap := do
  match ← fitting "keymap" options.keymap with
  | none => throw .keymapUnset
  | some text => (Keymap.parse text).mapError LaunchError.keymap

/-! ### The program -/

/-- The contents of the file. It may also be named by the number it is open under, but the host
keeps no file open. -/
def program (options : Options) (host : Host) : Except LaunchError (List UInt8) := do
  match ← option "filename" options.filename with
  | none => throw .fileUnset
  | some (.ok name) => (host.fileAt name).mapError (LaunchError.file name)
  | some (.error value) =>
      match value.fileNumber? with
      | none => throw (.unfit "filename" value)
      | some number =>
          if number < 0 then throw .fileNumberNegative
          else throw (.file (toString number) .notOpen)

/-! ### Starting the session -/

/-- What a launch has come to before the session runs. -/
inductive Start where
  /-- The machine could not take the program. -/
  | unable (fault : Fault)
  | ready (session : Session) (source : EventSource)

/-- A session for a machine, with its screen and keymap as the table says. -/
def session (options : Options) (machine : Machine) (windowed : Bool) :
    Except LaunchError Session := do
  let screen ← screen options windowed
  let keymap ← keymap options
  let debugging ← isOn "debug" options.debug
  let stepping ← isOn "step" options.step
  return Session.create machine keymap screen debugging stepping

/-- Everything up to the first frame. -/
def start (options : Options) (host : Host) : Except LaunchError Start := do
  let dialect ← dialect options
  let speed ← clockSpeed options
  let (windowed, source) ← source options host
  let rom ← program options host
  match Machine.boot (some rom) (some speed) dialect host.bytes with
  | .error (.fault fault) => return .unable fault
  | .error cause => throw (.trap cause)
  | .ok machine => return .ready (← session options machine windowed) source

/-! ### The whole launch -/

/-- What is printed when the machine cannot take the program. -/
def unableText (fault : Fault) : String :=
  "Unable to start: " ++ fault.message

/-- What is printed when a fault halts the machine. -/
def haltedText (machine : Machine) (cause : Trap) : String :=
  "Emulation halted.\n\n" ++ Program.heading ++ "Debug info:\n" ++
    Report.crash machine.snapshot ++ "\n\n" ++ cause.message

/-- What the end of a session means for the launch, and what is printed at it. -/
def conclude (session : Session) : Ending → Array String × Except LaunchError Finish
  | .quit => (#[], .ok (.exited 0))
  | .stopped => (#[], .ok .stopped)
  | .trapped (.fault fault) => (#[haltedText session.machine (.fault fault)], .ok (.exited 1))
  | .trapped (.halted fault) => (#[haltedText session.machine (.halted fault)], .ok (.exited 1))
  | .trapped cause => (#[], .error (.trap cause))

/-- Launches the program. -/
def run (options : Options) (host : Host) : Outcome :=
  match start options host with
  | .error error => ⟨#[Program.banner], 0, .error error⟩
  | .ok (.unable fault) =>
      ⟨#[Program.banner, unableText fault], 0, .ok (.exited 1)⟩
  | .ok (.ready session source) =>
      let (ending, session, clock) := session.run source host.clock
      let (last, result) := conclude session ending
      ⟨#[Program.banner] ++ session.printed ++ last, clock.slept, result⟩

end Launch

end Chip8
