/-
This file is the program as it is called: it reads the command line and the
file, keeps time by the host's clock, and prints. What a frame does and when it
is due is the session's to say; here its turns are taken one after the other in
real time.

There is no window system behind this program, so only launches without a
window get as far as a session.
-/

import Chip8.Launch.CommandLine
import Chip8.Launch.Start

namespace Chip8.Main

def usage : String :=
  "usage: chip8 [-h] [-c CLOCK_SPEED] [--speed 0.5|1|2] [-r pygame|null] [-s SCALE] [-m 0|1]\n" ++
  "             [-k KEYMAP] [--load_quirks 0|1] [--shift_quirks 0|1] [--logic_quirks 0|1]\n" ++
  "             [--jump_quirks 0|1] [-d] [--step] filename"

/-- The bytes of a file. -/
def contents (name : String) : IO (Except FileError (List UInt8)) := do
  try
    return .ok (← IO.FS.readBinFile name).toList
  catch
    | .inappropriateType .. => return .error .isDirectory
    | _ => return .error .notFound

/-- Seconds on a clock that never goes back. -/
def seconds : IO Float := do
  return Double.ofNat (← IO.monoNanosNow) / 1000000000

/-- Bytes that depend on a seed in no simple way. -/
def scatter (seed position : Nat) : UInt8 :=
  let mixed := (UInt64.ofNat (seed + position) + 1) * 0x9E3779B97F4A7C15
  let folded := (mixed ^^^ (mixed >>> 29)) * 0xBF58476D1CE4E5B9
  (folded >>> 56).toUInt8

def printAll (lines : Array String) : IO Unit :=
  lines.forM IO.println

/-- Takes turns until the session ends. -/
partial def play (session : Session) (source : EventSource) : IO (Ending × Session) := do
  let (turn, session) := session.turn (← seconds)
  match turn with
  | .sleep time =>
      IO.sleep (time * 1000).ceil.toUInt32
      play session source.afterSleep
  | .trapped trap => return (.trapped trap, session)
  | .frame =>
      let (commands, source) := source.poll session.controls.keymap
      let (ending, session) := session.frame commands
      printAll session.printed
      let session := { session with printed := #[] }
      match ending with
      | .shown => play session source
      | .quit => return (.quit, session)
      | .trapped trap => return (.trapped trap, session)

/-- Launches the program in real time, and answers with its exit code. -/
def launch (settings : Settings) : IO UInt32 := do
  IO.println Program.banner
  let file ← contents settings.filename
  let seed ← IO.monoNanosNow
  let host : Host := {
    fileAt := fun name => if name == settings.filename then file else .error .notFound
    windowSource := none
    plainSource := .silent
    clock := Clock.startingAt 0 0 0
    bytes := scatter seed }
  match Launch.start (Options.ofSettings settings) host with
  | .error error =>
      IO.eprintln error.message
      return 1
  | .ok (.unable fault) =>
      IO.println (Launch.unableText fault)
      return 1
  | .ok (.ready session source) =>
      let (ending, session) ← play session source
      let (last, result) := Launch.conclude session ending
      printAll last
      match result with
      | .ok (.exited code) => return code.toUInt32
      | .ok .stopped => return 0
      | .error error =>
          IO.eprintln error.message
          return 1

end Chip8.Main

/-- Runs the program with the arguments of its command line. -/
def main (arguments : List String) : IO UInt32 := do
  match Chip8.CommandLine.parse arguments with
  | .ok settings => Chip8.Main.launch settings
  | .error exit =>
      match exit with
      | .help => IO.println Chip8.Main.usage
      | .badUsage => IO.eprintln Chip8.Main.usage
      return exit.code.toUInt32
