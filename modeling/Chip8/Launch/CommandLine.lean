/-
This file reads a command line: one file to run, and settings in any order
around it.

A long word may be shortened as far as it stays the only one beginning so, and
takes its value after an equals sign or from the next argument. Letters may be
run together after one dash; the first that takes a value takes the rest of the
argument, if there is a rest, or the next argument. An equals sign behind the
first letter only parts it from the rest; further on it is a character like any
other. Of settings made twice the last one counts. Two dashes alone end the
settings; attached to a setting they are its value. Arguments that look like a
negative number or hold a space are values, never settings, unless they begin
with a letter that is one.

Whatever else is wrong is found in order from the left, except that words which
could mean two settings are found first, and arguments left over and a missing
file last. Help, once it is reached, ends the reading.
-/

import Chip8.Launch.Settings

namespace Chip8.CommandLine

/-- Why reading a command line ended without settings. -/
inductive Exit where
  /-- Help was asked for. -/
  | help
  | badUsage
  deriving DecidableEq, Repr

/-- The code the program exits with. -/
def Exit.code : Exit → Nat
  | .help => 0
  | .badUsage => 2

/-- The settings one argument makes. -/
structure Group where
  /-- Settings without values, in order. -/
  marks : List Setting
  /-- A setting that takes a value, and the value if the argument holds it. -/
  valued : Option (Setting × Option String)
  deriving DecidableEq, Repr

/-- What an argument is. -/
inductive Word where
  | value (text : String)
  | settings (group : Group)
  /-- Settings that do not fit together with the text run together with them. -/
  | malformed
  /-- It could mean several settings. -/
  | ambiguous
  /-- It looks like a setting and is none. -/
  | unknown
  /-- The end of the settings. -/
  | terminator
  deriving DecidableEq, Repr

/-! ### One argument -/

/-- Whether a text is a negative number in decimal digits, with at most one point, which has
digits behind it. -/
def isNegativeNumber (text : List Char) : Bool :=
  let isDigit := fun c => (Text.digitValue? c).isSome
  let text := if text.getLast? = some '\n' then text.dropLast else text
  match text with
  | '-' :: body =>
      match body.dropWhile isDigit with
      | [] => !body.isEmpty
      | '.' :: rest => !rest.isEmpty && rest.all isDigit
      | _ => false
  | _ => false

/-- The settings of a letter and what is run together with it: a value, or more letters. -/
def ofLetters (setting : Setting) (rest : List Char) : Option Group :=
  if setting.takesValue then
    some ⟨[], some (setting, if rest.isEmpty then none else some (String.ofList rest))⟩
  else
    match rest with
    | [] => some ⟨[setting], none⟩
    | letter :: more => do
        let group ← ofLetters (← Setting.ofLetter? letter) more
        return { group with marks := setting :: group.marks }

/-- The settings of a letter and what an equals sign attaches to it. The text may be empty only
if it is a value. -/
def ofLetterEquals (setting : Setting) (text : List Char) : Option Group :=
  if setting.takesValue then some ⟨[], some (setting, some (String.ofList text))⟩
  else if text.isEmpty then none
  else ofLetters setting text

/-- The setting of a long word and the text attached to it. -/
def ofLongWord (setting : Setting) (attached : Option (List Char)) : Word :=
  match setting.takesValue, attached with
  | true, text => .settings ⟨[], some (setting, text.map String.ofList)⟩
  | false, none => .settings ⟨[setting], none⟩
  | false, some _ => .malformed

/-- What an argument is that begins like a setting and names none. -/
def ofStranger (text : List Char) : Word :=
  if isNegativeNumber text || text.contains ' ' then .value (String.ofList text) else .unknown

/-- What an argument is. -/
def classify (argument : String) : Word :=
  match argument.toList with
  | ['-', '-'] => .terminator
  | '-' :: '-' :: text =>
      let name := text.takeWhile fun c => c ≠ '='
      let attached := match text.dropWhile fun c => c ≠ '=' with
        | [] => none
        | _ :: value => some value
      match Setting.meanings name with
      | [] => ofStranger argument.toList
      | [setting] => ofLongWord setting attached
      | _ => .ambiguous
  | '-' :: letter :: rest =>
      match Setting.ofLetter? letter with
      | none => ofStranger argument.toList
      | some setting =>
          let group := match rest with
            | '=' :: text => ofLetterEquals setting text
            | rest => ofLetters setting rest
          (group.map Word.settings).getD .malformed
  | _ => .value argument

/-- What the arguments are; those after the end of the settings are all values. -/
def classifyAll : List String → List Word
  | [] => []
  | argument :: rest =>
      match classify argument with
      | .terminator => .terminator :: rest.map .value
      | word => word :: classifyAll rest

/-! ### All arguments -/

/-- How far the reading has come. -/
structure Progress where
  /-- The settings so far; their file is not known yet. -/
  settings : Settings
  filename : Option String
  /-- Arguments were left over. -/
  leftover : Bool
  deriving DecidableEq, Repr

/-- Makes the settings without values of one argument. -/
def applyMarks (progress : Progress) (marks : List Setting) : Except Exit Progress :=
  if .help ∈ marks then .error .help
  else .ok { progress with settings := marks.foldl Settings.mark progress.settings }

/-- Gives a setting its value. -/
def applyValue (progress : Progress) (setting : Setting) (text : String) : Except Exit Progress :=
  match progress.settings.give setting text with
  | some settings => .ok { progress with settings := settings }
  | none => .error .badUsage

/-- Takes a value that no setting claims: the first one names the file. -/
def takeValue (progress : Progress) (text : String) : Progress :=
  match progress.filename with
  | none => { progress with filename := some text }
  | some _ => { progress with leftover := true }

/-- Reads words in order. `named` tells whether the word just before gave the file; then two
dashes belong to it, otherwise they are left over behind a file named earlier. -/
def readWords (progress : Progress) (named : Bool) : List Word → Except Exit Progress
  | [] => .ok progress
  | .value text :: rest =>
      readWords (takeValue progress text) progress.filename.isNone rest
  | .terminator :: rest =>
      let apart := progress.filename.isSome && !named
      readWords { progress with leftover := progress.leftover || apart } false rest
  | .unknown :: rest => readWords { progress with leftover := true } false rest
  | .malformed :: _ => .error .badUsage
  | .ambiguous :: _ => .error .badUsage
  | .settings ⟨marks, none⟩ :: rest => do
      readWords (← applyMarks progress marks) false rest
  | .settings ⟨marks, some (setting, some text)⟩ :: rest => do
      let progress ← applyMarks progress marks
      readWords (← applyValue progress setting text) false rest
  | .settings ⟨marks, some (setting, none)⟩ :: .value text :: rest => do
      let progress ← applyMarks progress marks
      readWords (← applyValue progress setting text) false rest
  | .settings ⟨_, some (_, none)⟩ :: _ => .error .badUsage

/-- Reads a command line. -/
def parse (arguments : List String) : Except Exit Settings :=
  let words := classifyAll arguments
  if .ambiguous ∈ words then .error .badUsage
  else do
    let progress ← readWords ⟨Settings.standard "", none, false⟩ false words
    match progress.filename, progress.leftover with
    | some filename, false => .ok { progress.settings with filename := filename }
    | _, _ => .error .badUsage

end Chip8.CommandLine
