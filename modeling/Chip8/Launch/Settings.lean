/-
This file lists the settings a command line can make, and what it finds out: the
file to run and each setting's value, if it was given.

A setting is named by a long word after two dashes, some also by a letter after
one. Most take a value: an integer, one of a few words, or any text. The rest
are marks that are either there or not. Two dashes alone are no value of any
kind: they empty the setting. A setting that is left alone has a default later
on; an emptied one has not.
-/

import Chip8.Host.Keymap

namespace Chip8

/-- What can be set on a command line. -/
inductive Setting where
  | clockSpeed
  | speed
  | renderer
  | scale
  | mute
  | keymap
  | loadDialect
  | shiftDialect
  | logicDialect
  | jumpDialect
  | debug
  | step
  | help
  deriving DecidableEq, Repr

namespace Setting

def all : List Setting := [
  help, clockSpeed, speed, renderer, scale, mute, keymap, loadDialect, shiftDialect, logicDialect,
  jumpDialect, debug, step]

/-- The long word of a setting, without its dashes. -/
def word : Setting → String
  | clockSpeed => "clock_speed"
  | speed => "speed"
  | renderer => "renderer"
  | scale => "scale"
  | mute => "mute"
  | keymap => "keymap"
  | loadDialect => "load_quirks"
  | shiftDialect => "shift_quirks"
  | logicDialect => "logic_quirks"
  | jumpDialect => "jump_quirks"
  | debug => "debug"
  | step => "step"
  | help => "help"

/-- The letter of a setting. -/
def letter? : Setting → Option Char
  | clockSpeed => some 'c'
  | renderer => some 'r'
  | scale => some 's'
  | mute => some 'm'
  | keymap => some 'k'
  | debug => some 'd'
  | help => some 'h'
  | _ => none

/-- Whether a value belongs to the setting. -/
def takesValue : Setting → Bool
  | debug | step | help => false
  | _ => true

/-- The setting of a letter. -/
def ofLetter? (letter : Char) : Option Setting :=
  all.find? fun setting => setting.letter? == some letter

/-- The settings whose long word begins with some text. -/
def beginning (text : List Char) : List Setting :=
  all.filter fun setting => text.isPrefixOf setting.word.toList

/-- The settings a long word may mean: the one it names in full, else all it abbreviates. -/
def meanings (text : List Char) : List Setting :=
  match all.find? fun setting => setting.word.toList == text with
  | some setting => [setting]
  | none => beginning text

end Setting

/-- What a command line makes of a setting that takes a value. -/
inductive Choice (α : Type) where
  | unmade
  /-- The setting was given no value. -/
  | emptied
  | made (value : α)
  deriving DecidableEq, Repr

namespace Choice

/-- What stands for a value and is none. -/
def emptyText : String := "--"

/-- The choice a text makes, if it holds a value of the setting's kind or none at all. -/
def read? {α : Type} (value? : String → Option α) (text : String) : Option (Choice α) :=
  if text = emptyText then some emptied else (value? text).map made

/-- A choice with its value changed. -/
def map {α β : Type} (change : α → β) : Choice α → Choice β
  | unmade => unmade
  | emptied => emptied
  | made value => made (change value)

end Choice

/-- What a command line sets. -/
structure Settings where
  filename : String
  clockSpeed : Choice Int
  speed : Choice String
  renderer : Choice String
  scale : Choice Int
  mute : Choice Bool
  keymap : Choice String
  loadDialect : Choice Bool
  shiftDialect : Choice Bool
  logicDialect : Choice Bool
  jumpDialect : Choice Bool
  debug : Bool
  step : Bool
  deriving DecidableEq, Repr

namespace Settings

/-- The settings of a command line that names nothing but a file. -/
def standard (filename : String) : Settings where
  filename := filename
  clockSpeed := .unmade
  speed := .unmade
  renderer := .unmade
  scale := .unmade
  mute := .unmade
  keymap := .made Keymap.standardText
  loadDialect := .unmade
  shiftDialect := .unmade
  logicDialect := .unmade
  jumpDialect := .unmade
  debug := false
  step := false

/-- A text that must be one of a few. -/
def oneOf? (choices : List String) (text : String) : Option String :=
  if text ∈ choices then some text else none

/-- An integer that must be zero or one. -/
def zeroOrOne? (text : String) : Option Bool :=
  match Text.integer? text with
  | some 0 => some false
  | some 1 => some true
  | _ => none

/-- Settings with one of them given a value, if it takes that value. -/
def give (settings : Settings) (setting : Setting) (text : String) : Option Settings :=
  match setting with
  | .clockSpeed =>
      (Choice.read? Text.integer? text).map fun choice => { settings with clockSpeed := choice }
  | .speed =>
      (Choice.read? (oneOf? ["0.5", "1", "2"]) text).map fun choice =>
        { settings with speed := choice }
  | .renderer =>
      (Choice.read? (oneOf? ["pygame", "null"]) text).map fun choice =>
        { settings with renderer := choice }
  | .scale =>
      (Choice.read? Text.integer? text).map fun choice => { settings with scale := choice }
  | .mute => (Choice.read? zeroOrOne? text).map fun choice => { settings with mute := choice }
  | .keymap => (Choice.read? some text).map fun choice => { settings with keymap := choice }
  | .loadDialect =>
      (Choice.read? zeroOrOne? text).map fun choice => { settings with loadDialect := choice }
  | .shiftDialect =>
      (Choice.read? zeroOrOne? text).map fun choice => { settings with shiftDialect := choice }
  | .logicDialect =>
      (Choice.read? zeroOrOne? text).map fun choice => { settings with logicDialect := choice }
  | .jumpDialect =>
      (Choice.read? zeroOrOne? text).map fun choice => { settings with jumpDialect := choice }
  | .debug | .step | .help => none

/-- Settings with one mark made. -/
def mark (settings : Settings) : Setting → Settings
  | .debug => { settings with debug := true }
  | .step => { settings with step := true }
  | _ => settings

end Settings

end Chip8
