/-
This file is the table of options a launch starts from.

Every option has its place in the table, but a place may be missing, or be there
and hold nothing. A missing one cannot be read; one that holds nothing stands
for a default. A table need not come from a command line, so a place can also
hold a value of another kind than its option's. Where only a yes or no is asked
for, any value answers it: what is zero or empty means no. Elsewhere such a
stray is refused when it is put to use, and not before.

A command line fills the table completely. A setting it emptied holds a list
without elements.
-/

import Chip8.Host.Screen
import Chip8.Launch.Settings
import Chip8.Pace
import Chip8.Text.Decimal

namespace Chip8

/-- A value as tables hold them. -/
inductive Datum where
  | truth (value : Bool)
  | whole (value : Int)
  /-- A number with a fraction, as it is written. -/
  | fraction (written : String)
  | text (value : String)
  | list (isEmpty : Bool)
  | table (isEmpty : Bool)
  deriving DecidableEq, Repr

namespace Datum

/-- What it answers to a question of yes or no. -/
def isOn : Datum → Bool
  | truth value => value
  | whole value => value != 0
  | fraction written => !(Text.double written == 0)
  | text value => value != ""
  | list isEmpty => !isEmpty
  | table isEmpty => !isEmpty

def truth? : Datum → Option Bool
  | truth value => some value
  | _ => none

def text? : Datum → Option String
  | text value => some value
  | _ => none

/-- The integer it counts as; yes counts as one and no as zero. -/
def whole? : Datum → Option Int
  | truth value => some value.toInt
  | whole value => some value
  | _ => none

/-- The clock speed it stands for, if it is a number. -/
def speed? : Datum → Option ClockSpeed
  | fraction written => some (.real (Text.double written))
  | value => value.whole?.map .whole

/-- The length it stands for, if it is a number. A fraction is cut off, and a number with a
fraction that is too large for the window system, or no number, has no measure. -/
def length? : Datum → Option Int
  | fraction written =>
      let value := Text.double written
      match Double.whole value with
      | .ok length => some (min length Window.measureLimit)
      | .error _ => some (if value < 0 then 0 else Window.measureLimit)
  | value => value.whole?

/-- The number a file would be open under. Numbers are words of thirty-two bits. -/
def fileNumber? (value : Datum) : Option Int :=
  match value.whole? with
  | some number => if number.bmod 0x100000000 = number then some number else none
  | none => none

/-- The name it would have as a name, if it can be looked up at all. -/
def name? : Datum → Option String
  | truth value => some (if value then "True" else "False")
  | whole value => some (toString value)
  | fraction "Infinity" => some "inf"
  | fraction "-Infinity" => some "-inf"
  | fraction "NaN" => some "nan"
  | fraction written => some written
  | text value => some value
  | list _ | table _ => none

/-- What kind of value it is. -/
def kind : Datum → String
  | truth _ => "a truth value"
  | whole _ => "an integer"
  | fraction _ => "a number"
  | text _ => "a text"
  | list _ => "a list"
  | table _ => "a table"

end Datum

/-- A place in the table. -/
inductive Entry (α : Type) where
  | missing
  /-- The place is there and holds nothing. -/
  | unset
  | given (value : α)
  /-- The place holds a value of another kind. -/
  | stray (value : Datum)
  deriving DecidableEq, Repr

namespace Entry

variable {α : Type}

/-- The place of a setting that takes a value. -/
def ofChoice : Choice α → Entry α
  | .unmade => .unset
  | .emptied => .stray (.list true)
  | .made value => .given value

/-- The place that holds a value of whatever kind, or nothing. -/
def ofDatum (read? : Datum → Option α) : Option Datum → Entry α
  | none => unset
  | some value =>
      match read? value with
      | some value => given value
      | none => stray value

/-- What the place holds, if it is there. -/
def read? : Entry α → Option (Option (Except Datum α))
  | missing => none
  | unset => some none
  | given value => some (some (.ok value))
  | stray value => some (some (.error value))

end Entry

structure Options where
  filename : Entry String
  clockSpeed : Entry ClockSpeed
  speed : Entry String
  renderer : Entry String
  scale : Entry Int
  mute : Entry Bool
  keymap : Entry String
  loadDialect : Entry Bool
  shiftDialect : Entry Bool
  logicDialect : Entry Bool
  jumpDialect : Entry Bool
  debug : Entry Bool
  step : Entry Bool

namespace Options

/-- The table of a command line. -/
def ofSettings (settings : Settings) : Options where
  filename := .given settings.filename
  clockSpeed := .ofChoice (settings.clockSpeed.map .whole)
  speed := .ofChoice settings.speed
  renderer := .ofChoice settings.renderer
  scale := .ofChoice settings.scale
  mute := .ofChoice settings.mute
  keymap := .ofChoice settings.keymap
  loadDialect := .ofChoice settings.loadDialect
  shiftDialect := .ofChoice settings.shiftDialect
  logicDialect := .ofChoice settings.logicDialect
  jumpDialect := .ofChoice settings.jumpDialect
  debug := .given settings.debug
  step := .given settings.step

/-- The table with the place of a setting made anew from each kind of value. -/
def place (options : Options) (setting : Setting)
    (make : {α : Type} → (Datum → Option α) → Entry α) : Options :=
  match setting with
  | .clockSpeed => { options with clockSpeed := make Datum.speed? }
  | .speed => { options with speed := make Datum.text? }
  | .renderer => { options with renderer := make Datum.text? }
  | .scale => { options with scale := make Datum.length? }
  | .mute => { options with mute := make Datum.truth? }
  | .keymap => { options with keymap := make Datum.text? }
  | .loadDialect => { options with loadDialect := make Datum.truth? }
  | .shiftDialect => { options with shiftDialect := make Datum.truth? }
  | .logicDialect => { options with logicDialect := make Datum.truth? }
  | .jumpDialect => { options with jumpDialect := make Datum.truth? }
  | .debug => { options with debug := make Datum.truth? }
  | .step => { options with step := make Datum.truth? }
  | .help => options

/-- The table with the place of a name changed. A name is the long word of a setting, or the
word for the file; any other has no place. -/
def change (options : Options) (name : String)
    (make : {α : Type} → (Datum → Option α) → Entry α) : Options :=
  if name = "filename" then { options with filename := make Datum.text? }
  else
    match Setting.all.find? fun setting => setting.word == name with
    | some setting => options.place setting make
    | none => options

/-- The table with a value, or nothing, in the place of a name. -/
def put (options : Options) (name : String) (value : Option Datum) : Options :=
  options.change name fun read? => .ofDatum read? value

/-- The table without the place of a name. -/
def drop (options : Options) (name : String) : Options :=
  options.change name fun _ => .missing

end Options

end Chip8
