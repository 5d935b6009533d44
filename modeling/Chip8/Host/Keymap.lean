/-
This file assigns keys of the host to the sixteen keys of the keypad.

A keymap is written as sixteen integers parted by commas, the host's codes for
the keys `0` to `F` in order. The number of pieces is checked first; then the
pieces are read from the left, and the first one that is no integer, or repeats
the value of an earlier one, is what the text is refused for.
-/

import Chip8.Text.Integer

namespace Chip8

/-- Why a text is no keymap. -/
inductive KeymapError where
  | wrongCount
  | notInteger
  | duplicate
  deriving DecidableEq, Repr

/-- The sentence a refused keymap is reported with. -/
def KeymapError.message : KeymapError → String
  | .wrongCount =>
      "Incorrect number of keys defined -- 16 required.  Use commas to split numbers"
  | .notInteger => "Defined keys are not all integer values"
  | .duplicate => "Duplicate keys defined"

structure Keymap where
  /-- The host's codes of the keys, in the order of the keys. -/
  codes : List Int
  deriving DecidableEq, Repr

namespace Keymap

/-- The keymap used unless another is given: each key on the host key of its label. -/
def standardText : String :=
  "48,49,50,51,52,53,54,55,56,57,97,98,99,100,101,102"

/-- The pieces of a text between commas; a text without commas is one piece. -/
def pieces : List Char → List (List Char)
  | [] => [[]]
  | c :: rest =>
      if c = ',' then [] :: pieces rest
      else
        match pieces rest with
        | [] => [[c]]
        | piece :: others => (c :: piece) :: others

/-- Reads pieces from the left, none of them equal to a code seen before. -/
def readCodes (seen : List Int) : List (List Char) → Except KeymapError (List Int)
  | [] => .ok seen
  | piece :: rest =>
      match Text.integer? (String.ofList piece) with
      | none => .error .notInteger
      | some code =>
          if code ∈ seen then .error .duplicate else readCodes (seen ++ [code]) rest

/-- Reads a keymap. -/
def parse (text : String) : Except KeymapError Keymap :=
  let pieces := pieces text.toList
  if pieces.length = 16 then (readCodes [] pieces).map Keymap.mk else .error .wrongCount

/-- The key of the keypad that a host key stands for. -/
def key? (keymap : Keymap) (code : Int) : Option (Fin 16) :=
  (keymap.codes.idxOf? code).bind fun index =>
    if known : index < 16 then some ⟨index, known⟩ else none

end Keymap

end Chip8
