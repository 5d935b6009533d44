/-
This file fixes the machine's dimensions: where programs, the digit glyphs and
the program counter may lie, how large memory, the display and the call stack
are, and the glyphs themselves.

The bottom 512 bytes belong to the interpreter and hold the glyphs; programs
start above them. Every instruction is two bytes, and the program counter may
rest wherever they leave a byte of memory to spare: its top lies three below the
size of memory.
-/

namespace Chip8.Layout

def memorySize : Nat := 0x1000

def programStart : Int := 0x200

/-- The highest address the program counter may rest on. -/
def programTop : Int := 0xFFD

def glyphStart : Int := 0x50

/-- Each glyph is five rows of one byte. -/
def glyphSize : Int := 5

def displayWidth : Nat := 64

def displayHeight : Nat := 32

def stackDepth : Int := 16

/-- The index register saturates here. -/
def indexTop : Int := 0xFFFF

/-- Whether the program counter may rest on an address. -/
def InProgram (address : Int) : Prop :=
  programStart ≤ address ∧ address ≤ programTop

instance (address : Int) : Decidable (InProgram address) :=
  inferInstanceAs (Decidable (_ ∧ _))

/-- The rows of the sixteen hexadecimal digits, `0` to `F`. -/
def glyphs : List UInt8 := [
  0xF0, 0x90, 0x90, 0x90, 0xF0,
  0x20, 0x60, 0x20, 0x20, 0x70,
  0xF0, 0x10, 0xF0, 0x80, 0xF0,
  0xF0, 0x10, 0xF0, 0x10, 0xF0,
  0x90, 0x90, 0xF0, 0x10, 0x10,
  0xF0, 0x80, 0xF0, 0x10, 0xF0,
  0xF0, 0x80, 0xF0, 0x90, 0xF0,
  0xF0, 0x10, 0x20, 0x40, 0x40,
  0xF0, 0x90, 0xF0, 0x90, 0xF0,
  0xF0, 0x90, 0xF0, 0x10, 0xF0,
  0xF0, 0x90, 0xF0, 0x90, 0x90,
  0xE0, 0x90, 0xE0, 0x90, 0xE0,
  0xF0, 0x80, 0x80, 0x80, 0xF0,
  0xE0, 0x90, 0x90, 0x90, 0xE0,
  0xF0, 0x80, 0xF0, 0x80, 0xF0,
  0xF0, 0x80, 0xF0, 0x80, 0x80]

end Chip8.Layout
