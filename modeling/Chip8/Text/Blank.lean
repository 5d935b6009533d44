/-
This file lists the blank characters: the twenty-five of Unicode's property
White_Space. Among them are the tab, the line ends and the no-break space; the
information separators below the space are not.
-/

namespace Chip8.Text

/-- The runs of blank characters, first and last. -/
def blankRuns : List (Nat × Nat) := [
  (0x0009, 0x000D), (0x0020, 0x0020), (0x0085, 0x0085), (0x00A0, 0x00A0), (0x1680, 0x1680),
  (0x2000, 0x200A), (0x2028, 0x2029), (0x202F, 0x202F), (0x205F, 0x205F), (0x3000, 0x3000)]

def isBlank (c : Char) : Bool :=
  blankRuns.any fun run => run.1 ≤ c.toNat && c.toNat ≤ run.2

/-- A text without the blanks around it. -/
def trimBlanks (text : List Char) : List Char :=
  ((text.dropWhile isBlank).reverse.dropWhile isBlank).reverse

end Chip8.Text
