/-
This file holds what the program says of itself: its name, version and notice,
and the lines they head.
-/

namespace Chip8.Program

def name : String := "PlainChip8 Emulator"

def version : String := "0.3.0"

def notice : String :=
  "Copyright (C) 2022 Gregory Maynard-Hoare, licensed under GNU Affero General Public License v3.0"

/-- Stands before everything the program says of itself. -/
def heading : String := name ++ " V" ++ version ++ " -- "

/-- The first line the program prints. -/
def banner : String := heading ++ notice

end Chip8.Program
