/-
This file is what a launch can see of the host's files: which directories there
are, what the files hold, and why a path may lead to nothing that can be read.

A path is followed from the left, step by step, from the root if it begins with
a slash and otherwise from the working directory. An empty step and a single
point stay where they are, two points go up, and at the root there is no way
further up. No step leads out of a file, not even one that stays. What is wrong
with the whole path is found before the first step, and what is wrong with a
step before any later one.
-/

namespace Chip8

/-- Why a file cannot be read. -/
inductive FileError where
  | notFound
  | isDirectory
  /-- A step was to be taken from a file. -/
  | notDirectory
  /-- A step of the path, or all of it, is too long. -/
  | nameTooLong
  /-- No file can have the name. -/
  | unnameable
  /-- A number was given for the file, and no file is open under it. -/
  | notOpen
  deriving DecidableEq, Repr

/-- The sentence an unreadable file is reported with. -/
def FileError.message : FileError → String
  | .notFound => "does not exist"
  | .isDirectory => "is a directory"
  | .notDirectory => "leads through what is no directory"
  | .nameTooLong => "has too long a name"
  | .unnameable => "has a name no file can have"
  | .notOpen => "is not open"

/-- A place in the tree: the steps from the root. -/
abbrev Place := List String

/-- The host's files. -/
structure FileTree where
  workingDirectory : Place
  /-- The directories below the root. -/
  directories : List Place
  files : List (Place × List UInt8)

namespace FileTree

/-- How many bytes a step can have. -/
def stepLimit : Nat := 255

/-- How many bytes a path can have. -/
def pathLimit : Nat := 4095

/-- What the file at a place holds, if there is a file. -/
def contents? (tree : FileTree) (place : Place) : Option (List UInt8) :=
  tree.files.lookup place

def exists? (tree : FileTree) (place : Place) : Bool :=
  tree.directories.contains place || (tree.contents? place).isSome

/-- Follows steps from a place. -/
def follow (tree : FileTree) (place : Place) : List String → Except FileError Place
  | [] => .ok place
  | step :: rest =>
      if (tree.contents? place).isSome then .error .notDirectory
      else if step = "" ∨ step = "." then tree.follow place rest
      else if step = ".." then tree.follow place.dropLast rest
      else if stepLimit < step.utf8ByteSize then .error .nameTooLong
      else if tree.exists? (place ++ [step]) then tree.follow (place ++ [step]) rest
      else .error .notFound

/-- What the file of a path holds. A path cannot hold a zero character. -/
def read (tree : FileTree) (path : String) : Except FileError (List UInt8) := do
  if path.contains '\x00' then throw .unnameable
  if path = "" then throw .notFound
  if pathLimit < path.utf8ByteSize then throw .nameTooLong
  let origin := if path.startsWith "/" then [] else tree.workingDirectory
  let place ← tree.follow origin (path.splitOn "/")
  match tree.contents? place with
  | some contents => return contents
  | none => throw .isDirectory

end FileTree

end Chip8
