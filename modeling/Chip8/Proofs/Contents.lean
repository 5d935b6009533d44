/-
This file proves that a memory holds what was last stored in it.

A storing lays a block of bytes at a location. Whether it is refused can be told
from the size of the memory and nothing else: a block of which some address does
not exist is refused for the first one that is missing, a value that is no byte
for being none, and a program for being larger than the room behind its start,
which is asked before any address is. So after any storings, refused ones among
them, an address holds the byte that the last one gave it which was not refused
and reached it, and zero if there was none. Reading one byte and reading a block
see the same bytes.
-/

import Mathlib.Data.List.Induction
import Mathlib.Order.Bounds.Defs
import Chip8.Proofs.Storage

namespace Chip8

/-- What can be asked of a memory that changes it. -/
inductive Storing where
  | write (location value : Int)
  | writeBlock (location : Int) (block : List UInt8)
  | zeroBlock (location : Int) (count : Nat)
  | loadGlyphs
  | loadRom (rom : List UInt8)
  | clear
  deriving DecidableEq

namespace Memory

/-- Does what is asked. -/
def perform (memory : Memory) : Storing → Except Trap Memory
  | .write location value => memory.write location value
  | .writeBlock location block => memory.writeBlock location block
  | .zeroBlock location count => memory.zeroBlock location count
  | .loadGlyphs => memory.loadGlyphs
  | .loadRom rom => memory.loadRom rom
  | .clear => memory.clear

/-- The memory after it was asked; as it was if that was refused. -/
def attempt (memory : Memory) (storing : Storing) : Memory :=
  match memory.perform storing with
  | .ok after => after
  | .error _ => memory

/-- The memory after it was asked one thing after the other. -/
def attemptAll (memory : Memory) (history : List Storing) : Memory :=
  history.foldl attempt memory

/-- Whether a memory of a size lacks some of a block. An empty block may lie right behind the last
byte. -/
def Lacks (size : Nat) (location : Int) (count : Nat) : Prop :=
  location < 0 ∨ size < location + count

instance (size : Nat) (location : Int) (count : Nat) : Decidable (Lacks size location count) :=
  inferInstanceAs (Decidable (_ ∨ _))

/-- The first address from a location on that a memory of a size does not have. -/
def firstMissing (size : Nat) (location : Int) : Int :=
  if location < 0 then location else max location size

end Memory

namespace Storing

open Memory

/-- Where the block begins. -/
def location : Storing → Int
  | write location _ | writeBlock location _ | zeroBlock location _ => location
  | loadGlyphs => 0x50
  | loadRom _ => 0x200
  | clear => 0

/-- The block that is laid in a memory of a size. -/
def block (size : Nat) : Storing → List UInt8
  | write _ value => [Byte.low value]
  | writeBlock _ block => block
  | zeroBlock _ count => List.replicate count 0
  | loadGlyphs => Layout.glyphs
  | loadRom rom => rom
  | clear => List.replicate size 0

/-- Whether all that is to be stored are bytes. -/
def Fits : Storing → Prop
  | write _ value => 0 ≤ value ∧ value ≤ 255
  | _ => True

instance : DecidablePred Fits
  | write _ value => inferInstanceAs (Decidable (0 ≤ value ∧ value ≤ 255))
  | writeBlock _ _ | zeroBlock _ _ | loadGlyphs | loadRom _ | clear => .isTrue trivial

/-- What a memory of a size refuses a storing for. -/
inductive Refused (size : Nat) : Storing → Trap → Prop
  | missing {storing : Storing} (plain : ∀ rom, storing ≠ loadRom rom)
      (lacks : Lacks size storing.location (storing.block size).length) :
      Refused size storing (.fault (.outOfMemory (firstMissing size storing.location)))
  | unfit {location value : Int} (present : ¬ Lacks size location 1)
      (unfit : value < 0 ∨ 255 < value) : Refused size (write location value) .notAByte
  | tooLarge {rom : List UInt8} (large : size < 0x200 + rom.length) :
      Refused size (loadRom rom) (.fault (.romTooLarge rom.length (size - 0x200)))

/-- What a memory of a size does not refuse. -/
def Accepted (size : Nat) (storing : Storing) : Prop :=
  storing.Fits ∧ ¬ Lacks size storing.location (storing.block size).length

/-- Whether a storing reaches an address of a memory of a size. -/
def Reaches (size : Nat) (storing : Storing) (address : Int) : Prop :=
  storing.location ≤ address ∧ address < storing.location + (storing.block size).length

instance (size : Nat) (storing : Storing) : Decidable (storing.Accepted size) :=
  inferInstanceAs (Decidable (_ ∧ _))

instance (size : Nat) (storing : Storing) (address : Int) :
    Decidable (storing.Reaches size address) :=
  inferInstanceAs (Decidable (_ ∧ _))

/-- The byte for an address that a storing reaches. -/
def byteFor (size : Nat) (storing : Storing) (address : Int) : UInt8 :=
  (storing.block size).getD (address - storing.location).toNat 0

/-- What was last stored at an address of a memory of a size, and zero if nothing was. -/
def lastAt (size : Nat) (history : List Storing) (address : Int) : UInt8 :=
  match history.reverse.find? fun storing =>
    storing.Accepted size ∧ storing.Reaches size address with
  | some storing => storing.byteFor size address
  | none => 0

variable {size : Nat} {storing : Storing}

theorem not_fits_write_iff {location value : Int} :
    ¬ (write location value).Fits ↔ value < 0 ∨ 255 < value := by
  show ¬ (0 ≤ value ∧ value ≤ 255) ↔ _
  omega

theorem refused_or_accepted (size : Nat) (storing : Storing) :
    (∃ trap, storing.Refused size trap) ∨ storing.Accepted size := by
  by_cases lacks : Lacks size storing.location (storing.block size).length
  · cases storing with
    | loadRom rom =>
      have above : ¬ (0x200 : Int) < 0 := by decide
      have beyond : (size : Int) < 0x200 + rom.length := lacks.resolve_left above
      exact .inl ⟨_, .tooLarge (by omega)⟩
    | _ => exact .inl ⟨_, .missing (fun _ => nofun) lacks⟩
  · cases storing with
    | write location value =>
      by_cases fits : (write location value).Fits
      · exact .inr ⟨fits, lacks⟩
      · exact .inl ⟨_, .unfit lacks (not_fits_write_iff.mp fits)⟩
    | _ => exact .inr ⟨trivial, lacks⟩

/-- Of a history that has grown, the newest storing counts first. -/
theorem lastAt_concat (size : Nat) (history : List Storing) (storing : Storing) (address : Int) :
    lastAt size (history ++ [storing]) address =
      if storing.Accepted size ∧ storing.Reaches size address then storing.byteFor size address
      else lastAt size history address := by
  rw [lastAt, List.reverse_concat, List.find?_cons, lastAt]
  by_cases newest : storing.Accepted size ∧ storing.Reaches size address
  · rw [decide_eq_true newest, if_pos newest]
  · rw [decide_eq_false newest, if_neg newest]

end Storing

namespace Memory

variable {memory : Memory} {storing : Storing} {trap : Trap} {location : Int} {count : Nat}

/-! ### Missing addresses -/

theorem isLeast_firstMissing (size : Nat) (location : Int) :
    IsLeast {address | location ≤ address ∧ ¬ (0 ≤ address ∧ address < size)}
      (firstMissing size location) := by
  unfold firstMissing
  constructor
  · show location ≤ _ ∧ ¬ (0 ≤ _ ∧ _ < (size : Int))
    split <;> omega
  · rintro address ⟨above, missing⟩
    split <;> omega

theorem missing?_of_lacks (lacks : Lacks memory.size location count) :
    memory.missing? location count = some (firstMissing memory.size location) := by
  unfold missing? firstMissing
  by_cases negative : location < 0
  · rw [if_pos negative, if_pos negative]
  · rw [if_neg negative, if_neg negative, if_pos (lacks.resolve_left negative)]

theorem missing?_of_not_lacks (present : ¬ Lacks memory.size location count) :
    memory.missing? location count = none := by
  rw [missing?_eq_none_iff]
  unfold Lacks at present
  omega

/-! ### One storing -/

/-- A storing other than that of a program checks its block, then its bytes, and lays it. -/
theorem perform_eq (plain : ∀ rom, storing ≠ .loadRom rom) (memory : Memory) :
    memory.perform storing =
      (memory.check storing.location (storing.block memory.size).length).bind fun _ =>
        if storing.Fits then .ok (memory.place storing.location (storing.block memory.size))
        else .error .notAByte := by
  cases storing with
  | loadRom rom => exact absurd rfl (plain rom)
  | write location value =>
    show (memory.check location 1).bind _ = (memory.check location 1).bind _
    refine congrArg _ (funext fun _ => ?_)
    by_cases fits : (Storing.write location value).Fits
    · rw [if_pos fits, Byte.ofInt?_of_fits fits]
      rfl
    · rw [if_neg fits, Byte.ofInt?_eq_none_iff.mpr (Storing.not_fits_write_iff.mp fits)]
      rfl
  | writeBlock | loadGlyphs => rfl
  | zeroBlock location count =>
    show memory.zeroBlock location count =
      (memory.check location (List.replicate count _).length).bind _
    rw [zeroBlock_eq memory location (Int.natCast_nonneg count), List.length_replicate]
    rfl
  | clear =>
    show memory.zeroBlock 0 memory.size =
      (memory.check 0 (List.replicate memory.size _).length).bind _
    rw [zeroBlock_eq memory 0 (Int.natCast_nonneg _), List.length_replicate]
    rfl

theorem perform_of_refused (refused : storing.Refused memory.size trap) :
    memory.perform storing = .error trap := by
  cases refused with
  | missing plain lacks =>
    rw [perform_eq plain, check_of_missing (missing?_of_lacks lacks)]
    rfl
  | @unfit location value present unfit =>
    have plain : ∀ rom, Storing.write location value ≠ .loadRom rom := fun _ => nofun
    have checked : memory.check location 1 = .ok () :=
      check_of_present (missing?_of_not_lacks present)
    refine (perform_eq plain memory).trans ((congrArg (Except.bind · _) checked).trans ?_)
    exact if_neg (Storing.not_fits_write_iff.mpr unfit)
  | tooLarge large =>
    refine (loadRom_eq memory _).trans (if_neg ?_)
    show ¬ (_ ≤ (memory.size : Int) - 0x200)
    omega

theorem perform_of_accepted (accepted : storing.Accepted memory.size) :
    memory.perform storing = .ok (memory.place storing.location (storing.block memory.size)) := by
  have present := missing?_of_not_lacks accepted.2
  by_cases program : ∃ rom, storing = .loadRom rom
  · obtain ⟨rom, rfl⟩ := program
    refine (loadRom_eq memory rom).trans (if_pos ?_)
    have inside : (0x200 : Int) + rom.length ≤ memory.size := (missing?_eq_none_iff.mp present).2
    show _ ≤ (memory.size : Int) - 0x200
    omega
  · rw [perform_eq (not_exists.mp program), check_of_present present]
    exact if_pos accepted.1

theorem perform_eq_error_iff :
    memory.perform storing = .error trap ↔ storing.Refused memory.size trap := by
  refine ⟨fun failed => ?_, perform_of_refused⟩
  rcases Storing.refused_or_accepted memory.size storing with ⟨cause, refused⟩ | accepted
  · rw [perform_of_refused refused] at failed
    cases failed
    exact refused
  · rw [perform_of_accepted accepted] at failed
    cases failed

theorem exists_perform_iff (memory : Memory) (storing : Storing) :
    (∃ after, memory.perform storing = .ok after) ↔ storing.Accepted memory.size := by
  refine ⟨fun ⟨after, done⟩ => ?_, fun accepted => ⟨_, perform_of_accepted accepted⟩⟩
  rcases Storing.refused_or_accepted memory.size storing with ⟨trap, refused⟩ | accepted
  · rw [perform_of_refused refused] at done
    cases done
  · exact accepted

theorem attempt_of_refused (refused : storing.Refused memory.size trap) :
    memory.attempt storing = memory := by
  rw [attempt, perform_of_refused refused]

theorem size_attempt (memory : Memory) (storing : Storing) :
    (memory.attempt storing).size = memory.size := by
  rcases Storing.refused_or_accepted memory.size storing with ⟨trap, refused⟩ | accepted
  · rw [attempt_of_refused refused]
  · rw [attempt, perform_of_accepted accepted]
    exact size_place _ _ _

/-- A storing that is accepted gives its bytes to the addresses it reaches, and to no others. -/
theorem byteAt_attempt (memory : Memory) (storing : Storing) (address : Int) :
    (memory.attempt storing).byteAt address =
      if storing.Accepted memory.size ∧ storing.Reaches memory.size address then
        storing.byteFor memory.size address
      else memory.byteAt address := by
  by_cases accepted : storing.Accepted memory.size
  · obtain ⟨nonneg, inside⟩ := missing?_eq_none_iff.mp (missing?_of_not_lacks accepted.2)
    rw [attempt, perform_of_accepted accepted]
    simp only [accepted, true_and]
    exact byteAt_place memory _ nonneg inside address
  · rcases Storing.refused_or_accepted memory.size storing with ⟨trap, refused⟩ | impossible
    · rw [attempt_of_refused refused, if_neg fun both => accepted both.1]
    · exact absurd impossible accepted

/-! ### Histories -/

theorem attemptAll_concat (memory : Memory) (history : List Storing) (storing : Storing) :
    memory.attemptAll (history ++ [storing]) = (memory.attemptAll history).attempt storing := by
  rw [attemptAll, List.foldl_append]
  rfl

theorem size_attemptAll (memory : Memory) (history : List Storing) :
    (memory.attemptAll history).size = memory.size := by
  induction history using List.reverseRecOn with
  | nil => rfl
  | append_singleton history storing inductionHypothesis =>
    rw [attemptAll_concat, size_attempt, inductionHypothesis]

theorem byteAt_attemptAll (size : Nat) (history : List Storing) (address : Int) :
    ((blank size).attemptAll history).byteAt address = Storing.lastAt size history address := by
  induction history using List.reverseRecOn with
  | nil => exact byteAt_blank size address
  | append_singleton history storing inductionHypothesis =>
    rw [attemptAll_concat, byteAt_attempt, inductionHypothesis, size_attemptAll, size_blank,
      Storing.lastAt_concat]

/-! ### Reading -/

theorem read_eq (memory : Memory) (location : Int) :
    memory.read location =
      if Lacks memory.size location 1 then
        .error (.fault (.outOfMemory (firstMissing memory.size location)))
      else .ok (memory.byteAt location) := by
  by_cases lacks : Lacks memory.size location 1
  · have refused : memory.check location 1 = _ := check_of_missing (missing?_of_lacks lacks)
    rw [if_pos lacks, read, refused]
    rfl
  · have passed : memory.check location 1 = _ := check_of_present (missing?_of_not_lacks lacks)
    rw [if_neg lacks, read, passed]
    rfl

theorem readBlock_eq (memory : Memory) (location : Int) (count : Nat) :
    memory.readBlock location count =
      if Lacks memory.size location count then
        .error (.fault (.outOfMemory (firstMissing memory.size location)))
      else
        .ok ((List.range count).map fun (offset : Nat) => memory.byteAt (location + offset)) := by
  by_cases lacks : Lacks memory.size location count
  · rw [if_pos lacks, readBlock_of_missing (missing?_of_lacks lacks)]
  · have present := missing?_of_not_lacks lacks
    rw [if_neg lacks, readBlock_of_present present,
      slice_eq_map (Int.natCast_nonneg count) present, Int.toNat_natCast]

/-! ### Programs -/

theorem exists_loadRom_iff (memory : Memory) (rom : List UInt8) :
    (∃ after, memory.loadRom rom = .ok after) ↔ 0x200 + rom.length ≤ memory.size := by
  have inside : (Storing.loadRom rom).Accepted memory.size ↔
      True ∧ ¬ ((0x200 : Int) < 0 ∨ memory.size < (0x200 : Int) + rom.length) := Iff.rfl
  have done : (∃ after, memory.loadRom rom = .ok after) ↔
      (Storing.loadRom rom).Accepted memory.size := exists_perform_iff memory (.loadRom rom)
  rw [done, inside, true_and]
  omega

/-- Loading a program changes nothing but the bytes it is loaded into. -/
theorem read_of_loadRom {after : Memory} {rom : List UInt8}
    (loaded : memory.loadRom rom = .ok after) {address : Int}
    (beside : ¬ (0x200 ≤ address ∧ address < 0x200 + rom.length)) :
    after.read address = memory.read address := by
  have left : memory.attempt (.loadRom rom) = after := by
    have performed : memory.perform (.loadRom rom) = .ok after := loaded
    rw [attempt, performed]
  have kept : (memory.attempt (.loadRom rom)).byteAt address = memory.byteAt address :=
    (byteAt_attempt memory (.loadRom rom) address).trans (if_neg fun both => beside both.2)
  rw [← left, read_eq, read_eq, size_attempt, kept]

/-- After any storings, what a memory answers is told by its size and by what was last stored at
each address. What it lacks it refuses for the first address that is missing, a storing that is
refused changes nothing, and a program is refused for its size and never for an address. -/
theorem holds_last_stored (size : Nat) (history : List Storing) :
    let memory := (blank size).attemptAll history
    (∀ location : Int, IsLeast {address | location ≤ address ∧ ¬ (0 ≤ address ∧ address < size)}
      (firstMissing size location)) ∧
    (∀ storing trap, memory.perform storing = .error trap ↔ storing.Refused size trap) ∧
    (∀ storing, (∃ after, memory.perform storing = .ok after) ↔ storing.Accepted size) ∧
    (∀ storing trap, memory.perform storing = .error trap → memory.attempt storing = memory) ∧
    (∀ location, memory.read location =
      if Lacks size location 1 then .error (.fault (.outOfMemory (firstMissing size location)))
      else .ok (Storing.lastAt size history location)) ∧
    (∀ location (count : Nat), memory.readBlock location count =
      if Lacks size location count then .error (.fault (.outOfMemory (firstMissing size location)))
      else .ok ((List.range count).map fun (offset : Nat) =>
        Storing.lastAt size history (location + offset))) ∧
    ∀ rom, ((∃ after, memory.loadRom rom = .ok after) ↔ 0x200 + rom.length ≤ size) ∧
      ∀ after, memory.loadRom rom = .ok after → ∀ address : Int,
        ¬ (0x200 ≤ address ∧ address < 0x200 + rom.length) →
        after.read address = memory.read address := by
  intro memory
  have whole : memory.size = size := (size_attemptAll _ history).trans (size_blank size)
  have bytes : ∀ address, memory.byteAt address = Storing.lastAt size history address :=
    byteAt_attemptAll size history
  refine ⟨isLeast_firstMissing size, fun storing trap => ?_, fun storing => ?_,
    fun storing trap failed => ?_, fun location => ?_, fun location count => ?_, fun rom => ?_⟩
  · rw [perform_eq_error_iff, whole]
  · rw [← whole]
    exact exists_perform_iff memory storing
  · exact attempt_of_refused (perform_eq_error_iff.mp failed)
  · rw [read_eq, whole, bytes]
  · simp only [readBlock_eq, whole, bytes]
  · rw [← whole]
    exact ⟨exists_loadRom_iff memory rom, fun after loaded address => read_of_loadRom loaded⟩

/-- A value that is no byte and a block that runs over the end come to nothing. -/
example :
    (blank 4).attemptAll [.writeBlock 1 [1, 2, 3], .write 2 256, .zeroBlock 3 2, .write 2 9] =
      ⟨#[0, 1, 9, 3]⟩ := by
  decide

end Memory

end Chip8
