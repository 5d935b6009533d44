/-
This file proves that the index never wraps, and that it guards memory.

Apart from the two operations that set it anew, the index only moves on: by the
number in a register, or past the registers that were stored or loaded where the
dialect moves it. It rests at its top, and moving on and resting many times comes
to the same as adding up all the distances and resting once. So an index that
has left memory does not come back by moving on, and what it is used for then is
refused, with the index as the address that does not exist.

An instruction that is carried out touches no byte outside the block at the
index, and it touches that block only if all of it lies in memory. Nothing else
is written, and nothing else is read: on another memory that agrees in the block
it comes to the same.
-/

import Mathlib.Algebra.Ring.Int.Defs
import Chip8.Proofs.Entry
import Chip8.Proofs.Failure
import Chip8.Proofs.Trail

namespace Chip8.Machine

/-! ### How far the index moves -/

/-- How far an instruction moves the index on. -/
def distance (machine : Machine) (instruction : Instruction) : Int :=
  match instruction.operation with
  | .addIndex => (machine.first instruction).toNat
  | .storeRegisters | .loadRegisters =>
      if machine.dialect.movesIndex then instruction.x + 1 else 0
  | _ => 0

/-- How far the index is moved on by one thing done in a run. -/
def Deed.distance : Deed → Int
  | .cycle before (some instruction) => before.distance instruction
  | _ => 0

/-- How far a run moves the index on. -/
def travelled (deeds : List Deed) : Int :=
  (deeds.map Deed.distance).sum

/-- An instruction that does not set the index anew, with operands that a word can hold. -/
structure Steady (instruction : Instruction) : Prop where
  range : instruction.InRange
  loads : instruction.operation ≠ .loadIndex
  points : instruction.operation ≠ .pointAtGlyph

/-- All instructions that are carried out in a run are steady. -/
def AllSteady (deeds : List Deed) : Prop :=
  ∀ deed ∈ deeds, ∀ instruction, deed.Carries instruction → Steady instruction

variable {machine before after first last : Machine} {deed : Deed} {deeds : List Deed}
  {instruction : Instruction} {trace : Bool} {address : Int}

/-- A steady instruction moves the index on, up to its top. -/
theorem Steady.indexAfter (steady : Steady instruction)
    (index : machine.index ≤ Layout.indexTop) :
    0 ≤ machine.distance instruction ∧
      machine.indexAfter instruction =
        min (machine.index + machine.distance instruction) Layout.indexTop := by
  obtain ⟨range, loads, points⟩ := steady
  have operand := range.x
  have rests : machine.index = min (machine.index + 0) Layout.indexTop := by omega
  obtain ⟨operation, opcode, x, y, n, kk, nnn⟩ := instruction
  unfold distance Machine.indexAfter
  cases operation with
  | loadIndex => exact absurd rfl loads
  | pointAtGlyph => exact absurd rfl points
  | addIndex => exact ⟨Int.natCast_nonneg _, rfl⟩
  | storeRegisters | loadRegisters =>
    dsimp only at operand ⊢
    split
    · exact ⟨by omega, rfl⟩
    · exact ⟨Int.le_refl 0, rests⟩
  | _ => exact ⟨Int.le_refl 0, rests⟩

/-- Nothing that is done around the cycles moves the index. -/
theorem Aside.keeps_index (passes : Aside before after) : after.index = before.index := by
  refine passes.keeps (motive := fun other => other.index = before.index) ?_ rfl
  intro machine other move same
  cases move with
  | retired _ impossible => cases impossible
  | misused _ _ _ impossible => cases impossible
  | restarted _ impossible => cases impossible
  | halted | waited | woken | timed | written | keyed | paced | collected => exact same

theorem Done.index (step : Done before deed after) (intact : before.Intact)
    (index : before.index ≤ Layout.indexTop)
    (steady : ∀ instruction, deed.Carries instruction → Steady instruction) :
    0 ≤ deed.distance ∧ after.index = min (before.index + deed.distance) Layout.indexTop := by
  have rests : before.index = min (before.index + 0) Layout.indexTop := by omega
  cases step with
  | aside passes => exact ⟨Int.le_refl 0, passes.keeps_index.trans rests⟩
  | cycle given trace report ran =>
    obtain ⟨notes, succeeded, -⟩ := succeeded_of_attempt intact.proper ran
    rcases succeeded.leaves with ⟨instruction, carried, -, rfl⟩ | ⟨idle, -, same⟩
    · rw [carried] at steady ⊢
      exact (steady instruction ⟨before, rfl⟩).indexAfter index
    · rw [idle]
      exact ⟨Int.le_refl 0, same.trans rests⟩

/-- Moving on many times comes to moving on once by all the distances. -/
theorem Trail.index (trail : Trail first deeds last) (intact : first.Intact)
    (index : first.index ≤ Layout.indexTop) (steady : AllSteady deeds) :
    0 ≤ travelled deeds ∧ last.index = min (first.index + travelled deeds) Layout.indexTop := by
  induction trail with
  | nil =>
    refine ⟨Int.le_refl 0, ?_⟩
    rw [travelled, List.map_nil, List.sum_nil]
    omega
  | cons step _ inductionHypothesis =>
    obtain ⟨forward, moved⟩ := step.index intact index (steady _ List.mem_cons_self)
    obtain ⟨onward, ends⟩ := inductionHypothesis (step.intact intact) (by omega)
      fun deed member => steady deed (List.mem_cons_of_mem _ member)
    rw [travelled, List.map_cons, List.sum_cons, ← travelled]
    exact ⟨by omega, by omega⟩

/-! ### What an instruction touches -/

/-- An instruction touches an address: it stores or loads a block at the index, the address lies
in the block, and the block lies in memory as a whole. -/
def Touches (machine : Machine) (instruction : Instruction) (address : Int) : Prop :=
  ∃ count, touched? instruction = some count ∧
    0 ≤ machine.index ∧ machine.index + count ≤ 0x1000 ∧
    machine.index ≤ address ∧ address < machine.index + count

/-- What is in the way of an instruction does not depend on what memory holds. -/
theorem obstacle?_of_memory {memory : Memory} (size : memory.size = machine.memory.size)
    (instruction : Instruction) :
    { machine with memory := memory }.obstacle? instruction = machine.obstacle? instruction := by
  have missing (count : Int) :
      { machine with memory := memory }.missing? count = machine.missing? count := by
    unfold missing? Memory.missing?
    dsimp only
    rw [size]
  obtain ⟨operation, opcode, x, y, n, kk, nnn⟩ := instruction
  unfold obstacle? hindrance?
  cases operation with
  | drawSprite | storeDecimal | storeRegisters | loadRegisters => simp only [missing]
  | _ => rfl

/-- What is touched by an instruction with nothing in its way lies in memory. -/
theorem present_of_clear (clear : machine.obstacle? instruction = none) {count : Int}
    (touched : touched? instruction = some count) :
    machine.memory.missing? machine.index count = none := by
  obtain ⟨-, unhindered⟩ := Option.or_eq_none_iff.mp clear
  obtain ⟨operation, opcode, x, y, n, kk, nnn⟩ := instruction
  unfold hindrance? at unhindered
  cases operation with
  | drawSprite | storeDecimal | storeRegisters | loadRegisters =>
    cases touched
    exact memory_present unhindered
  | _ => cases touched

theorem touches_of_clear (intact : machine.Intact) (clear : machine.obstacle? instruction = none)
    {count : Int} (touched : touched? instruction = some count)
    (within : machine.index ≤ address ∧ address < machine.index + count) :
    machine.Touches instruction address := by
  obtain ⟨nonneg, inside⟩ := Memory.missing?_eq_none_iff.mp (present_of_clear clear touched)
  rw [intact.memory] at inside
  exact ⟨count, touched, nonneg, inside, within⟩

/-- Only what is touched is written. -/
theorem byteAt_of_untouched (intact : machine.Intact)
    (clear : machine.obstacle? instruction = none)
    (untouched : ¬ machine.Touches instruction address) :
    (machine.memoryAfter instruction).byteAt address = machine.memory.byteAt address := by
  refine (byteAt_memoryAfter clear address).trans (if_neg fun within => untouched ?_)
  have touched : touched? instruction = some instruction.storedCount := by
    obtain ⟨operation, opcode, x, y, n, kk, nnn⟩ := instruction
    cases operation with
    | storeDecimal | storeRegisters => rfl
    | _ =>
      have nothing : machine.index ≤ address ∧ address < machine.index + 0 := within
      omega
  exact touches_of_clear intact clear touched within

/-- Only what is touched is read. -/
theorem loaded_of_agreeing (intact : machine.Intact) (range : instruction.InRange)
    (clear : machine.obstacle? instruction = none) {memory : Memory}
    (size : memory.size = machine.memory.size)
    (agrees : ∀ address, machine.Touches instruction address →
      memory.byteAt address = machine.memory.byteAt address) :
    { machine with memory := memory }.loaded instruction = machine.loaded instruction := by
  have block {count : Int} (nonneg : 0 ≤ count) (touched : touched? instruction = some count) :
      memory.slice machine.index (machine.index + count) =
        machine.memory.slice machine.index (machine.index + count) := by
    have present := present_of_clear clear touched
    have present' : memory.missing? machine.index count = none := by
      unfold Memory.missing? at present ⊢
      rwa [size]
    rw [Memory.slice_eq_map nonneg present, Memory.slice_eq_map nonneg present']
    refine List.map_congr_left fun offset member => agrees _ ?_
    have bound := List.mem_range.mp member
    exact touches_of_clear intact clear touched ⟨by omega, by omega⟩
  have rows := range.n.1
  have operand := range.x.1
  obtain ⟨operation, opcode, x, y, n, kk, nnn⟩ := instruction
  cases operation with
  | drawSprite => exact block rows rfl
  | loadRegisters => exact block (Int.le_trans operand (by omega)) rfl
  | _ => rfl

/-- What is in the way of an instruction stops it on any memory. -/
theorem execute_of_obstacle (intact : machine.Intact) (running : machine.fault = none)
    (idle : machine.awaiting = none) (range : instruction.InRange) {fault : Fault}
    (obstacle : machine.obstacle? instruction = some fault) (trace : Bool) {memory : Memory}
    (size : memory.size = machine.memory.size) :
    execute instruction trace { machine with memory := memory } =
      .error (.fault fault)
        { (machine.holding instruction).halted fault with memory := memory } := by
  let other : Machine := { machine with memory := memory }
  have proper : other.display.Proper := intact.proper
  have running' : other.fault = none := running
  exact (execute_outcome instruction trace (fun _ => proper) running' idle).eq_error range
    ((obstacle?_of_memory size instruction).trans obstacle)

/-- On a memory that agrees in what an instruction touches it comes to the same. -/
theorem meets_of_agreeing (intact : machine.Intact) (running : machine.fault = none)
    (idle : machine.awaiting = none) (range : instruction.InRange) {memory : Memory}
    (size : memory.size = machine.memory.size)
    (agrees : ∀ address, machine.Touches instruction address →
      memory.byteAt address = machine.memory.byteAt address) :
    (Likeness.ofMemories machine.memory memory).Meets (execute instruction trace machine)
      (execute instruction trace { machine with memory := memory }) := by
  cases obstacle : machine.obstacle? instruction with
  | none =>
    exact meets_execute running idle instruction size
      (loaded_of_agreeing intact range obstacle size agrees)
  | some fault =>
    have refused := execute_of_obstacle intact running idle range obstacle trace rfl
    rw [refused, execute_of_obstacle intact running idle range obstacle trace size]
    exact .error _ ⟨rfl, .refl size⟩

/-! ### An index that has left memory -/

/-- What would touch memory from outside is stopped at the index. -/
theorem obstacle?_of_escaped (intact : machine.Intact)
    (room : Layout.InProgram (machine.programCounter + 2)) {count : Int}
    (touched : touched? instruction = some count) (positive : 0 < count)
    (escaped : 0x1000 ≤ machine.index) :
    machine.obstacle? instruction = some (.outOfMemory machine.index) := by
  have size : (machine.memory.size : Int) = 0x1000 := congrArg Nat.cast intact.memory
  have missing : machine.missing? count = some (.outOfMemory machine.index) := by
    rw [missing?, Memory.missing?, if_neg (by omega), if_pos (by omega), size,
      Int.max_eq_left escaped]
    rfl
  rw [obstacle?, leaving?_eq_none_iff.mpr room, ite_self, Option.none_or]
  obtain ⟨operation, opcode, x, y, n, kk, nnn⟩ := instruction
  unfold hindrance?
  cases operation with
  | drawSprite | storeDecimal | storeRegisters | loadRegisters =>
    cases touched
    exact missing
  | _ => cases touched

/-! ### From where the index stands -/

/-- What the index of a machine does, and what it guards. -/
structure Onward (machine : Machine) : Prop where
  /-- A run that does not set the index anew moves it on by the sum of its distances. -/
  moves : ∀ deeds last, Trail machine deeds last → AllSteady deeds →
    last.index = min 0xFFFF (machine.index + travelled deeds)
  rises : ∀ earlier middle later last, Trail machine earlier middle → Trail middle later last →
    AllSteady (earlier ++ later) → middle.index ≤ last.index
  /-- Behind the end of memory the index is refused, whatever memory holds. -/
  escapes : ∀ given instruction trace count, machine.Carries given instruction →
    instruction.InRange → machine.fault = none → Layout.InProgram (machine.programCounter + 2) →
      touched? instruction = some count → 0 < count → 0x1000 ≤ machine.index →
        ∃ after, attempt given trace machine = .error (.fault (.outOfMemory machine.index)) after ∧
          after.memory = machine.memory ∧
          ∀ memory : Memory, memory.size = machine.memory.size →
            execute instruction trace { machine with memory := memory } =
              .error (.fault (.outOfMemory machine.index)) { after with memory := memory }
  /-- Carried out or refused, an instruction leaves the bytes alone that it does not touch. -/
  writes : ∀ given instruction trace, machine.Carries given instruction → instruction.InRange →
    machine.fault = none → ∀ address, ¬ machine.Touches instruction address →
      ((attempt given trace).leaves machine).memory.byteAt address = machine.memory.byteAt address
  /-- On another memory that holds the same bytes where it touches them, an instruction does the
  same. -/
  reads : ∀ given instruction trace, machine.Carries given instruction → instruction.InRange →
    machine.fault = none → ∀ memory : Memory, memory.size = machine.memory.size →
      (∀ address, machine.Touches instruction address →
        memory.byteAt address = machine.memory.byteAt address) →
          (Likeness.ofMemories machine.memory memory).Meets (attempt given trace machine)
            (execute instruction trace { machine with memory := memory })

theorem Intact.onward (intact : machine.Intact) (index : machine.index ≤ Layout.indexTop) :
    machine.Onward where
  moves deeds last trail steady := by
    rw [(trail.index intact index steady).2, Int.min_comm]
    rfl
  rises earlier middle later last trail rest steady := by
    obtain ⟨-, reached⟩ := trail.index intact index fun deed member =>
      steady deed (List.mem_append_left _ member)
    obtain ⟨forward, moved⟩ := rest.index (trail.intact intact) (by omega) fun deed member =>
      steady deed (List.mem_append_right _ member)
    omega
  escapes given instruction trace count carries range running room touched positive escaped := by
    have obstacle := obstacle?_of_escaped intact room touched positive escaped
    have refused := execute_of_obstacle intact running carries.idle range obstacle trace rfl
    exact ⟨_, (attempt_of_carries running carries).trans refused, rfl, fun memory =>
      execute_of_obstacle intact running carries.idle range obstacle trace⟩
  writes given instruction trace carries range running address untouched := by
    have outcome := execute_outcome instruction trace (fun _ => intact.proper) running carries.idle
    rw [Routine.leaves, attempt_of_carries running carries]
    cases obstacle : machine.obstacle? instruction with
    | none =>
      rw [outcome.eq_ok range obstacle]
      have untouched := byteAt_of_untouched intact obstacle untouched
      exact untouched
    | some fault => rw [outcome.eq_error range obstacle]; rfl
  reads given instruction trace carries range running memory size agrees := by
    rw [attempt_of_carries running carries]
    exact meets_of_agreeing intact running carries.idle range size agrees

/-- Whatever was asked of a machine before, its index only moves on from where it stands, and
nothing in memory is touched but the block at the index, if it lies in memory. -/
theorem index_never_wraps {rom : Option (List UInt8)} {speed : Option ClockSpeed}
    {dialect : Dialect} {bytes : Nat → UInt8} {new : Machine}
    (built : boot rom speed dialect bytes = .ok new) (actions : List Action)
    (ordinary : ∀ action ∈ actions, action.Ordinary) (reached : machine = new.actAll actions) :
    machine.Onward := by
  have wellFormed : machine.WellFormed := reached ▸ wellFormed_of_boot built actions ordinary
  exact wellFormed.onward wellFormed.index.2

/-- An index at the last byte of memory is moved past it, where three digits cannot be stored. -/
theorem index_never_wraps_past :
    let dialect := Dialect.ofChoices none none none none
    let add := Instruction.ofFields .addIndex 0xF11E
    let store := Instruction.ofFields .storeDecimal 0xF133
    let actions := [.execute (Instruction.ofFields .loadIndex 0xAFFF) true,
      .execute (Instruction.ofFields .loadByte 0x61FF) true]
    ∃ new last after, boot none none dialect (fun _ => 0) = .ok new ∧
      let machine := new.actAll actions
      machine.index = 0xFFF ∧ Trail machine [.cycle machine (some add)] last ∧
        last.index = 0x10FE ∧
        attempt (some store) true last = .error (.fault (.outOfMemory 0x10FE)) after := by
  intro dialect add store actions
  let new := booted Pace.standard dialect (fun _ => 0) []
  have built : boot none none dialect (fun _ => 0) = .ok new := boot_blank _ _
  have intact : new.Intact := intact_booted _ _ _ _
  have range (operation : Operation) (opcode : Int) :
      (Instruction.ofFields operation opcode).InRange := Instruction.inRange_ofFields _ _
  let pointed := new.retired (Instruction.ofFields .loadIndex 0xAFFF)
  let machine := pointed.retired (Instruction.ofFields .loadByte 0x61FF)
  let last := machine.retired add
  have first : (new.act (.execute (Instruction.ofFields .loadIndex 0xAFFF) true)).2 = pointed :=
    act_of_clear intact rfl rfl (range _ _) rfl true
  have intact' : pointed.Intact := first ▸ intact.actAll [_]
  have second : (pointed.act (.execute (Instruction.ofFields .loadByte 0x61FF) true)).2 = machine :=
    act_of_clear intact' rfl rfl (range _ _) rfl true
  have reached : machine = new.actAll actions := by
    show machine = ((new.act _).2.act _).2
    rw [first, second]
  have moving : last = new.actAll (actions ++ [.execute add true]) := by
    show last = (((new.act _).2.act _).2.act _).2
    rw [first, second]
    exact (act_of_clear (reached ▸ intact.actAll actions) rfl rfl (range _ _) rfl true).symm
  have ordinary : ∀ action ∈ actions ++ [.execute add true], action.Ordinary := by
    simp [actions, Action.Within, range, add]
  have steady : AllSteady [.cycle machine (some add)] := by
    rintro deed member instruction ⟨before, same⟩
    cases List.mem_singleton.mp member
    cases same
    exact ⟨range _ _, by decide, by decide⟩
  have trail : Trail machine [.cycle machine (some add)] last :=
    .cons (.cycle (some add) true _ (attempt_of_clear (reached ▸ intact.actAll actions) rfl rfl
      (range _ _) rfl true)) .nil
  have onward := index_never_wraps built actions
    (fun action member => ordinary action (List.mem_append_left _ member)) reached
  have moved := onward.moves _ _ trail steady
  obtain ⟨after, refused, -⟩ := (index_never_wraps built _ ordinary moving).escapes (some store)
    store true 3 ⟨rfl, .inl rfl⟩ (range _ _) rfl (show Layout.InProgram 0x208 by decide) rfl
    (by decide) (show (0x1000 : Int) ≤ 0x10FE by decide)
  exact ⟨new, last, after, built, reached ▸ rfl, reached ▸ trail, moved, refused⟩

end Chip8.Machine
