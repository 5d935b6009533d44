/-
This file proves what is a keymap, and where its keys go.

A keymap is sixteen integers parted by commas, no two of them the same number,
however they are spelled. A text that has sixteen pieces and is no keymap is
refused for the first piece from the left that is no integer or repeats an
earlier one; nothing behind that piece matters. Since no number comes twice,
every host key stands for one key at most and every key of the keypad has its
own host key. So events of host keys reach one key each, in whatever order they
come, and none of them can be refused by the keypad.
-/

import Mathlib.Data.List.Forall2
import Mathlib.Data.List.Nodup
import Mathlib.Data.Set.Function
import Chip8.Host.Controls
import Chip8.Proofs.Integers

namespace Chip8.Keymap

open Text (Spells)

/-- Why a piece is refused after others that have been read. -/
inductive Refused (seen : List Int) (piece : List Char) : KeymapError → Prop
  | notInteger (none : ∀ code, ¬ Spells piece code) : Refused seen piece .notInteger
  | duplicate {code : Int} (spelled : Spells piece code) (again : code ∈ seen) :
      Refused seen piece .duplicate

/-- What can be said against the piece at a place: it is no integer, or it is one that stands at an
earlier place. -/
inductive Objection (pieces : List (List Char)) (place : Nat) : KeymapError → Prop
  | notInteger {piece : List Char} (here : pieces[place]? = some piece)
      (none : ∀ code, ¬ Spells piece code) : Objection pieces place .notInteger
  | duplicate {piece other : List Char} {earlier : Nat} {code : Int}
      (here : pieces[place]? = some piece) (spelled : Spells piece code)
      (before : earlier < place) (there : pieces[earlier]? = some other)
      (also : Spells other code) : Objection pieces place .duplicate

/-- The first objection from the left. -/
structure First (pieces : List (List Char)) (place : Nat) (error : KeymapError) : Prop where
  objection : Objection pieces place error
  least : ∀ earlier < place, ∀ other, ¬ Objection pieces earlier other

variable {texts before after : List (List Char)} {seen codes new : List Int} {piece : List Char}
  {error other : KeymapError} {place place' : Nat} {code code' : Int} {keymap : Keymap}

/-! ### Pieces -/

/-- The pieces are what stands between commas. -/
theorem pieces_eq_splitOn (text : List Char) : pieces text = text.splitOn ',' := by
  induction text with
  | nil => rfl
  | cons char text inductionHypothesis =>
    rw [pieces, inductionHypothesis, List.splitOn, List.splitOn,
      List.splitOnP_cons_eq_if_modifyHead]
    by_cases comma : char = ','
    · rw [if_pos comma, if_pos (beq_iff_eq.mpr comma)]
    · obtain ⟨piece, others, split⟩ :=
        List.exists_cons_of_ne_nil (List.splitOnP_ne_nil (fun char => char == ',') text)
      rw [if_neg comma, if_neg (mt beq_iff_eq.mp comma), split]
      rfl

theorem integer?_ofList :
    Text.integer? (String.ofList piece) = some code ↔ Spells piece code := by
  rw [Text.integer?_eq_some_iff, String.toList_ofList]

theorem spells_unique (first : Spells piece code) (second : Spells piece code') : code = code' :=
  Option.some.inj ((integer?_ofList.mpr first).symm.trans (integer?_ofList.mpr second))

/-! ### Reading from the left -/

theorem readCodes_cons (spelled : Spells piece code) (fresh : code ∉ seen) :
    readCodes seen (piece :: texts) = readCodes (seen ++ [code]) texts := by
  rw [readCodes, integer?_ofList.mpr spelled]
  exact if_neg fresh

/-- A piece is refused, or its number is new. -/
theorem refused_or_fresh (seen : List Int) (piece : List Char) :
    (∃ error, Refused seen piece error ∧ ∀ texts,
        readCodes seen (piece :: texts) = .error error) ∨
      ∃ code, Spells piece code ∧ code ∉ seen := by
  cases read : Text.integer? (String.ofList piece) with
  | none =>
    refine .inl ⟨.notInteger, .notInteger fun code spelled => ?_, fun texts => ?_⟩
    · rw [integer?_ofList.mpr spelled] at read
      cases read
    · rw [readCodes, read]
  | some code =>
    have spelled := integer?_ofList.mp read
    by_cases again : code ∈ seen
    · refine .inl ⟨.duplicate, .duplicate spelled again, fun texts => ?_⟩
      rw [readCodes, read]
      exact if_pos again
    · exact .inr ⟨code, spelled, again⟩

theorem nodup_concat (distinct : seen.Nodup) (fresh : code ∉ seen) : (seen ++ [code]).Nodup :=
  List.nodup_append.mpr ⟨distinct, List.nodup_singleton code, by
    rintro other member _ (_ | _) rfl
    · exact fresh member
    · contradiction⟩

/-- Reading goes on up to the first piece that is refused. -/
theorem readCodes_cases (distinct : seen.Nodup) (texts : List (List Char)) :
    (∃ new, readCodes seen texts = .ok (seen ++ new) ∧ List.Forall₂ Spells texts new ∧
        (seen ++ new).Nodup) ∨
      ∃ before piece after new error, readCodes seen texts = .error error ∧
        texts = before ++ piece :: after ∧ List.Forall₂ Spells before new ∧
          (seen ++ new).Nodup ∧ Refused (seen ++ new) piece error := by
  induction texts generalizing seen with
  | nil => exact .inl ⟨[], by rw [List.append_nil]; rfl, .nil, by rwa [List.append_nil]⟩
  | cons piece texts inductionHypothesis =>
    rcases refused_or_fresh seen piece with ⟨error, refused, read⟩ | ⟨code, spelled, fresh⟩
    · exact .inr ⟨[], piece, texts, [], error, read texts, rfl, .nil, by rwa [List.append_nil],
        by rwa [List.append_nil]⟩
    · rw [readCodes_cons spelled fresh]
      rcases inductionHypothesis (nodup_concat distinct fresh) with
        ⟨new, read, spells, apart⟩ |
          ⟨before, piece', after, new, error, read, rfl, spells, apart, refused⟩
      · rw [List.append_assoc] at read apart
        exact .inl ⟨code :: new, read, .cons spelled spells, apart⟩
      · rw [List.append_assoc] at apart refused
        exact .inr ⟨piece :: before, piece', after, code :: new, error, read, rfl,
          .cons spelled spells, apart, refused⟩

/-! ### The first objection -/

theorem code_at (spells : List.Forall₂ Spells before new) (here : before[place]? = some piece) :
    ∃ code, new[place]? = some code ∧ Spells piece code := by
  obtain ⟨inside, rfl⟩ := List.getElem?_eq_some_iff.mp here
  have within : place < new.length := spells.length_eq ▸ inside
  exact ⟨new[place], List.getElem?_eq_getElem within, spells.get inside within⟩

/-- Nothing can be said against pieces that spell different numbers. -/
theorem no_objection (spells : List.Forall₂ Spells before new) (distinct : new.Nodup)
    (inside : place < before.length) : ¬ Objection (before ++ after) place error := by
  intro objection
  cases objection with
  | notInteger here none =>
    rw [List.getElem?_append_left inside] at here
    obtain ⟨code, -, spelled⟩ := code_at spells here
    exact none code spelled
  | duplicate here spelled earlier there also =>
    rw [List.getElem?_append_left inside] at here
    rw [List.getElem?_append_left (earlier.trans inside)] at there
    obtain ⟨code, at_place, same⟩ := code_at spells here
    obtain ⟨code', at_earlier, same'⟩ := code_at spells there
    cases spells_unique spelled same
    cases spells_unique also same'
    have within : place < new.length := spells.length_eq ▸ inside
    have equal := (List.getElem?_inj within distinct).mp (at_place.trans at_earlier.symm)
    exact absurd equal earlier.ne'

theorem first_of_refused (spells : List.Forall₂ Spells before new) (distinct : new.Nodup)
    (refused : Refused new piece error) :
    First (before ++ piece :: after) before.length error where
  objection := by
    have here : (before ++ piece :: after)[before.length]? = some piece := by simp
    cases refused with
    | notInteger none => exact .notInteger here none
    | duplicate spelled again =>
      obtain ⟨earlier, inside, rfl⟩ := List.getElem_of_mem again
      have within : earlier < before.length := spells.length_eq ▸ inside
      have there : (before ++ piece :: after)[earlier]? = some before[earlier] := by
        rw [List.getElem?_append_left within, List.getElem?_eq_getElem within]
      exact .duplicate here spelled within there (spells.get within inside)
  least _ earlier _ := no_objection spells distinct earlier

theorem Objection.unique (first : Objection texts place error)
    (second : Objection texts place other) : error = other := by
  cases first with
  | notInteger here none =>
    cases second with
    | notInteger => rfl
    | duplicate there spelled =>
      cases Option.some.inj (here.symm.trans there)
      exact absurd spelled (none _)
  | duplicate here spelled =>
    cases second with
    | notInteger there none =>
      cases Option.some.inj (here.symm.trans there)
      exact absurd spelled (none _)
    | duplicate => rfl

/-- Two first objections are one. -/
theorem First.unique (first : First texts place error) (second : First texts place' other) :
    error = other := by
  rcases lt_trichotomy place place' with before | rfl | after
  · exact absurd first.objection (second.least place before error)
  · exact first.objection.unique second.objection
  · exact absurd second.objection (first.least place' after other)

/-! ### Keymaps -/

theorem parse_of_length {text : String} (sixteen : (text.toList.splitOn ',').length = 16) :
    parse text = (readCodes [] (text.toList.splitOn ',')).map Keymap.mk := by
  rw [parse, pieces_eq_splitOn]
  exact if_pos sixteen

theorem parse_of_length_ne {text : String} (other : (text.toList.splitOn ',').length ≠ 16) :
    parse text = .error .wrongCount := by
  rw [parse, pieces_eq_splitOn]
  exact if_neg other

/-- A text of sixteen pieces is a keymap, or there is a first objection to it. -/
theorem parse_cases {text : String} (sixteen : (text.toList.splitOn ',').length = 16) :
    (∃ keymap, parse text = .ok keymap ∧
        List.Forall₂ Spells (text.toList.splitOn ',') keymap.codes ∧ keymap.codes.Nodup) ∨
      ∃ place error, parse text = .error error ∧ First (text.toList.splitOn ',') place error := by
  rw [parse_of_length sixteen]
  rcases readCodes_cases List.nodup_nil (text.toList.splitOn ',') with
    ⟨codes, read, spells, distinct⟩ |
      ⟨before, piece, after, codes, error, read, whole, spells, distinct, refused⟩
  · rw [List.nil_append] at read distinct
    exact .inl ⟨⟨codes⟩, by rw [read]; rfl, spells, distinct⟩
  · rw [List.nil_append] at distinct refused
    refine .inr ⟨before.length, error, by rw [read]; rfl, ?_⟩
    rw [whole]
    exact first_of_refused spells distinct refused

theorem First.not_spelled (first : First texts place error)
    (spells : List.Forall₂ Spells texts codes) : ¬ codes.Nodup := by
  intro distinct
  have inside : place < texts.length := by
    cases first.objection with
    | notInteger here | duplicate here => exact (List.getElem?_eq_some_iff.mp here).1
  have clear : ¬ Objection (texts ++ []) place error := no_objection spells distinct inside
  rw [List.append_nil] at clear
  exact clear first.objection

theorem parse_eq_ok_iff {text : String} :
    parse text = .ok keymap ↔ (text.toList.splitOn ',').length = 16 ∧
      List.Forall₂ Spells (text.toList.splitOn ',') keymap.codes ∧ keymap.codes.Nodup := by
  have unique : Relator.RightUnique Spells := fun _ _ _ => spells_unique
  by_cases sixteen : (text.toList.splitOn ',').length = 16
  · rcases parse_cases sixteen with ⟨other, read, spells, distinct⟩ | ⟨place, error, read, first⟩
    · rw [read, Except.ok.injEq]
      constructor
      · rintro rfl
        exact ⟨sixteen, spells, distinct⟩
      · rintro ⟨-, also, -⟩
        exact congrArg Keymap.mk (unique.forall₂ spells also)
    · rw [read]
      exact ⟨nofun, fun ⟨_, spells, distinct⟩ => absurd distinct (first.not_spelled spells)⟩
  · rw [parse_of_length_ne sixteen]
    exact ⟨nofun, fun accepted => absurd accepted.1 sixteen⟩

theorem parse_eq_error_iff {text : String} :
    parse text = .error error ↔
      ((text.toList.splitOn ',').length ≠ 16 ∧ error = .wrongCount) ∨
        ((text.toList.splitOn ',').length = 16 ∧
          ∃ place, First (text.toList.splitOn ',') place error) := by
  by_cases sixteen : (text.toList.splitOn ',').length = 16
  · simp only [sixteen, ne_eq, not_true_eq_false, false_and, true_and, false_or]
    rcases parse_cases sixteen with ⟨keymap, read, spells, distinct⟩ | ⟨place, other, read, first⟩
    · rw [read]
      exact ⟨nofun, fun ⟨_, first⟩ => absurd distinct (first.not_spelled spells)⟩
    · rw [read, Except.error.injEq]
      constructor
      · rintro rfl
        exact ⟨place, first⟩
      · rintro ⟨_, also⟩
        exact first.unique also
  · simp only [sixteen, ne_eq, not_false_eq_true, true_and, false_and, or_false]
    rw [parse_of_length_ne sixteen, Except.error.injEq, eq_comm]

/-! ### Where keys go -/

/-- Sixteen different codes. -/
structure Proper (keymap : Keymap) : Prop where
  length : keymap.codes.length = 16
  distinct : keymap.codes.Nodup

theorem proper_of_parse {text : String} (parsed : parse text = .ok keymap) : keymap.Proper := by
  obtain ⟨sixteen, spells, distinct⟩ := parse_eq_ok_iff.mp parsed
  exact ⟨spells.length_eq ▸ sixteen, distinct⟩

namespace Proper

variable {key : Fin 16}

theorem key?_eq_some_iff (proper : keymap.Proper) :
    keymap.key? code = some key ↔ keymap.codes[key.val]? = some code := by
  unfold key?
  rw [Option.bind_eq_some_iff, List.getElem?_eq_some_iff]
  constructor
  · rintro ⟨index, found, known⟩
    obtain ⟨inside, here, -⟩ := List.idxOf?_eq_some_iff.mp found
    split at known
    · cases known
      exact ⟨inside, here⟩
    · cases known
  · rintro ⟨inside, rfl⟩
    refine ⟨key.val, List.idxOf?_eq_some_iff.mpr ⟨inside, rfl, fun earlier before same => ?_⟩,
      dif_pos key.isLt⟩
    exact absurd (proper.distinct.getElem_inj_iff.mp same) before.ne

theorem mem_codes_iff (proper : keymap.Proper) :
    code ∈ keymap.codes ↔ ∃ key, keymap.key? code = some key := by
  constructor
  · intro member
    obtain ⟨index, inside, here⟩ := List.getElem_of_mem member
    refine ⟨⟨index, proper.length ▸ inside⟩, proper.key?_eq_some_iff.mpr ?_⟩
    exact List.getElem?_eq_some_iff.mpr ⟨inside, here⟩
  · rintro ⟨key, found⟩
    exact List.mem_of_getElem? (proper.key?_eq_some_iff.mp found)

theorem key?_eq_none_iff (proper : keymap.Proper) :
    keymap.key? code = none ↔ code ∉ keymap.codes := by
  rw [proper.mem_codes_iff, ← Option.isSome_iff_exists, Bool.not_eq_true,
    Option.isSome_eq_false_iff, Option.isNone_iff_eq_none]

theorem code_of_key (proper : keymap.Proper) (key : Fin 16) :
    ∃ code, keymap.codes[key.val]? = some code :=
  ⟨_, List.getElem?_eq_getElem (by rw [proper.length]; exact key.isLt)⟩

/-- The codes stand for the sixteen keys, one for each. -/
theorem bijective (proper : keymap.Proper) :
    Set.BijOn keymap.key? {code | code ∈ keymap.codes} (Set.range some) := by
  refine ⟨fun code member => ?_, fun code member other _ same => ?_, ?_⟩
  · obtain ⟨key, found⟩ := proper.mem_codes_iff.mp member
    exact ⟨key, found.symm⟩
  · obtain ⟨key, found⟩ := proper.mem_codes_iff.mp member
    have first := proper.key?_eq_some_iff.mp found
    have second := proper.key?_eq_some_iff.mp (same.symm.trans found)
    exact Option.some.inj (first.symm.trans second)
  · rintro _ ⟨key, rfl⟩
    obtain ⟨code, here⟩ := proper.code_of_key key
    exact ⟨code, List.mem_of_getElem? here, proper.key?_eq_some_iff.mpr here⟩

end Proper

/-! ### Host keys one after the other -/

/-- What becomes of a host key that goes down or up: the answer whether it is a key of the keypad,
and the keypad after it. -/
structure Routes (codes : List Int) (before : Keypad) (code : Int) (down : Bool)
    (result : Bool × Keypad) : Prop where
  answers : result.1 = true ↔ code ∈ codes
  /-- It reaches the key at its own place, which the keypad does not refuse, and no other. -/
  reaches : ∀ key : Fin 16, codes[key.val]? = some code →
    before.setKey key.val down = .ok result.2 ∧
      (∀ other, result.2.isDown other = if other = key then down else before.isDown other) ∧
      result.2.latch = if down = true ∧ before.isDown key = false then some key else before.latch
  spares : code ∉ codes → result.2 = before

theorem isDown_set (keypad : Keypad) (key other : Fin 16) (down : Bool) :
    (keypad.set key down).isDown other = if other = key then down else keypad.isDown other := by
  split
  · next same => rw [same, Keypad.isDown_set_self]
  · next apart => exact Keypad.isDown_set_other keypad key other down (Ne.symm apart)

theorem latch_set (keypad : Keypad) (key : Fin 16) (down : Bool) :
    (keypad.set key down).latch =
      if down = true ∧ keypad.isDown key = false then some key else keypad.latch := by
  unfold Keypad.set
  cases down <;> cases keypad.isDown key <;> rfl

theorem Proper.routes {controls : Controls} (proper : controls.keymap.Proper) (keypad : Keypad)
    (code : Int) (down : Bool) :
    Routes controls.keymap.codes keypad code down (controls.hostKey keypad code down) := by
  unfold Controls.hostKey
  cases found : controls.keymap.key? code with
  | none =>
    have absent := proper.key?_eq_none_iff.mp found
    exact {
      answers := ⟨fun impossible => (by cases impossible), fun member => absurd member absent⟩
      reaches := fun key here => absurd (List.mem_of_getElem? here) absent
      spares := fun _ => rfl }
  | some key =>
    have member := proper.mem_codes_iff.mpr ⟨key, found⟩
    refine ⟨⟨fun _ => member, fun _ => rfl⟩, fun other here => ?_,
      fun absent => absurd member absent⟩
    cases found.symm.trans (proper.key?_eq_some_iff.mpr here)
    exact ⟨keypad.setKey_eq_ok key down, fun other => isDown_set keypad key other down,
      latch_set keypad key down⟩

/-- Host keys leave everything but the keypad alone. -/
theorem controls_obeyAll (controls : Controls) (keypad : Keypad) (calls : List (Int × Bool)) :
    (Controls.obeyAll (controls, keypad) (calls.map fun call => .hostKey call.1 call.2)).1 =
      controls := by
  induction calls generalizing keypad with
  | nil => rfl
  | cons call calls inductionHypothesis => exact inductionHypothesis _

/-- What a text makes of host keys: whether it is a keymap, what it is refused for if it is none,
and where the keys go if it is one. -/
structure Exact (text : String) : Prop where
  accepts : ∀ keymap, parse text = .ok keymap ↔ (text.toList.splitOn ',').length = 16 ∧
    List.Forall₂ Spells (text.toList.splitOn ',') keymap.codes ∧ keymap.codes.Nodup
  refuses : ∀ error, parse text = .error error ↔
    ((text.toList.splitOn ',').length ≠ 16 ∧ error = .wrongCount) ∨
      ((text.toList.splitOn ',').length = 16 ∧
        ∃ place, First (text.toList.splitOn ',') place error)
  bijective : ∀ keymap, parse text = .ok keymap →
    Set.BijOn keymap.key? {code | code ∈ keymap.codes} (Set.range some) ∧
      ∀ code (key : Fin 16), keymap.key? code = some key ↔ keymap.codes[key.val]? = some code
  /-- After any host keys that came before, the next one goes where it belongs. -/
  routes : ∀ controls : Controls, parse text = .ok controls.keymap →
    ∀ (keypad : Keypad) (calls : List (Int × Bool)) (code : Int) (down : Bool),
      let before := Controls.obeyAll (controls, keypad)
        (calls.map fun call => .hostKey call.1 call.2)
      before.1 = controls ∧
        Routes controls.keymap.codes before.2 code down (controls.hostKey before.2 code down)

theorem reading_exact (text : String) : Exact text where
  accepts _ := parse_eq_ok_iff
  refuses _ := parse_eq_error_iff
  bijective _ parsed := ⟨(proper_of_parse parsed).bijective,
    fun _ _ => (proper_of_parse parsed).key?_eq_some_iff⟩
  routes _ parsed keypad calls code down :=
    ⟨controls_obeyAll _ keypad calls, (proper_of_parse parsed).routes _ code down⟩

/-- A number that comes again in another spelling, before a piece that is no number at all. -/
theorem reading_exact_respelled :
    let text := "48, +048,x,1,2,3,4,5,6,7,8,9,10,11,12,13"
    parse text = .error .duplicate ∧
      ∃ place, First (text.toList.splitOn ',') place .duplicate := by
  intro text
  have refused : parse text = .error .duplicate := by decide
  have sixteen : (text.toList.splitOn ',').length = 16 := by decide
  rcases ((reading_exact text).refuses _).mp refused with ⟨other, -⟩ | ⟨-, first⟩
  · exact absurd sixteen other
  · exact ⟨refused, first⟩

end Chip8.Keymap
