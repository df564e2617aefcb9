import EcmaEval.Proofs.Number.Nearest
import EcmaEval.Proofs.Object.Copies
import EcmaEval.Proofs.Text.SplitJoin

/-!
# Pieces of strings

A string is split at a separator from left to right.  The search for the separator goes on behind the
last place where it was found, so that two separators never overlap and what is behind the last one
holds no other.  There is one list of pieces of that kind only.  A call gives its front, up to the limit
that is asked for.

## Main definitions

* `UnitString.StandsAt`: units stand among others at an index
* `UnitString.findWithin?`: the search with an access that fails outside of the string
* `UnitString.CutsInto`: units are cut at the leftmost separators
* `Engine.LimitsPieces`: the number of pieces that the arguments of a call ask for
* `Engine.SearchesFrom`: the indices from which a string is searched

## Main results

* `UnitString.indexOf?_eq_some_iff`: the search finds the least index
* `UnitString.CutsInto.unique`: units are cut in one way only
* `Engine.cutsInto_iff`: the pieces of a string are what its units are cut into
* `Engine.SearchesFrom.add_size_lt`: a search needs no greater indices than words of 64 bits
* `Engine.split_gives_pieces`: a call gives the first pieces
-/

namespace EcmaEval

namespace UnitString

variable {part units separator : List UInt16} {s t : UnitString} {start count found i : Nat}

/-! ## Where units stand -/

/-- Units stand among others, with some in front and some behind. -/
def StandsAt (part units : List UInt16) (i : Nat) : Prop :=
  ∃ front back, units = front ++ (part ++ back) ∧ front.length = i

theorem standsAt_iff_occursAt :
    StandsAt t.units.toList s.units.toList i ↔ i + t.size ≤ s.size ∧ s.occursAt t i = true := by
  have hoccurs : s.occursAt t i = true ↔
      (s.units.toList.take (i + t.size)).drop i = t.units.toList := by
    rw [← toList_slice, occursAt, beq_iff_eq]
    obtain ⟨part⟩ := t
    exact ⟨fun h => by rw [h], fun h => congrArg UnitString.mk (Array.toList_inj.mp h)⟩
  have hsize (u : UnitString) : u.size = u.units.toList.length := u.units.length_toList.symm
  rw [hoccurs, hsize, hsize]
  constructor
  · rintro ⟨front, back, heq, rfl⟩
    rw [heq]
    refine ⟨by simp, ?_⟩
    rw [← List.append_assoc, ← List.length_append, List.take_left, List.drop_left]
  · rintro ⟨hle, heq⟩
    refine ⟨s.units.toList.take i, s.units.toList.drop (i + t.units.toList.length), ?_, ?_⟩
    · have hrest := drop_take_append_drop s.units.toList (Nat.le_add_right i t.units.toList.length)
      rw [heq] at hrest
      rw [hrest, List.take_append_drop]
    · rw [List.length_take]
      omega

theorem standsAt_of_drop (hle : start ≤ units.length) (h : StandsAt part (units.drop start) i) :
    StandsAt part units (start + i) := by
  obtain ⟨front, back, heq, rfl⟩ := h
  refine ⟨units.take start ++ front, back, ?_, ?_⟩
  · rw [List.append_assoc, ← heq, List.take_append_drop]
  · rw [List.length_append, List.length_take, Nat.min_eq_left hle]

/-- A string without units holds no string that has some. -/
theorem not_standsAt_nil (hne : part ≠ []) : ¬ StandsAt part [] i := by
  rintro ⟨front, back, heq, -⟩
  obtain ⟨-, hrest⟩ := List.append_eq_nil_iff.mp heq.symm
  exact hne (List.append_eq_nil_iff.mp hrest).1

/-! ## The search -/

/-- The search goes through a range of indices. -/
theorem findFrom_eq_find? :
    s.findFrom t count i = (List.range' i count).find? (s.occursAt t) := by
  induction count generalizing i with
  | zero => rfl
  | succ count ih =>
    rw [findFrom, List.range'_succ, List.find?_cons, ih]
    cases s.occursAt t i <;> rfl

/-- The indices that the search goes through are those at which there is room for the units. -/
theorem standsAt_iff_of_le (hle : start ≤ i) :
    StandsAt t.units.toList s.units.toList i ↔
      i < start + (s.size + 1 - t.size - start) ∧ s.occursAt t i = true := by
  rw [standsAt_iff_occursAt]
  exact and_congr_left fun _ => by omega

/-- The search finds the least index from the start on. -/
theorem indexOf?_eq_some_iff :
    s.indexOf? t start = some found ↔
      IsLeast {i | start ≤ i ∧ StandsAt t.units.toList s.units.toList i} found := by
  rw [indexOf?, findFrom_eq_find?, List.find?_range'_eq_some, List.mem_range'_1]
  -- Units that stand somewhere have room there, so the range leaves no place out.
  constructor
  · rintro ⟨hoccurs, ⟨hle, hlt⟩, hleast⟩
    refine ⟨⟨hle, (standsAt_iff_of_le hle).mpr ⟨hlt, hoccurs⟩⟩, fun i hi => ?_⟩
    by_contra hbefore
    have hnot := hleast i hi.1 (Nat.lt_of_not_le hbefore)
    rw [((standsAt_iff_of_le hi.1).mp hi.2).2] at hnot
    cases hnot
  · rintro ⟨⟨hle, hstands⟩, hleast⟩
    obtain ⟨hlt, hoccurs⟩ := (standsAt_iff_of_le hle).mp hstands
    refine ⟨hoccurs, ⟨hle, hlt⟩, fun j hj hjlt => ?_⟩
    by_contra hhere
    have hstands : StandsAt t.units.toList s.units.toList j :=
      (standsAt_iff_of_le hj).mpr ⟨hjlt.trans hlt, by simpa using hhere⟩
    exact Nat.not_le_of_lt hjlt (hleast ⟨hj, hstands⟩)

theorem indexOf?_eq_none_iff :
    s.indexOf? t start = none ↔
      ∀ i, start ≤ i → ¬ StandsAt t.units.toList s.units.toList i := by
  rw [indexOf?, findFrom_eq_find?, List.find?_range'_eq_none]
  refine forall₂_congr fun i hle => ?_
  rw [standsAt_iff_of_le hle, not_and, Bool.not_eq_true, Bool.not_eq_true']

/-- The string without units is found wherever the search starts. -/
theorem indexOf?_empty (hle : start ≤ s.size) : s.indexOf? ∅ start = some start := by
  refine indexOf?_eq_some_iff.mpr ⟨⟨Nat.le_refl start, ?_⟩, fun i hi => hi.1⟩
  refine ⟨s.units.toList.take start, s.units.toList.drop start, ?_, ?_⟩
  · exact (List.take_append_drop start _).symm
  · rw [List.length_take, Array.length_toList]
    exact Nat.min_eq_left hle

/-- The units between two indices, if these are in order and within the string. -/
def unitsWithin? (s : UnitString) (start stop : Nat) : Option UnitString :=
  if start ≤ stop ∧ stop ≤ s.size then some (s.slice start stop) else none

/-- The search among some indices, which fails where it reads units outside of the string. -/
def findWithin? (s t : UnitString) : (count i : Nat) → Option (Option Nat)
  | 0, _ => some none
  | count + 1, i => do
    let units ← s.unitsWithin? i (i + t.size)
    if units == t then some (some i) else findWithin? s t count (i + 1)

theorem findWithin?_eq_some (h : i + count + t.size ≤ s.size + 1) :
    s.findWithin? t count i = some (s.findFrom t count i) := by
  induction count generalizing i with
  | zero => rfl
  | succ count ih =>
    have hunits : s.unitsWithin? i (i + t.size) = some (s.slice i (i + t.size)) :=
      if_pos ⟨Nat.le_add_right i _, by omega⟩
    rw [findWithin?, hunits, findFrom, ih (by omega), occursAt]
    dsimp only [Option.bind_eq_bind, Option.bind_some]
    split <;> rfl

/-- The search does not read outside of the string. -/
theorem findWithin?_eq_indexOf? :
    s.findWithin? t (s.size + 1 - t.size - start) start = some (s.indexOf? t start) := by
  by_cases hroom : start + t.size ≤ s.size
  · exact findWithin?_eq_some (by omega)
  · rw [indexOf?, show s.size + 1 - t.size - start = 0 by omega]
    rfl

/-! ## Cutting units -/

/-- Units are cut into parts.  The parts with the separator between them are the units.  From the front
on, and from the end of every separator on, the first place where a separator stands is the end of the
next part, and none stands in the last part. -/
structure CutsInto (separator units : List UInt16) (parts : List (List UInt16)) : Prop where
  ne_nil : parts ≠ []
  joined : separator.intercalate parts = units
  leftmost : ∀ before part behind, parts = before ++ part :: behind → behind ≠ [] →
    IsLeast {i | StandsAt separator (separator.intercalate (part :: behind)) i} part.length
  last : ∀ before part, parts = before ++ [part] → ∀ i, ¬ StandsAt separator part i

namespace CutsInto

variable {rest : List UInt16} {parts parts' : List (List UInt16)}

protected theorem singleton (h : ∀ i, ¬ StandsAt separator units i) :
    CutsInto separator units [units] where
  ne_nil := List.cons_ne_nil _ _
  joined := List.intercalate_singleton
  leftmost before part behind heq hne := by
    cases before with
    | nil => exact absurd (List.cons.inj heq).2.symm hne
    | cons _ before => exact absurd (List.cons.inj heq).2 (by simp)
  last before part heq := by
    cases before with
    | nil =>
      obtain ⟨rfl, -⟩ := List.cons.inj heq
      exact h
    | cons _ before => exact absurd (List.cons.inj heq).2 (by simp)

/-- A part in front of the leftmost separator goes before the parts of what is behind that. -/
protected theorem cons (hrest : CutsInto separator rest parts)
    (hleast : ∀ i, StandsAt separator (part ++ (separator ++ rest)) i → part.length ≤ i) :
    CutsInto separator (part ++ (separator ++ rest)) (part :: parts) where
  ne_nil := List.cons_ne_nil _ _
  joined := by rw [List.intercalate_cons_of_ne_nil hrest.ne_nil, hrest.joined, List.append_assoc]
  leftmost before first behind heq hne := by
    cases before with
    | nil =>
      obtain ⟨rfl, rfl⟩ := List.cons.inj heq
      rw [List.intercalate_cons_of_ne_nil hne, hrest.joined, List.append_assoc]
      exact ⟨⟨part, rest, rfl, rfl⟩, hleast⟩
    | cons _ before => exact hrest.leftmost before first behind (List.cons.inj heq).2 hne
  last before final heq := by
    cases before with
    | nil => exact absurd (List.cons.inj heq).2 hrest.ne_nil
    | cons _ before => exact hrest.last before final (List.cons.inj heq).2

theorem tail (h : CutsInto separator units (part :: parts)) (hne : parts ≠ []) :
    CutsInto separator (separator.intercalate parts) parts where
  ne_nil := hne
  joined := rfl
  leftmost before first behind heq :=
    h.leftmost (part :: before) first behind (by rw [heq, List.cons_append])
  last before final heq := h.last (part :: before) final (by rw [heq, List.cons_append])

/-- Where units are cut at all, the first separator stands behind the first part. -/
theorem isLeast_length (h : CutsInto separator units (part :: parts)) (hne : parts ≠ []) :
    IsLeast {i | StandsAt separator units i} part.length := by
  have hleast := h.leftmost [] part parts rfl hne
  rwa [h.joined] at hleast

theorem eq_append (h : CutsInto separator units (part :: parts)) (hne : parts ≠ []) :
    units = part ++ (separator ++ separator.intercalate parts) := by
  rw [← h.joined, List.intercalate_cons_of_ne_nil hne, List.append_assoc]

/-- Units that hold no separator are not cut. -/
theorem eq_singleton (h : CutsInto separator units parts)
    (hnone : ∀ i, ¬ StandsAt separator units i) : parts = [units] := by
  cases parts with
  | nil => exact absurd rfl h.ne_nil
  | cons part parts =>
    cases parts with
    | nil => rw [← h.joined, List.intercalate_singleton]
    | cons next parts => exact absurd (h.isLeast_length (List.cons_ne_nil _ _)).1 (hnone _)

/-- Units are cut in one way only: the first parts end at the same separator, and what is behind it is
cut in one way. -/
theorem unique (h : CutsInto separator units parts) (h' : CutsInto separator units parts') :
    parts = parts' := by
  induction parts generalizing units parts' with
  | nil => exact absurd rfl h.ne_nil
  | cons part parts ih =>
    by_cases hne : parts = []
    · subst hne
      have hunits : part = units := by rw [← h.joined, List.intercalate_singleton]
      subst hunits
      exact (h'.eq_singleton (h.last [] part rfl)).symm
    -- Both ways have the leftmost separator behind their first parts, and agree there.
    · have hleast := h.isLeast_length hne
      cases parts' with
      | nil => exact absurd rfl h'.ne_nil
      | cons part' parts' =>
        have hne' : parts' ≠ [] := by
          rintro rfl
          have hunits : part' = units := by rw [← h'.joined, List.intercalate_singleton]
          subst hunits
          exact h'.last [] part' rfl _ hleast.1
        have hlength : part.length = part'.length := hleast.unique (h'.isLeast_length hne')
        obtain ⟨rfl, hrest⟩ := List.append_inj ((h.eq_append hne).symm.trans (h'.eq_append hne'))
          hlength
        have htail := h'.tail hne'
        rw [← List.append_cancel_left hrest] at htail
        rw [ih (h.tail hne) htail]

end CutsInto

end UnitString

namespace Engine

open EcmaEval.Action UnitString

variable {s separator : UnitString} {fuel start : Nat}

/-! ## Pieces -/

/-- What is split off from an index on is what the rest of the string is cut into.  A separator has
units, so that with every one the rest gets shorter. -/
theorem cutsInto_splitUnits (hne : separator.units.toList ≠ []) (hstart : start ≤ s.size)
    (hfuel : s.size ≤ start + fuel) :
    CutsInto separator.units.toList (s.units.toList.drop start)
      ((splitUnits s separator fuel start).map (·.units.toList)) := by
  have hdrop (i : Nat) : (s.slice i s.size).units.toList = s.units.toList.drop i := by
    rw [toList_slice, UnitString.size, ← Array.length_toList, List.take_length]
  have hbound : start ≤ s.units.toList.length := by rwa [Array.length_toList]
  -- With no steps left there are no units left either.
  induction fuel generalizing start with
  | zero =>
    have hend : s.units.toList.drop start = [] :=
      List.drop_eq_nil_iff.mpr (by rw [Array.length_toList]; exact hfuel)
    rw [splitUnits, List.map_singleton, hdrop, hend]
    exact .singleton fun i => not_standsAt_nil hne
  | succ fuel ih =>
    rw [splitUnits]
    split
    · next found hfound =>
      obtain ⟨⟨hle, hstands⟩, hleast⟩ := indexOf?_eq_some_iff.mp hfound
      have hwithin : found + separator.size ≤ s.size := (standsAt_iff_occursAt.mp hstands).1
      -- The separator takes at least one of the steps that are left.
      have hpos : 0 < separator.size := by
        rw [UnitString.size, ← Array.length_toList]
        exact List.length_pos_iff.mpr hne
      have hparts := slice_of_found hfound
      rw [hdrop, hdrop] at hparts
      rw [List.map_cons, ← hparts]
      refine (ih hwithin (by omega) (by rwa [Array.length_toList])).cons fun i hi => ?_
      rw [hparts] at hi
      have hsooner := hleast ⟨Nat.le_add_right start i, standsAt_of_drop hbound hi⟩
      rw [toList_slice, List.length_drop, List.length_take]
      omega
    · next hmissing =>
      rw [List.map_singleton, hdrop]
      refine .singleton fun i hi => ?_
      exact indexOf?_eq_none_iff.mp hmissing _ (Nat.le_add_right start i) (standsAt_of_drop hbound hi)

/-- The pieces of a string are the one list of parts that its units are cut into. -/
theorem cutsInto_iff (hne : separator.isEmpty = false) {parts : List (List UInt16)} :
    CutsInto separator.units.toList s.units.toList parts ↔
      parts = (pieces s separator).map (·.units.toList) := by
  have hunits : separator.units.toList ≠ [] := by simpa [UnitString.isEmpty] using hne
  have hpieces : CutsInto separator.units.toList s.units.toList
      ((pieces s separator).map (·.units.toList)) := by
    rw [pieces, if_neg (by rw [hne]; exact Bool.false_ne_true)]
    exact cutsInto_splitUnits hunits (Nat.zero_le _) (Nat.le_add_left _ _)
  constructor
  · exact fun hparts => hparts.unique hpieces
  · rintro rfl
    exact hpieces

/-- Without a separator every unit is a piece. -/
theorem pieces_empty : (pieces s ∅).map (·.units.toList) = s.units.toList.map ([·]) := by
  have hempty : pieces s ∅ = (List.range s.size).map s.unitAt := rfl
  rw [hempty, List.map_map]
  refine List.ext_getElem (by simp [UnitString.size]) fun i hi hi' => ?_
  rw [List.getElem_map, List.getElem_map, List.getElem_range, Function.comp_apply, unitAt,
    toList_slice, List.drop_take, Nat.add_sub_cancel_left, List.drop_eq_getElem_cons,
    List.take_succ_cons, List.take_zero]

/-! ## Calls -/

variable {engine : Engine} {args : List Value} {m m' : Machine} {limit : Nat}

/-- The greatest number of pieces that the arguments of a call ask for, and the machine behind its
conversion: the second argument as a word of 32 bits, or the greatest word. -/
inductive LimitsPieces (engine : Engine) (args : List Value) (m : Machine) : Nat → Machine → Prop where
  | missing (hlimit : Value.argument args 1 = .undefined) : LimitsPieces engine args m (2 ^ 32 - 1) m
  | given {x : Float} {m' : Machine} (hlimit : Value.argument args 1 ≠ .undefined)
    (hx : engine.toNumber (Value.argument args 1) m = .ok x m') :
    LimitsPieces engine args m (Number.toUInt32 x).toNat m'

theorem toInt?_ofNat {n : Nat} (hlt : n < 2 ^ 53) : Number.toInt? (Float.ofNat n) = some (n : Int) := by
  rcases Nat.eq_zero_or_pos n with rfl | hpos
  · decide +kernel
  · rw [Number.toInt?_eq_some_iff, Number.value?_ofNat hpos hlt, Int.cast_natCast]

theorem toNat_toUInt32_ofNat {n : Nat} (hlt : n < 2 ^ 32) :
    (Number.toUInt32 (Float.ofNat n)).toNat = n := by
  have hint : Number.toInt? (Float.ofNat n) = some (n : Int) := toInt?_ofNat (by omega)
  have htruncated : Number.truncatedInt (Float.ofNat n) = n := by
    unfold Number.toInt? at hint
    unfold Number.truncatedInt
    cases hparts : Number.parts? (Float.ofNat n) with
    | none => rw [hparts] at hint; cases hint
    | some b =>
      rw [hparts] at hint
      dsimp only at hint
      split at hint
      · exact Option.some.inj hint
      · cases hint
  rw [Number.toUInt32, htruncated, UInt32.toNat_ofNat']
  have hpow : Nat.pow 2 32 = 2 ^ 32 := rfl
  rw [hpow]
  omega

/-- A limit that is a word is taken as it is. -/
theorem limitsPieces_ofNat (v : Value) (hlt : limit < 2 ^ 32) :
    LimitsPieces engine [v, .ofNat limit] m limit m := by
  have hgiven : LimitsPieces engine [v, .ofNat limit] m
      (Number.toUInt32 (Float.ofNat limit)).toNat m := .given nofun rfl
  rwa [toNat_toUInt32_ofNat hlt] at hgiven

/-- A call makes an array of the first pieces. -/
theorem callBuiltin_split_of_limitsPieces (hseparator : Value.argument args 0 = .string separator)
    (hlimit : LimitsPieces engine args m limit m') :
    engine.callBuiltin (.string (.method .split)) (.string s) args m =
      .ok (.object ⟨m'.heap.size⟩)
        (m'.withArray (((pieces s separator).take limit).map .string).toArray) := by
  change engine.splitString s args m = _
  unfold splitString
  cases hlimit with
  | missing hlimit =>
    rw [hlimit, hseparator]
    rfl
  | given hlimit hx =>
    rw [hseparator]
    cases hvalue : Value.argument args 1 with
    | undefined => exact absurd hvalue hlimit
    | _ =>
      rw [hvalue] at hx
      exact Discipline.bind_of_ok hx

/-- The indices from which a string is searched for another one: its front, the index that an argument
names, and the end of a separator. -/
inductive SearchesFrom (engine : Engine) (s t : UnitString) : Nat → Prop where
  | front : SearchesFrom engine s t 0
  | named {arg : Option Value} {start : Nat} {m m' : Machine}
    (h : engine.clampedArgument arg 0 s.size m = .ok start m') : SearchesFrom engine s t start
  | behind {start found : Nat} (h : s.indexOf? t start = some found) :
    SearchesFrom engine s t (found + t.size)

theorem clampedArgument_le {arg : Option Value} {default size i : Nat}
    (h : engine.clampedArgument arg default size m = .ok i m') : i ≤ size := by
  obtain ⟨x, m₁, -, hx⟩ := Action.exists_of_bind h
  cases hx
  exact Number.clampIndex_le _ _

/-- A search starts within the string. -/
theorem SearchesFrom.le (h : SearchesFrom engine s t start) : start ≤ s.size := by
  cases h with
  | front => exact Nat.zero_le _
  | named h => exact clampedArgument_le h
  | behind h => exact (standsAt_iff_occursAt.mp (indexOf?_eq_some_iff.mp h).1.2).1

/-- Natural numbers stand for words here.  The end of what is searched for is no greater than a word
wherever a search starts, if the two sizes add up to a word. -/
theorem SearchesFrom.add_size_lt (h : SearchesFrom engine s t start)
    (hsize : s.size + t.size < 2 ^ 64) : start + t.size < 2 ^ 64 :=
  (Nat.add_le_add_right h.le _).trans_lt hsize

/-- **Pieces of strings.**  Splitting makes an array of the first pieces, up to the limit that the
arguments ask for, which is the greatest word if they ask for none.  With a separator that has units the
pieces are the one list of parts that the string is cut into at the leftmost separators, and without
one they are the single units.  The search finds the least index from its start on at which units
stand, nothing if there is none and its start if there is nothing to find, and reads no units outside
of the string. -/
theorem split_gives_pieces (engine : Engine) (s separator : UnitString) :
    (∀ args m limit m', Value.argument args 0 = .string separator →
      LimitsPieces engine args m limit m' →
      engine.callBuiltin (.string (.method .split)) (.string s) args m =
        .ok (.object ⟨m'.heap.size⟩)
          (m'.withArray (((pieces s separator).take limit).map .string).toArray)) ∧
    (∀ m, LimitsPieces engine [.string separator] m (2 ^ 32 - 1) m ∧
      ∀ limit < 2 ^ 32, LimitsPieces engine [.string separator, .ofNat limit] m limit m) ∧
    (separator.isEmpty = false → ∀ parts,
      CutsInto separator.units.toList s.units.toList parts ↔
        parts = (pieces s separator).map (·.units.toList)) ∧
    (pieces s ∅).map (·.units.toList) = s.units.toList.map ([·]) ∧
    ∀ t start,
      (∀ found, s.indexOf? t start = some found ↔
        IsLeast {i | start ≤ i ∧ StandsAt t.units.toList s.units.toList i} found) ∧
      (s.indexOf? t start = none ↔
        ∀ i, start ≤ i → ¬ StandsAt t.units.toList s.units.toList i) ∧
      (start ≤ s.size → s.indexOf? ∅ start = some start) ∧
      s.findWithin? t (s.size + 1 - t.size - start) start = some (s.indexOf? t start) :=
  ⟨fun _ _ _ _ => callBuiltin_split_of_limitsPieces,
    fun _ => ⟨.missing rfl, fun _ => limitsPieces_ofNat _⟩, fun hne _ => cutsInto_iff hne,
    pieces_empty, fun _ _ => ⟨fun _ => indexOf?_eq_some_iff, indexOf?_eq_none_iff, indexOf?_empty,
      findWithin?_eq_indexOf?⟩⟩

/-- Separators do not overlap: three units are cut once at two of them, and what is left over at the end
is a piece.  A limit of one leaves it out. -/
theorem split_gives_pieces_overlapping :
    CutsInto [0x61, 0x61] [0x61, 0x61, 0x61] [[], [0x61]] ∧
    ∃ m', idle.callBuiltin (.string (.method .split)) (.string (.ofString "aaa"))
        [.string (.ofString "aa"), .ofNat 1] .empty = .ok (.object ⟨0⟩) m' ∧
      (m'.heap.get ⟨0⟩).elements? = some #[.string ∅] := by
  obtain ⟨hcall, hlimit, hcut, -⟩ := split_gives_pieces idle (.ofString "aaa") (.ofString "aa")
  refine ⟨(hcut (by decide +kernel) _).mpr (by decide +kernel), _,
    hcall _ _ 1 _ rfl ((hlimit _).2 1 (by decide)), ?_⟩
  have hpieces : (pieces (.ofString "aaa") (.ofString "aa")).take 1 = [∅] := by decide +kernel
  rw [hpieces]
  exact Machine.elements?_withArray

end Engine

end EcmaEval
