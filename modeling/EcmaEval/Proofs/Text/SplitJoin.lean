import Mathlib
import EcmaEval.Library.Call
import EcmaEval.Proofs.Conduct.Arrays
import EcmaEval.Proofs.Text.CodeUnits

/-!
# Splitting and joining

A string is split by its code units, and nothing is lost: its pieces with the separator between them
are the string again.  The pieces are joined as texts, which have no surrogate that stands alone.
So what `split` and `join` give with one separator is the string only if every piece can be written
as a text.

## Main definitions

* `UnitString.mend`: units with the replacement character for every surrogate that stands alone
* `Engine.splitJoin`: splits a string and joins the pieces

## Main results

* `Engine.intercalate_pieces`: the pieces of a string make up the string
* `Engine.splitJoin_restores_iff`: when splitting and joining gives the string back
-/

namespace EcmaEval

namespace UnitString

/-! ## Units of texts -/

/-- The unit of the replacement character. -/
def replacementUnit : UInt16 := 0xFFFD

/-- The unit that is written for a unit which is no part of a pair. -/
def mendUnit (u : UInt16) : UInt16 :=
  if isHighSurrogate u || isLowSurrogate u then replacementUnit else u

/-- The units with the replacement character for every surrogate that stands alone. -/
def mend : List UInt16 → List UInt16
  | [] => []
  | [u] => [mendUnit u]
  | u :: v :: rest =>
    if isHighSurrogate u && isLowSurrogate v then u :: v :: mend rest
    else mendUnit u :: mend (v :: rest)

theorem length_mend (units : List UInt16) : (mend units).length = units.length := by
  induction units using mend.induct with
  | case1 => rfl
  | case2 u => rfl
  | case3 u v rest hpair ih => simp [mend, hpair, ih]
  | case4 u v rest hpair ih =>
    rw [mend, if_neg hpair, List.length_cons, ih]
    rfl

theorem mendUnit_eq_self_iff {u : UInt16} :
    mendUnit u = u ↔ isHighSurrogate u = false ∧ isLowSurrogate u = false := by
  unfold mendUnit
  split
  · next hsurrogate =>
    constructor
    · rintro rfl
      exact absurd hsurrogate (by decide)
    · rintro ⟨hhigh, hlow⟩
      simp [hhigh, hlow] at hsurrogate
  · next hplain => simpa using hplain

/-- Units are mended to themselves if no surrogate among them stands alone. -/
theorem mend_eq_self_iff {units : List UInt16} : mend units = units ↔ PairedUnits units := by
  constructor
  · intro h
    induction units using mend.induct with
    | case1 => exact .nil
    | case2 u =>
      obtain ⟨hhigh, hlow⟩ := mendUnit_eq_self_iff.mp (List.cons.inj h).1
      exact .unit hhigh hlow .nil
    | case3 u v rest hpair ih =>
      rw [mend, if_pos hpair] at h
      obtain ⟨hhigh, hlow⟩ := Bool.and_eq_true_iff.mp hpair
      exact .pair hhigh hlow (ih (List.cons.inj (List.cons.inj h).2).2)
    | case4 u v rest hpair ih =>
      rw [mend, if_neg hpair] at h
      obtain ⟨hhigh, hlow⟩ := mendUnit_eq_self_iff.mp (List.cons.inj h).1
      exact .unit hhigh hlow (ih (List.cons.inj h).2)
  · intro h
    induction h with
    | nil => rfl
    | @unit u rest hhigh hlow hrest ih =>
      have hu := mendUnit_eq_self_iff.mpr ⟨hhigh, hlow⟩
      cases rest with
      | nil => rw [mend, hu]
      | cons v rest => rw [mend, if_neg (by simp [hhigh]), hu, ih]
    | @pair high low rest hhigh hlow hrest ih => rw [mend, if_pos (by simp [hhigh, hlow]), ih]

theorem unitsOfChar_replacement : unitsOfChar replacement = [replacementUnit] := by decide

/-- The units of the character that is read from a unit alone. -/
theorem unitsOfChar_mendUnit (u : UInt16) :
    unitsOfChar (if isHighSurrogate u || isLowSurrogate u then replacement
      else Char.ofNat u.toNat) = [mendUnit u] := by
  unfold mendUnit
  split
  · exact unitsOfChar_replacement
  · next hplain =>
    rw [Bool.or_eq_true, not_or, Bool.not_eq_true, Bool.not_eq_true] at hplain
    exact unitsOfChar_ofNat hplain.1 hplain.2

/-- The units of the text that is read from units are those units mended. -/
theorem flatMap_decodeOnto (units : List UInt16) (seen : String) :
    (decodeOnto seen units).toList.flatMap unitsOfChar =
      seen.toList.flatMap unitsOfChar ++ mend units := by
  induction units using mend.induct generalizing seen with
  | case1 => simp [decodeOnto, mend]
  | case2 u =>
    rw [decodeOnto, mend, String.toList_push, List.flatMap_append, List.flatMap_singleton,
      unitsOfChar_mendUnit]
  | case3 u v rest hpair ih =>
    obtain ⟨hhigh, hlow⟩ := Bool.and_eq_true_iff.mp hpair
    rw [decodeOnto, if_pos hpair, ih, mend, if_pos hpair, String.toList_push, List.flatMap_append,
      List.flatMap_singleton, unitsOfChar_ofSurrogates hhigh hlow, List.append_assoc]
    rfl
  | case4 u v rest hpair ih =>
    have hread : decodeOnto seen (u :: v :: rest) =
        decodeOnto (seen.push (if isHighSurrogate u || isLowSurrogate u then replacement
          else Char.ofNat u.toNat)) (v :: rest) := by
      rw [decodeOnto, if_neg hpair]
      split <;> rfl
    rw [hread, ih, mend, if_neg hpair, String.toList_push, List.flatMap_append,
      List.flatMap_singleton, unitsOfChar_mendUnit, List.append_assoc]
    rfl

theorem units_ofString (s : String) :
    (ofString s).units.toList = s.toList.flatMap unitsOfChar := by
  rw [ofString, toList_units_ofChars]

/-- What a string becomes as a text and back. -/
theorem units_ofString_text (s : UnitString) :
    (ofString s.text).units.toList = mend s.units.toList := by
  rw [units_ofString, text, flatMap_decodeOnto]
  rfl

/-- The units of texts with a separator between them. -/
theorem units_intercalate (separator : String) (texts : List String) :
    (ofString (separator.intercalate texts)).units.toList =
      (ofString separator).units.toList.intercalate (texts.map (ofString · |>.units.toList)) := by
  rw [units_ofString, String.toList_intercalate]
  induction texts with
  | nil => rfl
  | cons s rest ih =>
    cases rest with
    | nil => simp [units_ofString]
    | cons t rest =>
      rw [List.map_cons, List.map_cons, List.intercalate_cons_cons, List.flatMap_append,
        List.flatMap_append, ← List.map_cons, ih]
      simp only [List.map_cons, List.intercalate_cons_cons, units_ofString]

/-! ## Paired units -/

theorem PairedUnits.tail {u : UInt16} {rest : List UInt16} (h : PairedUnits (u :: rest))
    (hhigh : isHighSurrogate u = false) : PairedUnits rest := by
  cases h with
  | unit _ _ hrest => exact hrest
  | pair hpair _ _ => exact absurd hpair (by simp [hhigh])

/-- What follows paired units is paired if all of it is. -/
theorem PairedUnits.of_append {units rest : List UInt16} (h : PairedUnits (units ++ rest))
    (hunits : PairedUnits units) : PairedUnits rest := by
  induction hunits with
  | nil => exact h
  | unit hhigh hlow hrest ih => exact ih (h.tail hhigh)
  | pair hhigh hlow hrest ih =>
    cases h with
    | unit hunit _ _ => exact absurd hunit (by simp [hhigh])
    | pair _ _ h => exact ih h

/-- Paired units are cut into paired units wherever no second half of a pair follows. -/
theorem PairedUnits.of_append_cons {units : List UInt16} {u : UInt16} {rest : List UInt16}
    (hlow : isLowSurrogate u = false) (h : PairedUnits (units ++ u :: rest)) :
    PairedUnits units := by
  induction units using mend.induct with
  | case1 => exact .nil
  | case2 v =>
    cases h with
    | unit hhigh hlow _ => exact .unit hhigh hlow .nil
    | pair _ hpair _ => exact absurd hpair (by simp [hlow])
  | case3 v w units hpair ih =>
    obtain ⟨hhigh, hsecond⟩ := Bool.and_eq_true_iff.mp hpair
    cases h with
    | unit hunit _ _ => exact absurd hunit (by simp [hhigh])
    | pair _ _ h => exact .pair hhigh hsecond (ih h)
  | case4 v w units hpair ih =>
    cases h with
    | unit hhigh hsecond h => exact .unit hhigh hsecond (ih h)
    | pair hhigh hsecond _ => exact absurd (Bool.and_eq_true_iff.mpr ⟨hhigh, hsecond⟩) hpair

/-- What stands in front of a text with units and what stands behind it is paired if all of it
is. -/
theorem PairedUnits.around {before middle behind : List UInt16} (hmiddle : PairedUnits middle)
    (hne : middle ≠ []) (h : PairedUnits (before ++ (middle ++ behind))) :
    PairedUnits before ∧ PairedUnits behind := by
  have hbefore : PairedUnits before := by
    cases hmiddle with
    | nil => exact absurd rfl hne
    | unit _ hlow _ => exact .of_append_cons hlow h
    | pair hhigh _ _ =>
      refine .of_append_cons ?_ h
      rw [Bool.eq_false_iff]
      intro hlow
      rw [isHighSurrogate_of_isLowSurrogate hlow] at hhigh
      cases hhigh
  exact ⟨hbefore, (h.of_append hbefore).of_append hmiddle⟩

/-! ## Lists with a separator -/

theorem length_intercalate_map {f : List UInt16 → List UInt16} (hf : ∀ l, (f l).length = l.length)
    (separator : List UInt16) (lists : List (List UInt16)) :
    ((f separator).intercalate (lists.map f)).length = (separator.intercalate lists).length := by
  induction lists with
  | nil => rfl
  | cons l rest ih =>
    cases rest with
    | nil => simp [hf]
    | cons l' rest => simp_all [List.intercalate_cons_cons]

/-- Lists that are changed without getting longer or shorter make up the same list only if none of
them is changed. -/
theorem intercalate_map_eq_iff {f : List UInt16 → List UInt16} (hf : ∀ l, (f l).length = l.length)
    {separator : List UInt16} {lists : List (List UInt16)} :
    (f separator).intercalate (lists.map f) = separator.intercalate lists ↔
      (∀ l ∈ lists, f l = l) ∧ (2 ≤ lists.length → f separator = separator) := by
  induction lists with
  | nil => simp
  | cons l rest ih =>
    cases rest with
    | nil => simp
    | cons l' rest =>
      simp only [List.map_cons, List.intercalate_cons_cons, List.append_assoc] at ih ⊢
      constructor
      · intro h
        obtain ⟨hl, htail⟩ := List.append_inj h (hf l)
        obtain ⟨hseparator, hrest⟩ := List.append_inj htail (hf separator)
        obtain ⟨hall, -⟩ := ih.mp hrest
        exact ⟨List.forall_mem_cons.mpr ⟨hl, hall⟩, fun _ => hseparator⟩
      · rintro ⟨hall, hseparator⟩
        obtain ⟨hl, hrest⟩ := List.forall_mem_cons.mp hall
        have hsep := hseparator (by simp)
        rw [hl, hsep, ← ih.mpr ⟨hrest, fun _ => hsep⟩, hsep]

theorem intercalate_empty (lists : List (List UInt16)) :
    ([] : List UInt16).intercalate lists = lists.flatten := by
  induction lists with
  | nil => rfl
  | cons l rest ih =>
    cases rest with
    | nil => simp
    | cons l' rest =>
      rw [List.intercalate_cons_cons, ih, List.append_nil]
      rfl

/-- Lists of which some at the end are left out make up a shorter list, if there is something in
each of them or between them. -/
theorem length_intercalate_take_lt {separator : List UInt16} {lists : List (List UInt16)}
    (hlists : separator ≠ [] ∨ ∀ l ∈ lists, l ≠ []) {count : Nat} (hpos : 0 < count)
    (hcount : count < lists.length) :
    (separator.intercalate (lists.take count)).length < (separator.intercalate lists).length := by
  induction lists generalizing count with
  | nil => exact absurd hcount (Nat.not_lt_zero _)
  | cons l rest ih =>
    cases rest with
    | nil => exact absurd hcount (by simp; omega)
    | cons l' rest =>
      cases count with
      | zero => exact absurd hpos (Nat.lt_irrefl 0)
      | succ count =>
        rw [List.intercalate_cons_cons, List.take_succ_cons]
        cases count with
        | zero =>
          have hmore : 0 < separator.length + (separator.intercalate (l' :: rest)).length := by
            rcases hlists with hseparator | hall
            · exact Nat.add_pos_left (List.length_pos_iff.mpr hseparator) _
            · have hl' : 0 < l'.length := List.length_pos_iff.mpr (hall l' (by simp))
              refine Nat.add_pos_right _ (Nat.lt_of_lt_of_le hl' ?_)
              cases rest with
              | nil => simp
              | cons l'' rest => simp [List.intercalate_cons_cons]
          simp only [List.take_zero, List.intercalate_singleton, List.length_append]
          omega
        | succ count =>
          have hrest := ih (hlists.imp_right fun hall l hl => hall l (List.mem_cons_of_mem _ hl))
            (Nat.succ_pos count) (Nat.lt_of_succ_lt_succ hcount)
          rw [List.take_succ_cons] at hrest ⊢
          rw [List.intercalate_cons_cons, List.length_append, List.length_append]
          simp only [List.length_append]
          omega

/-! ## Where a string occurs -/

variable {s t : UnitString} {start found : Nat}

theorem findFrom_eq_some {count i : Nat} (h : findFrom s t count i = some found) :
    i ≤ found ∧ s.occursAt t found = true := by
  induction count generalizing i with
  | zero => exact nomatch h
  | succ count ih =>
    rw [findFrom] at h
    split at h
    · next hoccurs =>
      obtain rfl := Option.some.inj h
      exact ⟨Nat.le_refl i, hoccurs⟩
    · obtain ⟨hle, hoccurs⟩ := ih h
      exact ⟨Nat.le_of_succ_le hle, hoccurs⟩

theorem toList_slice (s : UnitString) (start stop : Nat) :
    (s.slice start stop).units.toList = (s.units.toList.take stop).drop start := by
  rw [slice, Array.toList_extract, List.extract_eq_drop_take']

theorem drop_take_append_drop (units : List UInt16) {i j : Nat} (h : i ≤ j) :
    (units.take j).drop i ++ units.drop j = units.drop i := by
  have hrest : units.drop j = (units.drop i).drop (j - i) := by
    rw [List.drop_drop, Nat.add_sub_cancel' h]
  rw [List.drop_take, hrest, List.take_append_drop]

/-- A string that is found stands between what is before it and what is behind it. -/
theorem slice_of_found (h : s.indexOf? t start = some found) :
    (s.slice start found).units.toList ++ (t.units.toList ++
      (s.slice (found + t.size) s.size).units.toList) = (s.slice start s.size).units.toList := by
  obtain ⟨hle, hoccurs⟩ := findFrom_eq_some h
  have hhere : s.slice found (found + t.size) = t := by simpa [occursAt] using hoccurs
  have hall : s.units.toList.take s.size = s.units.toList := by simp [size]
  have hbehind : t.units.toList ++ s.units.toList.drop (found + t.size) =
      s.units.toList.drop found := by
    have hthere : t.units.toList = (s.units.toList.take (found + t.size)).drop found := by
      rw [← toList_slice, hhere]
    rw [hthere, drop_take_append_drop _ (Nat.le_add_right found _)]
  rw [toList_slice, toList_slice, toList_slice, hall, hbehind, drop_take_append_drop _ hle]

end UnitString

namespace Engine

open EcmaEval.Action UnitString

variable (engine : Engine) (s separator : UnitString)

/-! ## Pieces -/

theorem splitUnits_ne_nil (fuel start : Nat) : splitUnits s separator fuel start ≠ [] := by
  cases fuel with
  | zero => simp [splitUnits]
  | succ fuel =>
    rw [splitUnits]
    split <;> simp

/-- What is split off from an index on makes up the rest of the string. -/
theorem intercalate_splitUnits (fuel start : Nat) :
    separator.units.toList.intercalate ((splitUnits s separator fuel start).map (·.units.toList)) =
      (s.slice start s.size).units.toList := by
  induction fuel generalizing start with
  | zero => simp [splitUnits]
  | succ fuel ih =>
    rw [splitUnits]
    split
    · next found hfound =>
      rw [List.map_cons, List.intercalate_cons_of_ne_nil, ih, List.append_assoc,
        slice_of_found hfound]
      rw [Ne, List.map_eq_nil_iff]
      exact splitUnits_ne_nil s separator fuel _
    · simp

/-- A text is split into texts between occurrences of a text. -/
theorem isPaired_of_splitUnits (hseparator : separator.IsPaired)
    (hne : separator.units.toList ≠ []) {fuel start : Nat} (h : (s.slice start s.size).IsPaired) :
    ∀ part ∈ splitUnits s separator fuel start, part.IsPaired := by
  induction fuel generalizing start with
  | zero =>
    intro part hpart
    rw [splitUnits, List.mem_singleton] at hpart
    rwa [hpart]
  | succ fuel ih =>
    intro part hpart
    rw [splitUnits] at hpart
    split at hpart
    · next found hfound =>
      rw [UnitString.IsPaired, ← slice_of_found hfound] at h
      obtain ⟨hbefore, hbehind⟩ := hseparator.around hne h
      rcases List.mem_cons.mp hpart with rfl | hrest
      · exact hbefore
      · exact ih hbehind part hrest
    · rw [List.mem_singleton] at hpart
      rwa [hpart]

theorem flatten_unitAt (count : Nat) :
    ((List.range count).map fun i => (s.unitAt i).units.toList).flatten =
      s.units.toList.take count := by
  induction count with
  | zero => rfl
  | succ count ih =>
    rw [List.range_succ, List.map_append, List.flatten_append, ih, List.map_singleton,
      List.flatten_singleton, unitAt, toList_slice, List.drop_take, Nat.add_sub_cancel_left,
      ← List.take_add]

/-- The pieces of a string with the separator between them are the string. -/
theorem intercalate_pieces :
    separator.units.toList.intercalate ((pieces s separator).map (·.units.toList)) =
      s.units.toList := by
  unfold pieces
  split
  · next hempty =>
    have hnil : separator.units.toList = [] := by simpa [UnitString.isEmpty] using hempty
    rw [hnil, intercalate_empty, List.map_map]
    exact (flatten_unitAt s s.size).trans (by simp [UnitString.size])
  · rw [intercalate_splitUnits, toList_slice]
    simp [UnitString.size]

/-! ## Calls -/

/-- Splits a string and joins the pieces, with one separator for both. -/
def splitJoin : Action Value := do
  let parts ← engine.callBuiltin (.string (.method .split)) (.string s) [.string separator]
  engine.callBuiltin (.array .join) parts [.string separator]

/-- Splitting makes an array of the pieces, no more of them than an array has indices. -/
theorem callBuiltin_split (m : Machine) :
    engine.callBuiltin (.string (.method .split)) (.string s) [.string separator] m =
      newArrayOf (((pieces s separator).take maxPieces).map .string) m := rfl

theorem joinedUnits_string (part : UnitString) (m : Machine) :
    engine.joinedUnits (.string part) m = .ok part.text m := rfl

theorem mapM_joinedUnits (parts : List UnitString) (m : Machine) :
    (parts.map Value.string).mapM engine.joinedUnits m = .ok (parts.map (·.text)) m := by
  induction parts with
  | nil => rfl
  | cons part rest ih =>
    rw [List.map_cons, List.mapM_cons, Discipline.bind_apply, joinedUnits_string]
    dsimp only
    rw [Discipline.bind_apply, ih]
    rfl

/-- Where there are more pieces than one, each of them or the separator has units. -/
theorem ne_nil_of_pieces : separator.units.toList ≠ [] ∨
    ∀ l ∈ (pieces s separator).map (·.units.toList), l ≠ [] := by
  by_cases hempty : separator.isEmpty = true
  · right
    intro l hl
    rw [pieces, if_pos hempty, List.map_map, List.mem_map] at hl
    obtain ⟨i, hi, rfl⟩ := hl
    have hlt : i < s.units.toList.length := by simpa [UnitString.size] using hi
    rw [Function.comp_apply, unitAt, toList_slice, List.drop_take, Nat.add_sub_cancel_left, Ne,
      List.take_eq_nil_iff, List.drop_eq_nil_iff]
    omega
  · left
    simpa [UnitString.isEmpty] using hempty

variable {engine separator} in
/-- Strings in an array that is not being joined are joined as texts. -/
theorem callArray_join {id : ObjectId} {parts : List UnitString} {m : Machine}
    (helements : (m.heap.get id).elements? = some (parts.map Value.string).toArray)
    (hidle : id ∉ m.joining) :
    engine.callArray .join (.object id) [.string separator] m =
      .ok (.ofText (separator.text.intercalate (parts.map (·.text)))) m := by
  have hreceived : receivedArray (.object id) .join m = .ok id m :=
    receivedArray_of_elements helements .join
  have hjoin : engine.joinArray id separator.text m =
      .ok (.ofText (separator.text.intercalate (parts.map (·.text)))) m := by
    have hasked : isJoining id m = .ok false m := by simp [isJoining, hidle]
    have hparts : whileJoining id ((parts.map Value.string).mapM engine.joinedUnits) m =
        .ok (parts.map (·.text)) m := by
      unfold whileJoining
      rw [mapM_joinedUnits]
      rfl
    unfold joinArray elementsOf
    rw [Discipline.bind_apply, hasked]
    dsimp only
    rw [if_neg Bool.false_ne_true, readHeap_bind, helements]
    dsimp only [Option.getD_some]
    rw [Discipline.bind_apply, hparts]
    rfl
  unfold callArray
  dsimp only
  rw [Discipline.bind_apply, hreceived]
  exact hjoin

/-- What splitting and joining gives: the pieces mended, with the mended separator between them. -/
theorem splitJoin_apply {m : Machine} (hjoining : ∀ id ∈ m.joining, id.index < m.heap.size) :
    ∃ joined m', engine.splitJoin s separator m = .ok (.string joined) m' ∧
      joined.units.toList = (mend separator.units.toList).intercalate
        ((((pieces s separator).take maxPieces).map (·.units.toList)).map mend) := by
  let parts := (pieces s separator).take maxPieces
  let array := Object.new (some m.realm.arrayPrototype) (.array (parts.map Value.string).toArray)
  let m' : Machine := { m with heap := (m.heap.allocate array).2 }
  have helements : (m'.heap.get ⟨m.heap.size⟩).elements? =
      some (parts.map Value.string).toArray := by
    rw [show m'.heap.get ⟨m.heap.size⟩ = array from m.heap.get_allocate_self array]
    rfl
  have hidle : (⟨m.heap.size⟩ : ObjectId) ∉ m'.joining := fun hmem =>
    absurd (hjoining _ hmem) (Nat.lt_irrefl _)
  refine ⟨.ofString (separator.text.intercalate (parts.map (·.text))), m', ?_, ?_⟩
  · unfold splitJoin
    rw [Discipline.bind_apply, callBuiltin_split]
    exact callArray_join helements hidle
  · rw [units_intercalate, units_ofString_text, List.map_map, List.map_map]
    congr 2
    funext part
    exact units_ofString_text part

/-- The pieces of a string make it up again when they are mended only if they need no mending and
are not too many. -/
theorem intercalate_mend_eq_iff :
    (mend separator.units.toList).intercalate
        ((((pieces s separator).take maxPieces).map (·.units.toList)).map mend) =
      s.units.toList ↔
    (pieces s separator).length ≤ maxPieces ∧ (∀ part ∈ pieces s separator, part.IsPaired) ∧
      (2 ≤ (pieces s separator).length → separator.IsPaired) := by
  by_cases hcount : (pieces s separator).length ≤ maxPieces
  · have hwhole := @intercalate_map_eq_iff mend length_mend separator.units.toList
      ((pieces s separator).map (·.units.toList))
    rw [intercalate_pieces, List.length_map, List.forall_mem_map] at hwhole
    rw [List.take_of_length_le hcount, hwhole]
    simp only [mend_eq_self_iff, UnitString.IsPaired, hcount, true_and]
  · refine iff_of_false (fun heq => ?_) fun hall => hcount hall.1
    have hlength := congrArg List.length heq
    have hmany : maxPieces < ((pieces s separator).map (·.units.toList)).length := by
      rw [List.length_map]
      omega
    have hlt := length_intercalate_take_lt (ne_nil_of_pieces s separator) (by decide) hmany
    rw [length_intercalate_map length_mend, ← intercalate_pieces s separator,
      List.map_take] at hlength
    omega

/-- A text is split into texts by a text that is not empty. -/
theorem isPaired_of_pieces (hs : s.IsPaired) (hseparator : separator.IsPaired)
    (hne : separator.units.toList ≠ []) : ∀ part ∈ pieces s separator, part.IsPaired := by
  have hempty : separator.isEmpty ≠ true := fun hempty =>
    hne (by simpa [UnitString.isEmpty] using hempty)
  rw [pieces, if_neg hempty]
  refine isPaired_of_splitUnits s separator hseparator hne ?_
  rw [UnitString.IsPaired, toList_slice, UnitString.size, ← Array.length_toList, List.take_length]
  exact hs

/-- **Splitting and joining with one separator.**  They give the mended pieces of a string with the
mended separator between them, and never end without a value.  That is the string exactly if all
pieces are texts, and so is the separator if it stands between any, and the pieces are not too many.
A text that is split at a text which is not empty is among these. -/
theorem splitJoin_restores_iff {m : Machine} (hjoining : ∀ id ∈ m.joining, id.index < m.heap.size) :
    ∃ joined m', engine.splitJoin s separator m = .ok (.string joined) m' ∧
      joined.units.toList = (mend separator.units.toList).intercalate
        ((((pieces s separator).take maxPieces).map (·.units.toList)).map mend) ∧
      (joined = s ↔ (pieces s separator).length ≤ maxPieces ∧
        (∀ part ∈ pieces s separator, part.IsPaired) ∧
        (2 ≤ (pieces s separator).length → separator.IsPaired)) ∧
      (s.IsPaired → separator.IsPaired → separator.isEmpty = false →
        (pieces s separator).length ≤ maxPieces → joined = s) := by
  obtain ⟨joined, m', hrun, hjoined⟩ := splitJoin_apply engine s separator hjoining
  have hiff := intercalate_mend_eq_iff s separator
  have hunits : joined = s ↔ joined.units.toList = s.units.toList := by
    obtain ⟨units⟩ := joined
    obtain ⟨units'⟩ := s
    simp
  rw [← hjoined, ← hunits] at hiff
  refine ⟨joined, m', hrun, hjoined, hiff, fun hs hseparator hempty hcount => ?_⟩
  have hne : separator.units.toList ≠ [] := by
    simpa [UnitString.isEmpty] using hempty
  exact hiff.mpr ⟨hcount, isPaired_of_pieces s separator hs hseparator hne, fun _ => hseparator⟩

/-- Splitting between all units cuts a pair, and joining does not put its halves together again.
The same text is restored where it is split at another one. -/
theorem splitJoin_restores_cut_pair :
    (∀ id ∈ Machine.empty.joining, id.index < Machine.empty.heap.size) ∧
    (∃ joined m', idle.splitJoin (.ofString "a😀") ∅ .empty = .ok (.string joined) m' ∧
      joined.units.toList = [0x61, replacementUnit, replacementUnit] ∧
      joined ≠ .ofString "a😀") ∧
    ∃ joined m', idle.splitJoin (.ofString "a😀") (.ofString "a") .empty = .ok (.string joined) m' ∧
      joined = .ofString "a😀" := by
  have hjoining : ∀ id ∈ Machine.empty.joining, id.index < Machine.empty.heap.size := by
    intro id hid
    cases hid
  obtain ⟨joined, m, hrun, hjoined, -⟩ :=
    splitJoin_restores_iff idle (.ofString "a😀") ∅ hjoining
  obtain ⟨joined', m', hrun', -, -, htext⟩ :=
    splitJoin_restores_iff idle (.ofString "a😀") (.ofString "a") hjoining
  refine ⟨hjoining, ⟨joined, m, hrun, hjoined.trans (by decide +kernel), fun heq => ?_⟩,
    joined', m', hrun', ?_⟩
  · rw [heq] at hjoined
    exact absurd hjoined (by decide +kernel)
  · exact htext (isPaired_iff.mpr ⟨_, rfl⟩) (isPaired_iff.mpr ⟨_, rfl⟩) (by decide +kernel)
      (by decide +kernel)

end Engine

end EcmaEval
