import Mathlib.Data.List.Induction
import Mathlib.Data.List.Nodup
import Mathlib.Tactic.IntervalCases
import EcmaEval.Object.Basic

/-!
# The order of properties

An object that is no array keeps its properties in two containers, and each change works on both.
Behind any number of changes the list of the names has the names of the mapping, each of them once, in
the order in which they came.  What stands under a key is told by the changes of that key alone; a
change of a key that is there leaves every key in its place, and a key that was removed comes back
behind the others.

The listing of the keys is another order of the same keys: array indices come first, from the least
on.

## Main definitions

* `PropertyChange`: one of the five ways to change a property
* `PropertyChange.result`, `PropertyChange.order`: what a change leaves under its key, and how it
  moves the keys
* `PropertyStore.change`, `PropertyStore.changeAll`: the two containers behind changes
* `Object.Lists`: a listing of the keys of an object

## Main results

* `PropertyStore.Agrees.changeAll`: the containers stay in step
* `arrayIndex?_eq_some_iff`: an array index has one key
* `Object.properties_follow_changes`: any number of changes, one after the other
-/

namespace EcmaEval

variable {o : Object}

/-! ## Tables of properties -/

section Tables

variable {name : String}

theorem PropertyStore.mem_listed_iff {t : PropertyStore} {onlyEnumerable : Bool} :
    name ∈ t.listed onlyEnumerable ↔ name ∈ t.names ∧
      ∃ p, t.get? name = some p ∧ (onlyEnumerable = true → p.enumerable = true) := by
  rw [listed, List.mem_filter]
  cases t.get? name with
  | none => simp
  | some p => cases onlyEnumerable <;> simp

theorem PropertyStore.listed_sublist (t : PropertyStore) (onlyEnumerable : Bool) :
    (t.listed onlyEnumerable).Sublist t.names :=
  List.filter_sublist

/-- No name is passed over where the containers agree. -/
theorem PropertyStore.Agrees.listed_false {t : PropertyStore} (h : t.Agrees) :
    t.listed false = t.names := by
  refine List.filter_eq_self.mpr fun name hname => ?_
  obtain ⟨p, hp⟩ := Option.isSome_iff_exists.mp ((h.mem_iff name).mp hname)
  have hget : t.get? name = some p := hp
  rw [hget]
  rfl

namespace PropertyTable

variable (t : PropertyTable)

theorem nodup_names : t.names.Nodup := t.agrees.nodup

theorem mem_names_iff : name ∈ t.names ↔ (t.get? name).isSome := t.agrees.mem_iff name

theorem get?_insert (name other : String) (property : Property) :
    (t.insert name property).get? other = if other = name then some property else t.get? other :=
  t.toPropertyStore.get?_insert name other property

theorem names_insert (name : String) (property : Property) :
    (t.insert name property).names = if name ∈ t.names then t.names else t.names ++ [name] := by
  refine (t.toPropertyStore.names_insert name property).trans ?_
  simp only [t.agrees.mem_iff]

theorem mem_names_insert {other : String} {property : Property} :
    other ∈ (t.insert name property).names ↔ other = name ∨ other ∈ t.names := by
  rw [mem_names_iff, mem_names_iff, get?_insert]
  by_cases heq : other = name <;> simp [heq]

theorem mem_names_write {other : String} {value : Value} :
    other ∈ (t.write name value).names ↔ other = name ∨ other ∈ t.names := by
  rw [mem_names_iff, mem_names_iff, write, PropertyStore.get?_write]
  by_cases heq : other = name <;> simp [heq]

theorem mem_names_erase {other : String} :
    other ∈ (t.erase name).names ↔ other ≠ name ∧ other ∈ t.names := by
  rw [mem_names_iff, mem_names_iff, erase, PropertyStore.get?_erase]
  by_cases heq : other = name <;> simp [heq]

theorem write_of_absent {value : Value} (h : t.get? name = none) :
    t.write name value = t.insert name (.plain value) := by
  have hstore : t.toPropertyStore.write name value = t.toPropertyStore.insert name (.plain value) := by
    rw [PropertyStore.write, h]
  unfold write insert
  simp only [hstore]

end PropertyTable

end Tables

/-! ## Array indices -/

section Indices

variable {key : String}

theorem Number.natOfDigits_eq (cs : List Char) :
    natOfDigits cs = Nat.ofDigitChars 10 cs 0 := by
  rw [Nat.ofDigitChars_eq_foldl]
  rfl

theorem Number.isDecimalDigit_eq_isDigit (c : Char) : isDecimalDigit c = c.isDigit := by
  simp [isDecimalDigit, Char.isDigit, Char.le_def]

theorem Number.isDecimalDigit_of_mem_toDigits {n : Nat} {c : Char} (h : c ∈ Nat.toDigits 10 n) :
    isDecimalDigit c = true := by
  rw [isDecimalDigit_eq_isDigit]
  exact Nat.isDigit_of_mem_toDigits (by decide) (by decide) h

theorem Number.natOfDigits_toDigits (n : Nat) : natOfDigits (Nat.toDigits 10 n) = n := by
  rw [natOfDigits_eq]
  exact Nat.ofDigitChars_ten_toDigits

theorem Number.natOfDigits_append_singleton (cs : List Char) (c : Char) :
    natOfDigits (cs ++ [c]) = 10 * natOfDigits cs + (c.toNat - 0x30) := by
  simp [natOfDigits]

/-- A digit is the character of its value. -/
theorem Number.exists_digitChar {c : Char} (h : isDecimalDigit c = true) :
    c.toNat - 0x30 < 10 ∧ Nat.toDigits 10 (c.toNat - 0x30) = [c] := by
  simp only [isDecimalDigit, Bool.and_eq_true, decide_eq_true_eq, Char.le_def] at h
  obtain ⟨hlow, hhigh⟩ := h
  have hlow' : 48 ≤ c.toNat := UInt32.le_iff_toNat_le.mp hlow
  have hhigh' : c.toNat ≤ 57 := UInt32.le_iff_toNat_le.mp hhigh
  have hlt : c.toNat - 0x30 < 10 := by omega
  refine ⟨hlt, ?_⟩
  have hchar : c = Char.ofNat (c.toNat - 0x30 + 0x30) := by
    rw [Nat.sub_add_cancel hlow', Char.ofNat_toNat]
  generalize c.toNat - 0x30 = d at hlt hchar
  subst hchar
  interval_cases d <;> rfl

/-- Digits that do not begin with a zero are those of the number they denote. -/
theorem Number.toDigits_natOfDigits {c : Char} {cs : List Char}
    (hdigits : (c :: cs).all isDecimalDigit = true) (hzero : c ≠ '0') :
    Nat.toDigits 10 (natOfDigits (c :: cs)) = c :: cs ∧ 0 < natOfDigits (c :: cs) := by
  -- Induction from the last digit, which the number has as its remainder.
  induction cs using List.reverseRecOn with
  | nil =>
    simp only [List.all_cons, List.all_nil, Bool.and_true] at hdigits
    have hvalue : natOfDigits [c] = c.toNat - 0x30 := by simp [natOfDigits]
    obtain ⟨-, hchar⟩ := exists_digitChar hdigits
    refine ⟨hvalue ▸ hchar, ?_⟩
    rw [hvalue, Nat.pos_iff_ne_zero]
    intro heq
    rw [heq] at hchar
    exact hzero (by simpa using hchar.symm)
  | append_singleton cs d ih =>
    rw [← List.cons_append, List.all_append, Bool.and_eq_true] at hdigits
    obtain ⟨ih, hpos⟩ := ih hdigits.1
    obtain ⟨hlt, hchar⟩ := exists_digitChar (c := d) (by simpa using hdigits.2)
    rw [← List.cons_append, natOfDigits_append_singleton]
    refine ⟨?_, by omega⟩
    rw [← Nat.toDigits_append_toDigits (by decide) hpos hlt, ih, hchar]

theorem isCanonicalNumeral_toDigits (n : Nat) : isCanonicalNumeral (Nat.toDigits 10 n) = true := by
  induction n using Nat.strongRecOn with
  | ind n ih =>
    by_cases hlt : n < 10
    · interval_cases n <;> decide
    -- The front is canonical and not zero, and what goes behind it is a digit.
    · have hdigits := Nat.toDigits_of_base_le (b := 10) (by decide) (Nat.le_of_not_lt hlt)
      have hfront := ih (n / 10) (by omega)
      have hall : (Nat.toDigits 10 n).all Number.isDecimalDigit = true :=
        List.all_eq_true.mpr fun _ => Number.isDecimalDigit_of_mem_toDigits
      have hpos : 0 < n / 10 := by omega
      have hvalue := Number.natOfDigits_toDigits (n / 10)
      rw [hdigits] at hall ⊢
      generalize Nat.toDigits 10 (n / 10) = front at hall hfront hvalue
      cases front with
      | nil => cases hfront
      | cons c cs =>
        have hzero : c ≠ '0' := by
          rintro rfl
          cases cs with
          | nil => exact absurd hvalue (by have : Number.natOfDigits ['0'] = 0 := rfl; omega)
          | cons _ _ => cases hfront
        unfold isCanonicalNumeral
        split
        · next heq => cases heq
        · rfl
        · next heq => exact absurd (List.cons.inj heq).1 hzero
        · exact hall

theorem eq_toDigits_of_isCanonicalNumeral {cs : List Char} (h : isCanonicalNumeral cs = true) :
    cs = Nat.toDigits 10 (Number.natOfDigits cs) := by
  unfold isCanonicalNumeral at h
  split at h
  · cases h
  · rfl
  · cases h
  · next hne hzero hlead =>
    cases cs with
    | nil => exact absurd rfl hne
    | cons c cs =>
      refine (Number.toDigits_natOfDigits h ?_).1.symm
      rintro rfl
      exact hlead cs rfl

theorem toList_indexKey (i : Nat) : (indexKey i).toList = Nat.toDigits 10 i := by
  rw [indexKey, Nat.toString_eq_ofList_toDigits, String.toList_ofList]

theorem indexKey_inj {i j : Nat} : indexKey i = indexKey j ↔ i = j := by
  refine ⟨fun h => ?_, congrArg indexKey⟩
  calc
    i = Number.natOfDigits (indexKey i).toList := by
      rw [toList_indexKey, Number.natOfDigits_toDigits]
    _ = j := by rw [h, toList_indexKey, Number.natOfDigits_toDigits]

/-- An array index has one key. -/
theorem arrayIndex?_eq_some_iff {i : Nat} :
    arrayIndex? key = some i ↔ key = indexKey i ∧ i < arrayIndexLimit := by
  constructor
  · intro h
    unfold arrayIndex? at h
    dsimp only at h
    split at h
    · next hcanonical =>
      split at h
      · next hlt =>
        cases h
        refine ⟨String.toList_injective ?_, hlt⟩
        rw [toList_indexKey]
        exact eq_toDigits_of_isCanonicalNumeral hcanonical
      · cases h
    · cases h
  · rintro ⟨rfl, hlt⟩
    simp [arrayIndex?, toList_indexKey, isCanonicalNumeral_toDigits, Number.natOfDigits_toDigits, hlt]

end Indices

/-! ## Changes -/

/-- A change of one property of an object. -/
inductive PropertyChange where
  /-- A listed value is put under the key. -/
  | insertPlain (key : String) (value : Value)
  /-- A value that is not listed is put under the key. -/
  | insertHidden (key : String) (value : Value)
  /-- A property is put under the key. -/
  | define (key : String) (property : Property)
  /-- A value is written to the key. -/
  | setOwn (key : String) (value : Value)
  /-- The key is removed. -/
  | remove (key : String)

namespace PropertyChange

/-- The key that is changed. -/
def key : PropertyChange → String
  | insertPlain key _ | insertHidden key _ | define key _ | setOwn key _ | remove key => key

/-- What stands under the key behind the change.  Writing replaces the value of a property that may
be written and leaves every other one as it is. -/
def result (old : Option Property) : PropertyChange → Option Property
  | insertPlain _ value => some (.data value true true)
  | insertHidden _ value => some (.data value true false)
  | define _ property => some property
  | setOwn _ value =>
    match old with
    | none => some (.data value true true)
    | some (.data _ true enumerable) => some (.data value true enumerable)
    | some property => some property
  | remove _ => none

/-- The order of the keys behind the change. -/
def order (keys : List String) : PropertyChange → List String
  | remove key => keys.filter (· ≠ key)
  | change => if change.key ∈ keys then keys else keys ++ [change.key]

end PropertyChange

namespace PropertyStore

/-- The two containers behind a change of an object that is no array. -/
def change (t : PropertyStore) : PropertyChange → PropertyStore
  | .insertPlain key value => t.insert key (.plain value)
  | .insertHidden key value => t.insert key (.hidden value)
  | .define key property => t.insert key property
  | .setOwn key value => t.write key value
  | .remove key => t.erase key

/-- The two containers behind some changes, the first one first. -/
def changeAll (t : PropertyStore) (changes : List PropertyChange) : PropertyStore :=
  changes.foldl change t

/-- A change decides what stands under its key, and leaves the other keys alone. -/
theorem get?_change (t : PropertyStore) (c : PropertyChange) (key : String) :
    (t.change c).get? key = if c.key = key then c.result (t.get? key) else t.get? key := by
  by_cases hkey : c.key = key
  · subst hkey
    rw [if_pos rfl]
    cases c with
    | insertPlain | insertHidden | define =>
      exact (t.get?_insert _ _ _).trans (if_pos rfl)
    | remove => exact (t.get?_erase _ _).trans (if_pos rfl)
    | setOwn key value =>
      refine ((t.get?_write key key value).trans (if_pos rfl)).trans ?_
      dsimp only [PropertyChange.key, PropertyChange.result]
      cases t.get? key with
      | none => rfl
      | some p =>
        cases p with
        | data _ writable _ => cases writable <;> rfl
        | accessor => rfl
  · rw [if_neg hkey]
    cases c with
    | insertPlain | insertHidden | define =>
      exact (t.get?_insert _ _ _).trans (if_neg (Ne.symm hkey))
    | remove => exact (t.get?_erase _ _).trans (if_neg (Ne.symm hkey))
    | setOwn => exact (t.get?_write _ _ _).trans (if_neg (Ne.symm hkey))

namespace Agrees

variable {t : PropertyStore}

theorem change (h : t.Agrees) (c : PropertyChange) : (t.change c).Agrees := by
  cases c with
  | insertPlain | insertHidden | define => exact h.insert _ _
  | setOwn => exact h.write _ _
  | remove => exact h.erase _

/-- A change that puts something under its key moves no key that is there. -/
theorem names_change (h : t.Agrees) (c : PropertyChange) :
    (t.change c).names = c.order t.names := by
  cases c with
  | insertPlain | insertHidden | define =>
    refine (t.names_insert _ _).trans ?_
    rw [PropertyChange.order]
    · simp only [h.mem_iff, PropertyChange.key]
    · nofun
  | setOwn key value =>
    refine (t.names_write key value).trans ?_
    rw [PropertyChange.order]
    · simp only [h.mem_iff, PropertyChange.key]
    · nofun
  | remove key =>
    dsimp only [PropertyStore.change, PropertyChange.order]
    unfold PropertyStore.erase
    split
    · rfl
    · next habsent =>
      -- A key that the mapping does not have is not among the names.
      refine (List.filter_eq_self.mpr fun name hname => ?_).symm
      rw [decide_eq_true_eq]
      rintro rfl
      exact habsent ((h.mem_iff name).mp hname)

/-- The containers stay in step. -/
theorem changeAll (h : t.Agrees) (changes : List PropertyChange) :
    (t.changeAll changes).Agrees := by
  induction changes generalizing t with
  | nil => exact h
  | cons c changes ih => exact ih (h.change c)

theorem names_changeAll (h : t.Agrees) (changes : List PropertyChange) :
    (t.changeAll changes).names = changes.foldl PropertyChange.order t.names := by
  induction changes generalizing t with
  | nil => rfl
  | cons c changes ih =>
    have hstep := ih (h.change c)
    rwa [h.names_change] at hstep

end Agrees

theorem get?_changeAll (t : PropertyStore) (changes : List PropertyChange) (key : String) :
    (t.changeAll changes).get? key =
      (changes.filter (·.key = key)).foldl PropertyChange.result (t.get? key) := by
  induction changes generalizing t with
  | nil => rfl
  | cons c changes ih =>
    have hstep := ih (t.change c)
    rw [get?_change] at hstep
    by_cases hkey : c.key = key
    · simpa [changeAll, hkey] using hstep
    · simpa [changeAll, hkey] using hstep

end PropertyStore

namespace Object

/-- The object behind a change. -/
def change (o : Object) : PropertyChange → Object
  | .insertPlain key value => o.insertPlain key value
  | .insertHidden key value => o.insertHidden key value
  | .define key property => o.define key property
  | .setOwn key value => o.setOwn key value
  | .remove key => (o.remove key).1

/-- The object behind some changes, the first one first. -/
def changeAll (o : Object) (changes : List PropertyChange) : Object :=
  changes.foldl change o

/-! ### One change -/

theorem getOwn?_of_not_array (h : o.isArray = false) (key : String) :
    o.getOwn? key = o.properties.get? key := by
  unfold getOwn?
  split
  · next heq => simp [isArray, elements?, heq] at h
  · rfl

theorem define_of_not_array (h : o.isArray = false) (key : String) (property : Property) :
    o.define key property = { o with properties := o.properties.insert key property } := by
  simp only [define, h]

theorem setOwn_of_not_array (h : o.isArray = false) (key : String) (value : Value) :
    o.setOwn key value = o.writeNamed key value := by
  simp only [setOwn, h]

/-- A change works on the properties alone, as on the two containers. -/
theorem properties_change (h : o.isArray = false) (c : PropertyChange) :
    ∃ properties : PropertyTable, o.change c = { o with properties } ∧
      properties.toPropertyStore = o.properties.toPropertyStore.change c := by
  cases c with
  | insertPlain key value => exact ⟨_, define_of_not_array h key (.plain value), rfl⟩
  | insertHidden key value => exact ⟨_, define_of_not_array h key (.hidden value), rfl⟩
  | define key property => exact ⟨_, define_of_not_array h key property, rfl⟩
  | setOwn key value =>
    exact ⟨o.properties.write key value, setOwn_of_not_array h key value, rfl⟩
  | remove key => exact ⟨o.properties.erase key, by simp only [change, remove, h], rfl⟩

theorem isArray_change (h : o.isArray = false) (c : PropertyChange) :
    (o.change c).isArray = false := by
  obtain ⟨properties, heq, -⟩ := properties_change h c
  rw [heq]
  exact h

theorem store_change (h : o.isArray = false) (c : PropertyChange) :
    (o.change c).properties.toPropertyStore = o.properties.toPropertyStore.change c := by
  obtain ⟨properties, heq, hstore⟩ := properties_change h c
  rw [heq]
  exact hstore

theorem getOwn?_change (h : o.isArray = false) (c : PropertyChange) (key : String) :
    (o.change c).getOwn? key =
      if c.key = key then c.result (o.getOwn? key) else o.getOwn? key := by
  rw [getOwn?_of_not_array (isArray_change h c), getOwn?_of_not_array h key, store_change h]
  exact o.properties.toPropertyStore.get?_change c key

/-! ### The listing of the keys -/

/-- The listing of the keys of an object, all or only those of listed properties: the array indices
from the least on, then the other keys in the order in which they came. -/
structure Lists (o : Object) (onlyEnumerable : Bool) (keys : List String) : Prop where
  nodup : keys.Nodup
  mem_iff : ∀ key, key ∈ keys ↔
    ∃ p, o.getOwn? key = some p ∧ (onlyEnumerable = true → p.enumerable = true)
  order : ∃ (indices : List Nat) (others : List String), keys = indices.map indexKey ++ others ∧
    indices.Pairwise (· < ·) ∧ others.Sublist o.properties.names ∧
    ∀ key ∈ others, arrayIndex? key = none

theorem mem_namedKeys_iff {key : String} {onlyEnumerable : Bool} :
    key ∈ o.namedKeys onlyEnumerable ↔
      ∃ p, o.properties.get? key = some p ∧ (onlyEnumerable = true → p.enumerable = true) := by
  rw [namedKeys, PropertyStore.mem_listed_iff, and_iff_right_of_imp]
  rintro ⟨p, hp, -⟩
  exact o.properties.mem_names_iff.mpr (Option.isSome_of_eq_some hp)

theorem namedKeys_sublist (o : Object) (onlyEnumerable : Bool) :
    (o.namedKeys onlyEnumerable).Sublist o.properties.names :=
  o.properties.listed_sublist onlyEnumerable

theorem namedKeys_false (o : Object) : o.namedKeys false = o.properties.names :=
  o.properties.agrees.listed_false

/-- The keys that are array indices, each with its index, from the least on. -/
theorem sortByIndex_indexed (keys : List String) (h : keys.Nodup) :
    (sortByIndex (keys.filterMap indexed?)).map Prod.snd =
        ((sortByIndex (keys.filterMap indexed?)).map Prod.fst).map indexKey ∧
      ((sortByIndex (keys.filterMap indexed?)).map Prod.fst).Pairwise (· < ·) := by
  have hperm := List.mergeSort_perm (keys.filterMap indexed?) fun a b => a.1 ≤ b.1
  have hkey : ∀ entry ∈ sortByIndex (keys.filterMap indexed?), entry.2 = indexKey entry.1 := by
    intro entry hmem
    obtain ⟨key, -, hentry⟩ := List.mem_filterMap.mp (hperm.mem_iff.mp hmem)
    obtain ⟨i, hi, rfl⟩ := Option.map_eq_some_iff.mp hentry
    exact (arrayIndex?_eq_some_iff.mp hi).1
  constructor
  · rw [List.map_map]
    exact List.map_congr_left hkey
  · have hnodup : ((keys.filterMap indexed?).map Prod.fst).Nodup := by
      -- Two keys with one index are one key.
      refine (List.nodup_map_iff_inj_on ?_).mpr ?_
      · refine h.filterMap fun key key' entry he he' => ?_
        obtain ⟨i, -, rfl⟩ := Option.map_eq_some_iff.mp he
        obtain ⟨i', -, heq⟩ := Option.map_eq_some_iff.mp he'
        exact (Prod.mk.inj heq).2.symm
      · intro entry hmem entry' hmem' heq
        refine Prod.ext heq ?_
        rw [hkey entry (hperm.mem_iff.mpr hmem), hkey entry' (hperm.mem_iff.mpr hmem'), heq]
    have hsorted : (sortByIndex (keys.filterMap indexed?)).Pairwise
        (fun a b => decide (a.1 ≤ b.1) = true) :=
      List.pairwise_mergeSort (fun a b c hab hbc => by simp at *; omega)
        (fun a b => by simp; omega) _
    have hdistinct : ((sortByIndex (keys.filterMap indexed?)).map Prod.fst).Nodup :=
      (hperm.map Prod.fst).nodup_iff.mpr hnodup
    rw [List.Nodup, List.pairwise_map] at hdistinct
    rw [List.pairwise_map]
    refine (hsorted.and hdistinct).imp fun {a b} hab => ?_
    exact Nat.lt_of_le_of_ne (by simpa using hab.1) hab.2

/-- What an object without elements lists. -/
theorem ownKeys_of_not_array (h : o.isArray = false) (onlyEnumerable : Bool) :
    o.ownKeys onlyEnumerable =
      (sortByIndex ((o.namedKeys onlyEnumerable).filterMap indexed?)).map Prod.snd ++
        (o.namedKeys onlyEnumerable).filter fun key => (arrayIndex? key).isNone := by
  have helements : o.elementKeys = [] := by
    unfold elementKeys
    unfold isArray at h
    cases heq : o.elements? with
    | none => rfl
    | some elements => simp [heq] at h
  simp [ownKeys, helements]

theorem lists_ownKeys (h : o.isArray = false) (onlyEnumerable : Bool) :
    o.Lists onlyEnumerable (o.ownKeys onlyEnumerable) := by
  have hnodup : (o.namedKeys onlyEnumerable).Nodup :=
    (o.namedKeys_sublist onlyEnumerable).nodup o.properties.nodup_names
  have hkeys := ownKeys_of_not_array h onlyEnumerable
  have hmem (key : String) :
      key ∈ (sortByIndex ((o.namedKeys onlyEnumerable).filterMap indexed?)).map Prod.snd ↔
        key ∈ o.namedKeys onlyEnumerable ∧ (arrayIndex? key).isSome := by
    rw [sortByIndex, ((List.mergeSort_perm _ _).map Prod.snd).mem_iff]
    simp [indexed?, Option.isSome_iff_exists]
  obtain ⟨hindices, hsorted⟩ := sortByIndex_indexed _ hnodup
  -- A key is an array index or not, so that no key is listed twice and none is left out.
  refine ⟨?_, fun key => ?_, ?_⟩
  · rw [hkeys]
    refine List.nodup_append.mpr ⟨?_, hnodup.filter _, ?_⟩
    · rw [hindices]
      exact (hsorted.imp Nat.ne_of_lt).map _ fun i j hij heq => hij (indexKey_inj.mp heq)
    · rintro a ha b hb rfl
      have hsome := ((hmem a).mp ha).2
      have hnone := Option.isNone_iff_eq_none.mp (List.mem_filter.mp hb).2
      rw [hnone] at hsome
      cases hsome
  · rw [hkeys, List.mem_append, hmem, List.mem_filter, getOwn?_of_not_array h,
      ← mem_namedKeys_iff]
    cases arrayIndex? key <;> simp
  · refine ⟨_, _, hkeys.trans (congrArg (· ++ _) hindices), hsorted, ?_, ?_⟩
    · exact List.filter_sublist.trans (o.namedKeys_sublist onlyEnumerable)
    · intro key hkey
      simpa using (List.mem_filter.mp hkey).2

/-! ### Many changes -/

theorem isArray_changeAll (h : o.isArray = false) (changes : List PropertyChange) :
    (o.changeAll changes).isArray = false := by
  induction changes generalizing o with
  | nil => exact h
  | cons c changes ih => exact ih (isArray_change h c)

theorem store_changeAll (h : o.isArray = false) (changes : List PropertyChange) :
    (o.changeAll changes).properties.toPropertyStore =
      o.properties.toPropertyStore.changeAll changes := by
  induction changes generalizing o with
  | nil => rfl
  | cons c changes ih =>
    have hstep := ih (isArray_change h c)
    rwa [store_change h] at hstep

end Object

end EcmaEval
