import EcmaEval.Proofs.Object.PropertyOrder

/-!
# The keys of arrays

An array has its elements and its length apart from its named properties.  Whatever is done to the
properties and the elements of an array, no index gets among the names, and every key but the length
is listed once if it is there and not at all if it is not.  The length is always there.  It gets
among the names when it is defined as a property, which no removal undoes, and from then on it is
listed twice.

## Main definitions

* `ArrayChange`: one of the ways to change an array
* `Object.rearrangeAll`: the array behind some changes
* `Object.Arranged`, `Object.Orderly`: an array was new once and was changed
* `Object.listing`: the keys of an object, as a program gets them
* `Object.ListsKeys`: how the keys of an array are divided and listed

## Main results

* `Object.Divides.rearrangeAll`: what is among the names of an array
* `Object.listsKeys_rearrangeAll`: how its keys are listed
-/

namespace EcmaEval

/-- A change of an array. -/
inductive ArrayChange where
  /-- A property is changed, by its key. -/
  | property (c : PropertyChange)
  /-- The elements are changed, as `push`, `pop`, `splice` and `sort` do it. -/
  | elements (change : Array Value → Array Value)
  | prototype (prototype : Option ObjectId)

/-- The change defines the length as a property. -/
def ArrayChange.DefinesLength : ArrayChange → Prop
  | property (.insertPlain key _) | property (.insertHidden key _) | property (.define key _) =>
    key = "length"
  | _ => False

namespace Object

variable {o : Object} {key : String} {change : Array Value → Array Value}

/-- The object behind a change. -/
def rearrange (o : Object) : ArrayChange → Object
  | .property c => o.change c
  | .elements change => o.withElements change
  | .prototype prototype => { o with prototype }

/-- The object behind some changes, the first one first. -/
def rearrangeAll (o : Object) (changes : List ArrayChange) : Object :=
  changes.foldl rearrange o

/-- The object is an array that was made of elements and was changed. -/
def Arranged (o : Object) : Prop :=
  ∃ prototype elements changes, o = (new prototype (.array elements)).rearrangeAll changes

theorem Arranged.new (prototype : Option ObjectId) (elements : Array Value) :
    (new prototype (.array elements)).Arranged :=
  ⟨prototype, elements, [], rfl⟩

theorem Arranged.rearrangeAll (h : o.Arranged) (changes : List ArrayChange) :
    (o.rearrangeAll changes).Arranged := by
  obtain ⟨prototype, elements, before, rfl⟩ := h
  exact ⟨prototype, elements, before ++ changes, (List.foldl_append ..).symm⟩

/-- If the object is an array, it was made of elements and was changed. -/
def Orderly (o : Object) : Prop := o.isArray = true → o.Arranged

theorem Orderly.of_not_array (h : o.isArray = false) : o.Orderly :=
  fun harray => nomatch harray.symm.trans h

/-! ## One change -/

/-- The object is an array whose names are no indices, and the length is one of them only if it was
defined. -/
structure Divides (o : Object) (defined : Prop) : Prop where
  isArray : o.isArray = true
  names : ∀ key ∈ o.properties.names, arrayIndex? key = none
  length : "length" ∈ o.properties.names ↔ defined

theorem arrayIndex?_length : arrayIndex? "length" = none := by decide

theorem ne_length_of_arrayIndex? {key : String} {i : Nat} (hkey : arrayIndex? key = some i) :
    key ≠ "length" := by
  rintro rfl
  exact nomatch hkey.symm.trans arrayIndex?_length

theorem isArray_of_elements? {o : Object} {elements : Array Value}
    (h : o.elements? = some elements) : o.isArray = true := by
  rw [isArray, h]
  rfl

theorem elements?_withElements (o : Object) (change : Array Value → Array Value) :
    (o.withElements change).elements? = o.elements?.map change := by
  unfold withElements
  split
  · rfl
  · next hnone =>
    have hempty : o.elements? = none := by
      unfold elements?
      split
      · next elements hkind =>
        obtain ⟨_, prototype, properties, objectClass⟩ := o
        cases hkind
        exact absurd rfl (hnone elements prototype properties objectClass)
      · rfl
    rw [hempty]
    rfl

theorem isArray_withElements (o : Object) (change : Array Value → Array Value) :
    (o.withElements change).isArray = o.isArray := by
  rw [isArray, isArray, elements?_withElements, Option.isSome_map]

theorem properties_withElements (o : Object) (change : Array Value → Array Value) :
    (o.withElements change).properties = o.properties := by
  unfold withElements
  split <;> rfl

theorem isArray_rearrange (h : o.isArray = false) (c : ArrayChange) :
    (o.rearrange c).isArray = false := by
  cases c with
  | property c => exact isArray_change h c
  | elements change => exact (o.isArray_withElements change).trans h
  | prototype prototype => exact h

/-- No change makes an array of what is none. -/
theorem Orderly.rearrange (h : o.Orderly) (c : ArrayChange) : (o.rearrange c).Orderly := by
  intro harray
  cases hold : o.isArray with
  | false => exact nomatch harray.symm.trans (isArray_rearrange hold c)
  | true => exact (h hold).rearrangeAll [c]

namespace Divides

variable {defined defined' : Prop}

theorem congr (h : o.Divides defined) (hiff : defined ↔ defined') : o.Divides defined' :=
  ⟨h.isArray, h.names, h.length.trans hiff⟩

theorem withElements (h : o.Divides defined) (change : Array Value → Array Value) :
    (o.withElements change).Divides defined := by
  constructor
  · rw [isArray_withElements, h.isArray]
  · rw [properties_withElements]
    exact h.names
  · rw [properties_withElements]
    exact h.length

/-- A name that is no index is put among the names. -/
theorem withProperties (h : o.Divides defined) (hkey : arrayIndex? key = none)
    {properties : PropertyTable}
    (hnames : ∀ other, other ∈ properties.names ↔ other = key ∨ other ∈ o.properties.names) :
    ({ o with properties } : Object).Divides (defined ∨ key = "length") where
  isArray := h.isArray
  names other hother := by
    rcases (hnames other).mp hother with rfl | hmem
    · exact hkey
    · exact h.names other hmem
  length := by
    rw [hnames, h.length, or_comm, eq_comm]

theorem insert (h : o.Divides defined) (hkey : arrayIndex? key = none) (property : Property) :
    ({ o with properties := o.properties.insert key property } : Object).Divides
      (defined ∨ key = "length") :=
  h.withProperties hkey fun _ => o.properties.mem_names_insert

theorem erase (h : o.Divides defined) (hkey : key ≠ "length") :
    ({ o with properties := o.properties.erase key } : Object).Divides defined where
  isArray := h.isArray
  names other hother := h.names other ((o.properties.mem_names_erase).mp hother).2
  length := by
    rw [PropertyTable.mem_names_erase, h.length, and_iff_right hkey.symm]

/-- A defined property is an element, or gets among the names. -/
theorem define (h : o.Divides defined) (key : String) (property : Property) :
    (o.define key property).Divides (defined ∨ key = "length") := by
  unfold Object.define
  rw [h.isArray]
  cases hkey : arrayIndex? key with
  | none => exact h.insert hkey property
  | some i =>
    have hne : key ≠ "length" := by
      rintro rfl
      exact nomatch hkey.symm.trans arrayIndex?_length
    have hsame : o.Divides (defined ∨ key = "length") := h.congr (by simp [hne])
    dsimp only
    split
    · split
      · exact hsame.withElements _
      · exact hsame
    · exact hsame

/-- A value that is written is an element, sets the length, or gets among the names. -/
theorem setOwn (h : o.Divides defined) (key : String) (value : Value) :
    (o.setOwn key value).Divides defined := by
  unfold Object.setOwn
  rw [h.isArray]
  cases hkey : arrayIndex? key with
  | some i =>
    dsimp only
    split
    · exact h.withElements _
    · exact h
  | none =>
    dsimp only
    split
    · split
      · exact h.withElements _
      · exact h
    · next hne =>
      exact (h.withProperties hkey fun _ => o.properties.mem_names_write).congr (by simp [hne])

theorem remove (h : o.Divides defined) (key : String) : (o.remove key).1.Divides defined := by
  unfold Object.remove
  rw [h.isArray]
  cases arrayIndex? key with
  | some i => exact h.withElements _
  | none =>
    dsimp only
    split
    · exact h
    · next hne => exact h.erase hne

/-- A change brings the length among the names if it defines it, and no index. -/
theorem rearrange (h : o.Divides defined) (c : ArrayChange) :
    (o.rearrange c).Divides (defined ∨ c.DefinesLength) := by
  have hkeeps {o' : Object} (h' : o'.Divides defined) (hc : ¬ c.DefinesLength) :
      o'.Divides (defined ∨ c.DefinesLength) := h'.congr (or_iff_left hc).symm
  cases c with
  | property c =>
    cases c with
    | insertPlain key value => exact h.define key (.plain value)
    | insertHidden key value => exact h.define key (.hidden value)
    | define key property => exact h.define key property
    | setOwn key value => exact hkeeps (h.setOwn key value) id
    | remove key => exact hkeeps (h.remove key) id
  | elements change => exact hkeeps (h.withElements change) id
  | prototype prototype => exact hkeeps ⟨h.isArray, h.names, h.length⟩ id

/-! ## Many changes -/

theorem new (prototype : Option ObjectId) (elements : Array Value) :
    (Object.new prototype (.array elements)).Divides False :=
  ⟨rfl, fun _ hkey => (List.not_mem_nil hkey).elim, iff_of_false List.not_mem_nil id⟩

/-- The names of an array behind any number of changes. -/
theorem rearrangeAll (h : o.Divides defined) (changes : List ArrayChange) :
    (o.rearrangeAll changes).Divides (defined ∨ ∃ c ∈ changes, c.DefinesLength) := by
  induction changes generalizing o defined with
  | nil => simpa [Object.rearrangeAll] using h
  | cons c changes ih =>
    have hrest := ih (h.rearrange c)
    exact hrest.congr (by rw [List.exists_mem_cons_iff, or_assoc])

end Divides

/-! ## The listing -/

section Listing

variable {elements : Array Value} {defined : Prop}

theorem elementKeys_sorted (elements : Array Value) :
    ((List.range elements.size).map fun i => (i, indexKey i)).Pairwise
      fun a b => decide (a.1 ≤ b.1) = true := by
  rw [List.pairwise_map]
  exact List.pairwise_le_range.imp fun hle => decide_eq_true hle

/-- The keys of an array, all or only the listed ones: the indices of its elements, and behind them
its names. -/
theorem Divides.ownKeys_eq (h : o.Divides defined) (helements : o.elements? = some elements)
    (onlyEnumerable : Bool) : o.ownKeys onlyEnumerable =
      (List.range elements.size).map indexKey ++ o.namedKeys onlyEnumerable := by
  have hname (key : String) (hkey : key ∈ o.namedKeys onlyEnumerable) : arrayIndex? key = none :=
    h.names key ((o.namedKeys_sublist onlyEnumerable).subset hkey)
  have hnone : (o.namedKeys onlyEnumerable).filterMap indexed? = [] :=
    List.filterMap_eq_nil_iff.mpr fun key hkey => by rw [indexed?, hname key hkey]; rfl
  have hall : ((o.namedKeys onlyEnumerable).filter fun key => (arrayIndex? key).isNone) =
      o.namedKeys onlyEnumerable :=
    List.filter_eq_self.mpr fun key hkey => by rw [hname key hkey]; rfl
  have hsorted : sortByIndex ((List.range elements.size).map fun i => (i, indexKey i)) =
      (List.range elements.size).map fun i => (i, indexKey i) :=
    List.mergeSort_of_pairwise (elementKeys_sorted elements)
  rw [ownKeys, elementKeys, helements]
  dsimp only
  rw [hnone, hall, List.append_nil, hsorted, List.map_map]
  rfl

/-- What an array has under a key. -/
theorem getOwn?_of_elements? (h : o.elements? = some elements) (key : String) :
    o.getOwn? key = if key = "length" then some (.hidden (.ofNat elements.size))
      else match arrayIndex? key with
        | some i => elements[i]?.map .plain
        | none => o.properties.get? key := by
  obtain ⟨kind, prototype, properties, objectClass⟩ := o
  cases kind with
  | array found => cases h; rfl
  | _ => cases h

/-- What an array has under a key: its length, an element, or a property of that name. -/
theorem hasOwn_array (helements : o.elements? = some elements) (key : String) :
    o.hasOwn key = true ↔ key = "length" ∨ (∃ i < elements.size, arrayIndex? key = some i) ∨
      arrayIndex? key = none ∧ key ∈ o.properties.names := by
  rw [hasOwn, getOwn?_of_elements? helements]
  by_cases hlength : key = "length"
  · simp [hlength]
  · rw [if_neg hlength, PropertyTable.mem_names_iff]
    cases arrayIndex? key with
    | none => simp [hlength]
    | some i => simp [hlength]

/-- The positions of the elements, as keys: the indices, and what is too great to be one. -/
theorem mem_indexKeys_iff (key : String) :
    key ∈ (List.range elements.size).map indexKey ↔
      (∃ i < elements.size, arrayIndex? key = some i) ∨
        ∃ i < elements.size, arrayIndexLimit ≤ i ∧ key = indexKey i := by
  simp only [List.mem_map, List.mem_range, arrayIndex?_eq_some_iff]
  constructor
  · rintro ⟨i, hi, rfl⟩
    rcases Nat.lt_or_ge i arrayIndexLimit with hlt | hle
    · exact .inl ⟨i, hi, rfl, hlt⟩
    · exact .inr ⟨i, hi, hle, rfl⟩
  · rintro (⟨i, hi, rfl, -⟩ | ⟨i, hi, -, rfl⟩)
    · exact ⟨i, hi, rfl⟩
    · exact ⟨i, hi, rfl⟩

theorem length_ne_indexKey (i : Nat) : "length" ≠ indexKey i := by
  intro heq
  have hdigits : isCanonicalNumeral (indexKey i).toList = true := by
    rw [toList_indexKey, isCanonicalNumeral_toDigits]
  rw [← heq] at hdigits
  exact absurd hdigits (by decide)

/-- All own keys of an object, as a program gets them. -/
def listing (o : Object) : List String :=
  o.ownKeys false ++ if o.isArray then ["length"] else []

/-- The key is the position of an element that is too great for an array index. -/
def IsBeyond (o : Object) (key : String) : Prop :=
  ∃ elements, o.elements? = some elements ∧
    ∃ i < elements.size, arrayIndexLimit ≤ i ∧ key = indexKey i

/-- How the keys of an array are divided and listed.  No index is among the names, and the length is
only if it was defined.  All that is listed is there, but for positions that are too great for an
index.  A key that is there is listed once, the length twice if it was defined. -/
structure ListsKeys (o : Object) (defined : Prop) : Prop where
  names : ∀ key ∈ o.properties.names, arrayIndex? key = none
  length : "length" ∈ o.properties.names ↔ defined
  mem_listing : ∀ key, key ∈ o.listing ↔ o.hasOwn key = true ∨ o.IsBeyond key
  once : ∀ key, o.hasOwn key = true → ¬ o.IsBeyond key → (key = "length" → ¬ defined) →
    o.listing.count key = 1
  twice : defined → o.listing.count "length" = 2

theorem Divides.listing_eq (h : o.Divides defined) (helements : o.elements? = some elements) :
    o.listing =
      (List.range elements.size).map indexKey ++ o.properties.names ++ ["length"] := by
  rw [Object.listing, h.ownKeys_eq helements, namedKeys_false, h.isArray, if_pos rfl]

theorem isBeyond_iff (helements : o.elements? = some elements) (key : String) :
    o.IsBeyond key ↔ ∃ i < elements.size, arrayIndexLimit ≤ i ∧ key = indexKey i := by
  simp [IsBeyond, helements]

/-- The length is listed behind the names, and among them if it is one. -/
theorem Divides.count_length (h : o.Divides defined) (helements : o.elements? = some elements) :
    o.listing.count "length" = 1 + o.properties.names.count "length" := by
  have hout : "length" ∉ (List.range elements.size).map indexKey := fun hmem => by
    obtain ⟨i, -, hi⟩ := List.mem_map.mp hmem
    exact length_ne_indexKey i hi.symm
  rw [h.listing_eq helements, List.count_append, List.count_append, List.count_eq_zero.mpr hout]
  simp [Nat.add_comm]

/-- Another key is listed once, among the indices or among the names. -/
theorem Divides.count_eq_one (h : o.Divides defined) (helements : o.elements? = some elements)
    (hown : o.hasOwn key = true) (hlength : key ≠ "length") (hinside : ¬ o.IsBeyond key) :
    o.listing.count key = 1 := by
  have hnodup : ((List.range elements.size).map indexKey).Nodup :=
    List.nodup_range.map fun i j hij => indexKey_inj.mp hij
  have hlast : List.count key ["length"] = 0 :=
    List.count_eq_zero.mpr fun hmem => hlength (List.mem_singleton.mp hmem)
  rw [isBeyond_iff helements] at hinside
  rw [h.listing_eq helements, List.count_append, List.count_append, hlast]
  rcases (hasOwn_array helements key).mp hown with heq | hindex | ⟨hnone, hname⟩
  · exact absurd heq hlength
  · have hout : key ∉ o.properties.names := fun hmem => by
      obtain ⟨i, -, hi⟩ := hindex
      exact nomatch hi.symm.trans (h.names key hmem)
    rw [List.count_eq_one_of_mem hnodup ((mem_indexKeys_iff key).mpr (.inl hindex)),
      List.count_eq_zero.mpr hout]
  · have hout : key ∉ (List.range elements.size).map indexKey := by
      rw [mem_indexKeys_iff]
      rintro (⟨i, -, hi⟩ | hafter)
      · exact nomatch hi.symm.trans hnone
      · exact hinside hafter
    rw [List.count_eq_zero.mpr hout, List.count_eq_one_of_mem o.properties.nodup_names hname]

theorem Divides.listsKeys (h : o.Divides defined) : o.ListsKeys defined := by
  obtain ⟨elements, helements⟩ := Option.isSome_iff_exists.mp h.isArray
  constructor
  case names => exact h.names
  case length => exact h.length
  case mem_listing =>
    intro key
    rw [h.listing_eq helements, hasOwn_array helements, List.mem_append, List.mem_append,
      mem_indexKeys_iff, List.mem_singleton, and_iff_right_of_imp (h.names key),
      isBeyond_iff helements]
    simp only [or_comm, or_left_comm]
  case once =>
    intro key hown hinside hundefined
    by_cases hlength : key = "length"
    · subst hlength
      have hout : "length" ∉ o.properties.names := fun hmem =>
        hundefined rfl (h.length.mp hmem)
      rw [h.count_length helements, List.count_eq_zero.mpr hout]
    · exact h.count_eq_one helements hown hlength hinside
  case twice =>
    intro hdefined
    rw [h.count_length helements,
      List.count_eq_one_of_mem o.properties.nodup_names (h.length.mpr hdefined)]

/-- The keys of an array behind any changes. -/
theorem listsKeys_rearrangeAll (prototype : Option ObjectId) (elements : Array Value)
    (changes : List ArrayChange) :
    ((new prototype (.array elements)).rearrangeAll changes).ListsKeys
      (∃ c ∈ changes, c.DefinesLength) :=
  ((Divides.new prototype elements).rearrangeAll changes |>.congr (false_or _ ▸ Iff.rfl)).listsKeys

end Listing

end Object

end EcmaEval
