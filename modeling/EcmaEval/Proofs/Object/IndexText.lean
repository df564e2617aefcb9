import EcmaEval.Proofs.Object.Copies

/-!
# Keys of elements

The key of an element is the decimal text of its index and nothing else, so that a text names one
element at most and a listed index is read back as itself.  An object sorts the indices among its keys
as words of 32 bits.  An index that is read from a key fits in a word.  An index that is printed for an
element does if the array is no longer than there are words.

## Main definitions

* `Object.indexedKeys`: the keys that are indices, each with its index
* `Object.keysByWord`: the keys of an object, with the indices sorted as words

## Main results

* `Object.keysByWord_eq_ownKeys`: the indices are sorted as numbers
* `Object.exists_indices_of_ownKeys`: a listing begins with texts of indices that are read back
* `Object.indices_read_back`: the texts of indices, read and listed
-/

namespace EcmaEval

/-! ## Texts of indices -/

/-- The texts that are read as indices are the decimal texts of the numbers below the limit. -/
theorem arrayIndex?_eq_some_iff_toString {key : String} {i : Nat} :
    arrayIndex? key = some i ↔ i < 2 ^ 32 - 1 ∧ key = toString i :=
  arrayIndex?_eq_some_iff.trans and_comm

theorem eq_of_arrayIndex? {key key' : String} {i : Nat} (h : arrayIndex? key = some i)
    (h' : arrayIndex? key' = some i) : key = key' :=
  (arrayIndex?_eq_some_iff.mp h).1.trans (arrayIndex?_eq_some_iff.mp h').1.symm

/-- A number is kept when it is narrowed to a word just if it is below the number of words. -/
theorem toNat_ofNat_eq_iff {i : Nat} : (UInt32.ofNat i).toNat = i ↔ i < 2 ^ 32 := by
  rw [UInt32.toNat_ofNat']
  exact Nat.mod_eq_iff_lt (by decide)

namespace Object

variable {o : Object} {onlyEnumerable : Bool}

/-! ## Listed indices -/

/-- The keys of the elements and the names that are read as indices, each with its index. -/
def indexedKeys (o : Object) (onlyEnumerable : Bool) : List (Nat × String) :=
  o.elementKeys ++ (o.namedKeys onlyEnumerable).filterMap indexed?

/-- An object has no more elements than there are words of 32 bits. -/
def WithinWords (o : Object) : Prop :=
  ∀ elements, o.elements? = some elements → elements.size ≤ 2 ^ 32

/-- The keys of an object, where the indices are narrowed to words and sorted as such. -/
def keysByWord (o : Object) (onlyEnumerable : Bool) : List String :=
  (((o.indexedKeys onlyEnumerable).map fun entry => (UInt32.ofNat entry.1, entry.2)).mergeSort
      fun a b => a.1 ≤ b.1).map Prod.snd ++
    (o.namedKeys onlyEnumerable).filter fun key => (arrayIndex? key).isNone

theorem mem_elementKeys_iff {entry : Nat × String} :
    entry ∈ o.elementKeys ↔
      ∃ elements, o.elements? = some elements ∧ entry.1 < elements.size ∧
        entry.2 = indexKey entry.1 := by
  unfold elementKeys
  cases o.elements? with
  | none => simp
  | some elements =>
    simp only [List.mem_map, List.mem_range, Option.some.injEq, exists_eq_left']
    constructor
    · rintro ⟨i, hi, rfl⟩
      exact ⟨hi, rfl⟩
    · rintro ⟨hi, hkey⟩
      exact ⟨entry.1, hi, Prod.ext rfl hkey.symm⟩

theorem mem_indexedKeys_iff {entry : Nat × String} :
    entry ∈ o.indexedKeys onlyEnumerable ↔
      entry ∈ o.elementKeys ∨
        entry.2 ∈ o.namedKeys onlyEnumerable ∧ arrayIndex? entry.2 = some entry.1 := by
  rw [indexedKeys, List.mem_append, List.mem_filterMap]
  refine or_congr_right ⟨?_, fun ⟨hmem, hindex⟩ => ⟨entry.2, hmem, by rw [indexed?, hindex]; rfl⟩⟩
  rintro ⟨key, hmem, hentry⟩
  obtain ⟨i, hi, rfl⟩ := Option.map_eq_some_iff.mp hentry
  exact ⟨hmem, hi⟩

theorem key_of_mem_indexedKeys {entry : Nat × String}
    (h : entry ∈ o.indexedKeys onlyEnumerable) : entry.2 = indexKey entry.1 := by
  rcases mem_indexedKeys_iff.mp h with helement | ⟨-, hindex⟩
  · obtain ⟨_, -, -, hkey⟩ := mem_elementKeys_iff.mp helement
    exact hkey
  · exact (arrayIndex?_eq_some_iff.mp hindex).1

/-- A bound on all that is read from keys is one on the listed indices just if it is one on the
length of the array. -/
theorem forall_indexedKeys_iff {bound : Nat} (hbound : arrayIndexLimit ≤ bound) :
    (∀ entry ∈ o.indexedKeys onlyEnumerable, entry.1 < bound) ↔
      ∀ elements, o.elements? = some elements → elements.size ≤ bound := by
  constructor
  · intro h elements helements
    by_contra hlt
    have hmem : (bound, indexKey bound) ∈ o.elementKeys :=
      mem_elementKeys_iff.mpr ⟨elements, helements, Nat.lt_of_not_le hlt, rfl⟩
    exact Nat.lt_irrefl bound (h _ (mem_indexedKeys_iff.mpr (.inl hmem)))
  · intro h entry hmem
    rcases mem_indexedKeys_iff.mp hmem with helement | ⟨-, hindex⟩
    · obtain ⟨elements, helements, hlt, -⟩ := mem_elementKeys_iff.mp helement
      exact hlt.trans_le (h elements helements)
    · exact (arrayIndex?_eq_some_iff.mp hindex).2.trans_le hbound

/-- The listed indices are read back from their texts just if every element has an index. -/
theorem forall_arrayIndex?_indexedKeys_iff :
    (∀ entry ∈ o.indexedKeys onlyEnumerable, arrayIndex? entry.2 = some entry.1) ↔
      o.WithinIndices := by
  have hbounds : (∀ entry ∈ o.indexedKeys onlyEnumerable, entry.1 < arrayIndexLimit) ↔
      o.WithinIndices := forall_indexedKeys_iff (Nat.le_refl _)
  rw [← hbounds]
  refine forall₂_congr fun entry hmem => ?_
  rw [arrayIndex?_eq_some_iff]
  exact and_iff_right (key_of_mem_indexedKeys hmem)

/-- The listed indices stay what they are as words just if there are no more elements than words. -/
theorem forall_toNat_indexedKeys_iff :
    (∀ entry ∈ o.indexedKeys onlyEnumerable, (UInt32.ofNat entry.1).toNat = entry.1) ↔
      o.WithinWords := by
  have hbounds : (∀ entry ∈ o.indexedKeys onlyEnumerable, entry.1 < 2 ^ 32) ↔ o.WithinWords :=
    forall_indexedKeys_iff (by decide)
  rw [← hbounds]
  exact forall₂_congr fun entry _ => toNat_ofNat_eq_iff

theorem WithinIndices.withinWords (h : o.WithinIndices) : o.WithinWords :=
  fun elements helements => (h elements helements).trans (by decide)

/-- Words are in the order of the indices that they stand for, so that they sort the keys alike. -/
theorem keysByWord_eq_ownKeys (h : o.WithinWords) :
    o.keysByWord onlyEnumerable = o.ownKeys onlyEnumerable := by
  have hsame : ∀ entry ∈ o.indexedKeys onlyEnumerable, (UInt32.ofNat entry.1).toNat = entry.1 :=
    forall_toNat_indexedKeys_iff.mpr h
  have horder : ∀ a ∈ o.indexedKeys onlyEnumerable, ∀ b ∈ o.indexedKeys onlyEnumerable,
      decide (a.1 ≤ b.1) = decide (UInt32.ofNat a.1 ≤ UInt32.ofNat b.1) := by
    intro a ha b hb
    rw [decide_eq_decide, UInt32.le_iff_toNat_le, hsame a ha, hsame b hb]
  have hsort := List.map_mergeSort (s := fun a b => decide (a.1 ≤ b.1))
    (f := fun entry : Nat × String => (UInt32.ofNat entry.1, entry.2)) horder
  rw [keysByWord, ← hsort, List.map_map]
  rfl

/-- A listing begins with the texts of indices, from the least on, and no other key in it is read as an
index. -/
theorem exists_indices_of_ownKeys (h : o.WithinIndices) :
    ∃ (indices : List Nat) (others : List String),
      o.ownKeys onlyEnumerable = indices.map toString ++ others ∧
      indices.Pairwise (· ≤ ·) ∧
      (∀ i ∈ indices, arrayIndex? (toString i) = some i) ∧
      ∀ key ∈ others, arrayIndex? key = none := by
  have hperm := List.mergeSort_perm (o.indexedKeys onlyEnumerable) fun a b => a.1 ≤ b.1
  refine ⟨(sortByIndex (o.indexedKeys onlyEnumerable)).map Prod.fst,
    (o.namedKeys onlyEnumerable).filter fun key => (arrayIndex? key).isNone, ?_, ?_, ?_, ?_⟩
  · have hkeys : (sortByIndex (o.indexedKeys onlyEnumerable)).map Prod.snd =
        ((sortByIndex (o.indexedKeys onlyEnumerable)).map Prod.fst).map toString := by
      rw [List.map_map]
      exact List.map_congr_left fun entry hmem =>
        key_of_mem_indexedKeys (hperm.mem_iff.mp hmem)
    rw [← hkeys]
    rfl
  · have hsorted : (sortByIndex (o.indexedKeys onlyEnumerable)).Pairwise
        (fun a b => decide (a.1 ≤ b.1) = true) :=
      List.pairwise_mergeSort (fun a b c hab hbc => by simp at *; omega)
        (fun a b => by simp; omega) _
    rw [List.pairwise_map]
    exact hsorted.imp of_decide_eq_true
  · intro i hi
    obtain ⟨entry, hmem, rfl⟩ := List.mem_map.mp hi
    have hentry := hperm.mem_iff.mp hmem
    have hback : arrayIndex? entry.2 = some entry.1 :=
      forall_arrayIndex?_indexedKeys_iff.mpr h entry hentry
    rwa [key_of_mem_indexedKeys hentry] at hback
  · intro key hkey
    exact Option.isNone_iff_eq_none.mp (List.mem_filter.mp hkey).2

/-- **Texts of indices.**  A key is read as an index just if it is the decimal text of a number below
the limit, so that different keys are never read as the same index.  Unless it is an array with more
elements than there are indices, an object lists the texts of indices in front, from the least on, and
each of them is read back.  Narrowed to words the listed indices stay what they are and are sorted
alike, up to as many elements as there are words. -/
theorem indices_read_back :
    (∀ key i, arrayIndex? key = some i ↔ i < 2 ^ 32 - 1 ∧ key = toString i) ∧
    (∀ key key' i, arrayIndex? key = some i → arrayIndex? key' = some i → key = key') ∧
    ∀ (o : Object) (onlyEnumerable : Bool),
      ((∀ entry ∈ o.indexedKeys onlyEnumerable, arrayIndex? entry.2 = some entry.1) ↔
        o.WithinIndices) ∧
      (o.WithinIndices → ∃ (indices : List Nat) (others : List String),
        o.ownKeys onlyEnumerable = indices.map toString ++ others ∧
        indices.Pairwise (· ≤ ·) ∧
        (∀ i ∈ indices, arrayIndex? (toString i) = some i) ∧
        ∀ key ∈ others, arrayIndex? key = none) ∧
      ((∀ entry ∈ o.indexedKeys onlyEnumerable, (UInt32.ofNat entry.1).toNat = entry.1) ↔
        o.WithinWords) ∧
      (o.WithinWords → o.keysByWord onlyEnumerable = o.ownKeys onlyEnumerable) :=
  ⟨fun _ _ => arrayIndex?_eq_some_iff_toString, fun _ _ _ => eq_of_arrayIndex?,
    fun _ _ => ⟨forall_arrayIndex?_indexedKeys_iff, exists_indices_of_ownKeys,
      forall_toNat_indexedKeys_iff, keysByWord_eq_ownKeys⟩⟩

/-- An array with one element has two keys besides: the text of a further index, and that of the first
number that is no index. -/
theorem indices_read_back_mixed :
    let o : Object := { Object.new none (.array #[.null]) with
      properties := ((∅ : PropertyTable).insert "4294967295" (.plain .null)).insert "10" (.plain .null) }
    o.WithinIndices ∧ o.keysByWord false = o.ownKeys false ∧
      arrayIndex? "10" = some 10 ∧ arrayIndex? "4294967295" ≠ some 4294967295 := by
  intro o
  have hwithin : o.WithinIndices := by
    intro elements helements
    cases helements
    decide
  refine ⟨hwithin, (indices_read_back.2.2 o false).2.2.2 hwithin.withinWords,
    (indices_read_back.1 _ _).mpr ⟨by decide, rfl⟩, fun h => ?_⟩
  exact absurd ((indices_read_back.1 _ _).mp h).1 (by decide)

end Object

end EcmaEval
