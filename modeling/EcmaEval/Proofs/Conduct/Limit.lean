import EcmaEval.Proofs.Conduct.Ancestry

/-!
# The limit of arrays

Writing an index or the length of an array, defining an element and removing one keep to
`maxArrayLength`.  An array that is made of given elements, and what `push`, `unshift` and `splice`
put into one, do not look at it.

## Main definitions

* `Object.Overlong`: an array has more elements than the limit allows
* `Machine.Overfills`: an array gets more elements than that in an operation that does not look

## Main results

* `Object.Overlong.of_setOwn`, `Object.Overlong.of_define`: what keeps to the limit
* `Heap.Overlong.allocate_cases`, `Heap.Overlong.modify_cases`: where an array comes to be overlong
-/

namespace EcmaEval

/-! ## Elements -/

section Elements

variable (elements : Array Value) (i count : Nat) (value : Value)

@[simp] theorem size_resizeElements : (resizeElements elements count).size = count := by
  unfold resizeElements
  split
  · next hle => rw [Array.size_shrink, Nat.min_eq_left hle]
  · simp only [Array.size_append, Array.size_replicate]
    omega

@[simp] theorem size_writeElement :
    (writeElement elements i value).size = max elements.size (i + 1) := by
  unfold writeElement
  dsimp only
  rw [Array.size_setIfInBounds]
  split
  · omega
  · rw [size_resizeElements]
    omega

end Elements

/-- What is done to the elements of an array makes them no more. -/
class Shrinks (change : Array Value → Array Value) : Prop where
  size_le : ∀ elements, (change elements).size ≤ elements.size

instance : Shrinks Array.pop := ⟨fun elements => by simp⟩

instance : Shrinks Array.reverse := ⟨fun elements => by simp⟩

instance (i : Nat) (value : Value) : Shrinks (·.setIfInBounds i value) :=
  ⟨fun elements => by simp⟩

instance : Shrinks fun elements => elements.extract 1 elements.size :=
  ⟨fun elements => by simp⟩

/-! ## Objects -/

namespace Object

/-- An array with more elements than the limit allows. -/
def Overlong (o : Object) : Prop :=
  ∃ elements, o.elements? = some elements ∧ maxArrayLength < elements.size

theorem not_overlong {o : Object} (h : o.elements? = none) : ¬ o.Overlong := by
  rintro ⟨elements, helements, -⟩
  exact nomatch h.symm.trans helements

/-- A length that may be set is within the limit. -/
theorem le_of_arrayLength? {value : Value} {count : Nat} (h : arrayLength? value = some count) :
    count ≤ maxArrayLength := by
  unfold arrayLength? at h
  split at h
  · split at h
    · split at h
      · next hrange =>
        cases h
        omega
      · cases h
    · cases h
  · cases h

namespace Overlong

variable {o : Object} {key : String} {value : Value} {change : Array Value → Array Value}

/-- Whatever changes the elements has more than the limit allows only of an array that had, unless
the change itself leads beyond the limit. -/
theorem of_withElements (h : (o.withElements change).Overlong)
    (hchange : ∀ elements, elements.size ≤ maxArrayLength →
      (change elements).size ≤ maxArrayLength) : o.Overlong := by
  obtain ⟨elements, helements, hlong⟩ := h
  rw [elements?_withElements, Option.map_eq_some_iff] at helements
  obtain ⟨before, hbefore, rfl⟩ := helements
  refine ⟨before, hbefore, Nat.lt_of_not_le fun hshort => ?_⟩
  exact absurd (hchange before hshort) (Nat.not_le_of_lt hlong)

theorem of_shrinks [hshrinks : Shrinks change] (h : (o.withElements change).Overlong) :
    o.Overlong :=
  h.of_withElements fun elements hle => Nat.le_trans (hshrinks.size_le elements) hle

theorem of_writeElement {i : Nat} (h : (o.withElements (writeElement · i value)).Overlong)
    (hi : i < maxArrayLength) : o.Overlong := by
  refine h.of_withElements fun elements hle => ?_
  rw [size_writeElement]
  omega

theorem of_resizeElements {count : Nat} (h : (o.withElements (resizeElements · count)).Overlong)
    (hcount : count ≤ maxArrayLength) : o.Overlong := by
  refine h.of_withElements fun elements _ => ?_
  rwa [size_resizeElements]

theorem of_define {property : Property} (h : (o.define key property).Overlong) : o.Overlong := by
  unfold Object.define at h
  split at h
  · split at h
    · split at h
      · next hi => exact h.of_writeElement hi
      · exact h
    · exact h
  · exact h

theorem of_writeNamed (h : (o.writeNamed key value).Overlong) : o.Overlong := h

theorem of_setOwn (h : (o.setOwn key value).Overlong) : o.Overlong := by
  unfold Object.setOwn at h
  split at h
  · split at h
    · next hi => exact h.of_writeElement hi
    · exact h
  · split at h
    · split at h
      · next hcount => exact h.of_resizeElements (le_of_arrayLength? hcount)
      · exact h
    · exact h.of_writeNamed
  · exact h.of_writeNamed

theorem of_remove (h : (o.remove key).1.Overlong) : o.Overlong := by
  unfold Object.remove at h
  split at h
  · exact h.of_shrinks
  · split at h <;> exact h
  · exact h

end Overlong

end Object

/-! ## Heaps -/

namespace Heap

theorem lt_size_of_elements? (h : Heap) {id : ObjectId} {elements : Array Value}
    (helements : (h.get id).elements? = some elements) : id.index < h.size := by
  by_contra hle
  rw [h.get_of_size_le (Nat.le_of_not_lt hle)] at helements
  cases helements

/-- The object is an array with more elements than the limit allows. -/
def Overlong (h : Heap) (id : ObjectId) : Prop := (h.get id).Overlong

variable {h : Heap} {id id' : ObjectId} {o : Object} {change : Object → Object}

theorem Overlong.allocate_cases (hlong : (h.allocate o).2.Overlong id) :
    h.Overlong id ∨ id = ⟨h.size⟩ ∧ o.Overlong := by
  rw [Overlong, get_allocate] at hlong
  split at hlong
  · next heq => exact .inr ⟨congrArg ObjectId.mk heq, hlong⟩
  · exact .inl hlong

theorem Overlong.modify_cases (hlong : (h.modify id change).Overlong id') :
    h.Overlong id' ∨ id' = id ∧ (change (h.get id)).Overlong := by
  by_cases heq : id' = id
  · subst heq
    rw [Overlong] at hlong
    rcases h.get_modify id' change id' with hget | hget <;> rw [hget] at hlong
    · exact .inl hlong
    · exact .inr ⟨rfl, hlong⟩
  · rw [Overlong, h.get_modify_of_ne heq] at hlong
    exact .inl hlong

/-- A change that leads no object beyond the limit. -/
theorem Overlong.of_modify (hlong : (h.modify id change).Overlong id')
    (hchange : ∀ o : Object, (change o).Overlong → o.Overlong) : h.Overlong id' := by
  rcases hlong.modify_cases with hlong | ⟨rfl, hlong⟩
  · exact hlong
  · exact hchange _ hlong

end Heap

/-! ## Operations that do not look at the limit -/

/-- What `push`, `unshift` and `splice` do to the elements of an array. -/
inductive Inserts : (Array Value → Array Value) → Prop where
  | push (args : List Value) : Inserts (· ++ args.toArray)
  | unshift (args : List Value) : Inserts (args.toArray ++ ·)
  | splice (start count : Nat) (added : List Value) : Inserts fun elements =>
    elements.extract 0 start ++ added.toArray ++ elements.extract (start + count) elements.size

/-- An array is led beyond the limit: it is made of too many elements, or too many are put in. -/
inductive Machine.Overfills (m : Machine) : ObjectId → Machine → Prop where
  | create {o : Object} (hlong : o.Overlong) :
    m.Overfills ⟨m.heap.size⟩ { m with heap := (m.heap.allocate o).2 }
  | insert {id : ObjectId} {elements : Array Value} {change : Array Value → Array Value}
    (hchange : Inserts change) (helements : (m.heap.get id).elements? = some elements)
    (hshort : elements.size ≤ maxArrayLength) (hlong : maxArrayLength < (change elements).size) :
    m.Overfills id { m with heap := m.heap.modify id (·.withElements change) }

/-- The array is overlong behind it, and was not before. -/
theorem Machine.Overfills.overlong {m m' : Machine} {id : ObjectId} (h : m.Overfills id m') :
    ¬ m.heap.Overlong id ∧ m'.heap.Overlong id := by
  cases h with
  | create hlong =>
    refine ⟨?_, ?_⟩
    · have hnone : m.heap.get ⟨m.heap.size⟩ = default := m.heap.get_of_size_le (Nat.le_refl _)
      rw [Heap.Overlong, hnone]
      exact Object.not_overlong rfl
    · rwa [Heap.Overlong, m.heap.get_allocate_self]
  | @insert _ elements change _ helements hshort hlong =>
    have hlt : id.index < m.heap.size := m.heap.lt_size_of_elements? helements
    refine ⟨?_, ?_⟩
    · rintro ⟨elements', helements', hlong'⟩
      rw [helements] at helements'
      cases helements'
      omega
    · rw [Heap.Overlong, m.heap.get_modify_self hlt]
      refine ⟨change elements, ?_, hlong⟩
      rw [Object.elements?_withElements, helements]
      rfl

end EcmaEval
