import EcmaEval.Proofs.Conduct.Arrays
import EcmaEval.Proofs.Number.Exact
import EcmaEval.Proofs.Object.KeyWrites

/-!
# Splicing arrays and writing to them

`splice` looks at the length of an array before it converts the number of elements to take out, and
at the elements after that.  The conversion may run a method that takes elements out of the array.
If those that are left end before the part that is to be replaced, the run breaks down; else the
part is replaced, and given in an array of its own.

A write to an index or to the length of an array is looked at before it is carried out, and both
times the range of the key is tested anew.  The tests agree: what passes the first one is written,
and what does not is refused with a `RangeError`.  Only a length is converted first.  The conversion
may run methods, which may write to the array themselves; it stays an array all the same.

## Main definitions

* `Engine.SpliceEnds`: how a call of `splice` ends
* `Heap.Written`: what a write has left of an array, and what has become of it
* `Action.Spares`: an object is behind an action as it was before
* `Engine.WriteEnds`: how a write to an array ends

## Main results

* `Engine.spliceEnds_callArray`: on an array, it ends in one of these ways
* `Engine.set_array_ends`: a write to an array ends in one of these ways
-/

namespace EcmaEval

open EcmaEval.Action

namespace Engine

variable {engine : Engine} {id : ObjectId} {m m₁ : Machine} {elements : Array Value}
  {args : List Value}

theorem indexArgument_le (arg : Option Value) {size default : Nat} (hdefault : default ≤ size) :
    indexArgument arg size default ≤ size := by
  unfold indexArgument
  split
  · exact hdefault
  · exact hdefault
  · exact Number.relativeIndex_le _ _

/-- No more elements are to be taken out than there were from the start of the part on. -/
theorem spliceCount_le {rest count : Nat} (h : engine.spliceCount args rest m = .ok count m₁) :
    count ≤ rest := by
  unfold spliceCount at h
  split at h
  · cases h
    exact Nat.zero_le _
  · cases h
    exact Nat.le_refl _
  · next converted _ =>
    rw [Discipline.bind_apply] at h
    cases hnumber : engine.toNumber converted m with
    | ok x m' =>
      rw [hnumber] at h
      cases h
      exact Number.clampIndex_le _ _
    | error e m' =>
      rw [hnumber] at h
      cases h

/-- The index from which on a call of `splice` takes elements out. -/
def spliceStart (args : List Value) (size : Nat) : Nat := indexArgument args[0]? size 0

/-- How a call of `splice` on the machine `m` ends, on an array of `size` elements.  The number of
elements to take out is converted first, and the rest is about those that are there behind that. -/
inductive SpliceEnds (engine : Engine) (m : Machine) (id : ObjectId) (size : Nat)
    (args : List Value) : EStateM.Result Abrupt Machine Value → Prop where
  | unconverted {e : Abrupt} {m₁ : Machine}
    (hcount : engine.spliceCount args (size - spliceStart args size) m = .error e m₁) :
    SpliceEnds engine m id size args (.error e m₁)
  /-- The object is no array any more, and nothing is taken out. -/
  | vanished {count : Nat} {m₁ m₂ : Machine} {removed : ObjectId}
    (hcount : engine.spliceCount args (size - spliceStart args size) m = .ok count m₁)
    (hnone : (m₁.heap.get id).elements? = none)
    (hgiven : (m₂.heap.get removed).elements? = some #[])
    (hothers : ∀ other, other.index < m₁.heap.size → m₂.heap.get other = m₁.heap.get other) :
    SpliceEnds engine m id size args (.ok (.object removed) m₂)
  /-- The part lies inside the array.  It is given in a new array, and what was to be put in stands in
  its place. -/
  | replaced {start count : Nat} {m₁ m₂ : Machine} {elements : Array Value} {removed : ObjectId}
    (hstart : start = spliceStart args size)
    (hcount : engine.spliceCount args (size - start) m = .ok count m₁)
    (helements : (m₁.heap.get id).elements? = some elements)
    (hbounds : start + count ≤ elements.size)
    (hgiven : (m₂.heap.get removed).elements? = some (elements.extract start (start + count)))
    (hleft : (m₂.heap.get id).elements? = some (elements.extract 0 start ++
      (args.drop 2).toArray ++ elements.extract (start + count) elements.size))
    (hnew : m₁.heap.size ≤ removed.index)
    (hothers : ∀ other, other ≠ id → other.index < m₁.heap.size →
      m₂.heap.get other = m₁.heap.get other) :
    SpliceEnds engine m id size args (.ok (.object removed) m₂)
  /-- The part ends behind the elements that are left, because the conversion took some out. -/
  | outOfBounds {start count : Nat} {m₁ : Machine} {elements : Array Value}
    (hstart : start = spliceStart args size)
    (hcount : engine.spliceCount args (size - start) m = .ok count m₁)
    (helements : (m₁.heap.get id).elements? = some elements)
    (hbounds : elements.size < start + count) (hshrunk : elements.size < size) :
    SpliceEnds engine m id size args
      (.error (.broken (.outOfBounds (start + count) elements.size)) m₁)

/-- The array with a part of it replaced, behind the conversion. -/
def splicedHeap (h : Heap) (id : ObjectId) (start count : Nat) (added : List Value) : Heap :=
  h.modify id (·.withElements fun elements =>
    elements.extract 0 start ++ added.toArray ++ elements.extract (start + count) elements.size)

theorem callArray_splice (harray : (m.heap.get id).elements? = some elements) :
    engine.callArray .splice (.object id) args m =
      match engine.spliceCount args (elements.size - spliceStart args elements.size) m with
      | .error e m₁ => .error e m₁
      | .ok count m₁ =>
        match (m₁.heap.get id).elements? with
        | none => newArray #[] m₁
        | some left =>
          let start := spliceStart args elements.size
          if left.size < start + count then
            .error (.broken (.outOfBounds (start + count) left.size)) m₁
          else
            newArray (left.extract start (start + count))
              { m₁ with heap := splicedHeap m₁.heap id start count (args.drop 2) } := by
  have hcall : engine.callArray .splice (.object id) args m = engine.spliceArray id args m := by
    unfold callArray
    dsimp only
    rw [Discipline.bind_apply, receivedArray_of_elements harray]
  have hlength : ((m.heap.get id).elements?.map Array.size).getD 0 = elements.size := by
    rw [harray]
    rfl
  rw [hcall]
  unfold spliceArray lengthOf
  rw [readHeap_bind, hlength, Discipline.bind_apply]
  unfold spliceStart
  cases engine.spliceCount args (elements.size - indexArgument args[0]? elements.size 0) m with
  | error e m₁ => rfl
  | ok count m₁ =>
    dsimp only
    rw [readHeap_bind]
    cases (m₁.heap.get id).elements? with
    | none => rfl
    | some left =>
      dsimp only
      split <;> rfl

/-- **Splicing an array.**  A call on an array ends in one of these ways.  So the part that is taken
out lies inside the array at that moment, unless the conversion of its length has left fewer elements
there than the part reaches over; that is where the run breaks down. -/
theorem spliceEnds_callArray (harray : (m.heap.get id).elements? = some elements)
    (args : List Value) :
    engine.SpliceEnds m id elements.size args
      (engine.callArray .splice (.object id) args m) := by
  rw [callArray_splice harray]
  generalize hstart : spliceStart args elements.size = start
  have hle : start ≤ elements.size := hstart ▸ indexArgument_le _ (Nat.zero_le _)
  cases hcount : engine.spliceCount args (elements.size - start) m with
  | error e m₁ => exact .unconverted (hstart ▸ hcount)
  | ok count m₁ =>
    dsimp only
    have hrest := spliceCount_le hcount
    cases hleft : (m₁.heap.get id).elements? with
    | none =>
      refine .vanished (hstart ▸ hcount) hleft ?_ fun other hother =>
        m₁.heap.get_allocate_of_lt _ hother
      exact congrArg Object.elements? (m₁.heap.get_allocate_self _)
    | some left =>
      have hid : id.index < m₁.heap.size := m₁.heap.lt_size_of_elements? hleft
      dsimp only
      split
      · next hout => exact .outOfBounds hstart.symm hcount hleft hout (by omega)
      · next hin =>
        have hsize : (splicedHeap m₁.heap id start count (args.drop 2)).size = m₁.heap.size :=
          m₁.heap.size_modify id _
        refine .replaced hstart.symm hcount hleft (Nat.le_of_not_lt hin) ?_ ?_ hsize.ge
          fun other hne hother => ?_
        · exact congrArg Object.elements? (Heap.get_allocate_self _ _)
        · refine (congrArg Object.elements? (Heap.get_allocate_of_lt _ _ (hsize ▸ hid))).trans ?_
          unfold splicedHeap
          rw [Heap.get_modify_self _ hid, Object.elements?_withElements, hleft]
          rfl
        · exact (Heap.get_allocate_of_lt _ _ (hsize ▸ hother)).trans
            (Heap.get_modify_of_ne _ hne _)

/-- Makes an array, and objects that take an element out of it when they are converted. -/
def takingSource : String :=
  "const a = [true, false]; " ++
    "const taking = n => (\x7b valueOf() \x7b a.pop(); return n \x7d \x7d); " ++
    "[a, taking(1), taking(2)]"

/-- The elements are the ones of that array. -/
def isPair : Option (Array Value) → Bool
  | some ⟨[.boolean true, .boolean false]⟩ => true
  | _ => false

theorem eq_of_isPair {found : Option (Array Value)} (h : isPair found = true) :
    found = some #[.boolean true, .boolean false] := by
  unfold isPair at h
  split at h
  · rfl
  · cases h

/-- What a call gives and what it leaves of an array, as they are shown. -/
def shownAlong (id : ObjectId) : EStateM.Result Abrupt Machine Value → Option (String × String)
  | .ok v m => some (m.heap.inspect v, m.heap.inspect (.object id))
  | .error _ _ => none

/-- The bounds at which a run breaks down. -/
def brokenBounds : EStateM.Result Abrupt Machine Value → Option (Nat × Nat)
  | .error (.broken (.outOfBounds stop size)) _ => some (stop, size)
  | _ => none

/-- The conversion of the number takes an element out of the array.  The one that is left can be
taken out, and the run breaks down where two are asked for. -/
theorem spliceEnds_callArray_pair : ∃ m id one two,
    (m.heap.get id).elements? = some #[.boolean true, .boolean false] ∧
    (∀ n, standard.SpliceEnds m id 2 [.undefined, .object n]
      (standard.callArray .splice (.object id) [.undefined, .object n] m)) ∧
    shownAlong id (standard.callArray .splice (.object id) [.undefined, .object one] m) =
      some ("[ true ]", "[]") ∧
    brokenBounds (standard.callArray .splice (.object id) [.undefined, .object two] m) =
      some (2, 1) := by
  have hpair : isPair ((Machine.initial.evaluate takingSource).machine.heap.get ⟨122⟩).elements? =
      true := by
    decide +kernel
  have hone : shownAlong ⟨122⟩ (standard.callArray .splice (.object ⟨122⟩)
      [.undefined, .object ⟨124⟩] (Machine.initial.evaluate takingSource).machine) =
      some ("[ true ]", "[]") := by
    decide +kernel
  have htwo : brokenBounds (standard.callArray .splice (.object ⟨122⟩)
      [.undefined, .object ⟨126⟩] (Machine.initial.evaluate takingSource).machine) =
      some (2, 1) := by
    decide +kernel
  generalize (Machine.initial.evaluate takingSource).machine = m at hpair hone htwo
  have helements := eq_of_isPair hpair
  exact ⟨m, ⟨122⟩, ⟨124⟩, ⟨126⟩, helements,
    fun n => spliceEnds_callArray helements [.undefined, .object n], hone, htwo⟩

end Engine

end EcmaEval

/-! # Writing to arrays -/

namespace EcmaEval

/-! ## Elements -/

section Elements

variable {elements : Array Value} {i j count : Nat} {value : Value}

/-- Elements keep their places, and `undefined` fills up. -/
theorem getElem?_resizeElements (hj : j < count) :
    (resizeElements elements count)[j]? = some (elements[j]?.getD .undefined) := by
  unfold resizeElements
  split
  · next hle =>
    have hlt : j < elements.size := Nat.lt_of_lt_of_le hj hle
    rw [Array.getElem?_eq_getElem hlt, Option.getD_some, Array.getElem?_eq_getElem (by simp; omega)]
    simp
  · by_cases hlt : j < elements.size
    · rw [Array.getElem?_append_left hlt, Array.getElem?_eq_getElem hlt, Option.getD_some]
    · have hfill : j - elements.size < count - elements.size := by omega
      rw [Array.getElem?_append_right (Nat.le_of_not_lt hlt), Array.getElem?_replicate,
        if_pos hfill, Array.getElem?_eq_none (Nat.le_of_not_lt hlt), Option.getD_none]

/-- An element is written after filling up to it. -/
theorem writeElement_eq (elements : Array Value) (i : Nat) (value : Value) :
    writeElement elements i value =
      (resizeElements elements (max elements.size (i + 1))).setIfInBounds i value := by
  unfold writeElement
  dsimp only
  split
  · next hlt =>
    have hsame : resizeElements elements elements.size = elements := by
      unfold resizeElements
      rw [if_pos (Nat.le_refl _)]
      simp
    rw [Nat.max_eq_left hlt, hsame]
  · next hle => rw [Nat.max_eq_right (by omega)]

theorem getElem?_writeElement_self : (writeElement elements i value)[i]? = some value := by
  rw [writeElement_eq, Array.getElem?_setIfInBounds_self_of_lt]
  simp

theorem getElem?_writeElement_of_ne (hne : j ≠ i) (hj : j < max elements.size (i + 1)) :
    (writeElement elements i value)[j]? = some (elements[j]?.getD .undefined) := by
  rw [writeElement_eq, Array.getElem?_setIfInBounds_ne hne.symm, getElem?_resizeElements hj]

end Elements

/-! ## Objects -/

namespace Object

variable {o : Object} {elements : Array Value} {key : String} {value : Value} {i count : Nat}

theorem withElements_of_elements? (h : o.elements? = some elements)
    (change : Array Value → Array Value) :
    o.withElements change = { o with kind := .array (change elements) } := by
  obtain ⟨kind, prototype, properties, objectClass⟩ := o
  cases kind with
  | array found => cases h; rfl
  | _ => cases h

theorem setOwn_index (h : o.isArray = true) (hkey : arrayIndex? key = some i)
    (hi : i < maxArrayLength) : o.setOwn key value = o.withElements (writeElement · i value) := by
  unfold setOwn
  simp only [h, hkey, if_pos hi]

theorem setOwn_length (h : o.isArray = true) (hcount : arrayLength? value = some count) :
    o.setOwn "length" value = o.withElements (resizeElements · count) := by
  unfold setOwn
  simp only [h, arrayIndex?_length, if_true, hcount]

end Object

/-! ## Heaps -/

namespace Heap

variable {h h' : Heap} {id : ObjectId} {key : String} {before after : Array Value}

/-- A property that an object has or inherits is one of its own or of a prototype's. -/
theorem exists_own_of_find? {p : Property} (hfound : h.find? id key = some p) :
    ∃ other ∈ h.chain id, (h.get other).getOwn? key = some p := by
  rw [find?] at hfound
  rw [chain]
  generalize h.size = fuel at *
  induction fuel generalizing id with
  | zero => cases hfound
  | succ fuel ih =>
    rw [findWithin] at hfound
    rw [chainWithin]
    split at hfound
    · next hown => exact ⟨id, List.mem_cons_self, hown.trans hfound⟩
    · split at hfound
      · next q hprototype =>
        obtain ⟨other, hother, hown⟩ := ih hfound
        exact ⟨other, List.mem_cons_of_mem _ hother, hown⟩
      · cases hfound

/-- What a write under a key has left of an array, and what has become of it.  The elements within
both lengths keep their values, new ones are `undefined`, and whatever is no element stays; so do
the other objects. -/
structure Written (h : Heap) (id : ObjectId) (key : String) (before after : Array Value)
    (h' : Heap) : Prop where
  elements : (h.get id).elements? = some before
  written : (h'.get id).elements? = some after
  kept : ∀ j, arrayIndex? key ≠ some j → j < before.size → j < after.size → after[j]? = before[j]?
  filled : ∀ j, arrayIndex? key ≠ some j → before.size ≤ j → j < after.size →
    after[j]? = some .undefined
  named : ∀ name, name ≠ "length" → arrayIndex? name = none →
    (h'.get id).getOwn? name = (h.get id).getOwn? name
  prototype : (h'.get id).prototype = (h.get id).prototype
  others : ∀ other, other ≠ id → h'.get other = h.get other

theorem Written.of_change (set : Object → Object) (change : Array Value → Array Value)
    (helements : (h.get id).elements? = some before)
    (hset : set (h.get id) = (h.get id).withElements change)
    (hchange : ∀ j, arrayIndex? key ≠ some j → j < (change before).size →
      (change before)[j]? = some (before[j]?.getD .undefined)) :
    h.Written id key before (change before) (h.modify id set) := by
  have hget : (h.modify id set).get id = (h.get id).withElements change := by
    rw [h.get_modify_self (h.lt_size_of_elements? helements), hset]
  have hwritten : ((h.get id).withElements change).elements? = some (change before) := by
    rw [Object.elements?_withElements, helements, Option.map_some]
  have heq := Object.withElements_of_elements? helements change
  refine ⟨helements, by rw [hget, hwritten], fun j hne hold hnew => ?_, fun j hne hold hnew => ?_,
    fun name hlength hindex => ?_, by rw [hget, heq], fun other hne => h.get_modify_of_ne hne _⟩
  · rw [hchange j hne hnew, Array.getElem?_eq_getElem hold, Option.getD_some]
  · rw [hchange j hne hnew, Array.getElem?_eq_none hold, Option.getD_none]
  · rw [hget, Object.getOwn?_of_elements? hwritten, Object.getOwn?_of_elements? helements,
      if_neg hlength, if_neg hlength, hindex, Object.properties_withElements]

theorem Written.element {i : Nat} {v : Value} (helements : (h.get id).elements? = some before)
    (hkey : arrayIndex? key = some i) (hi : i < maxArrayLength) :
    h.Written id key before (writeElement before i v) (h.modify id (·.setOwn key v)) := by
  refine .of_change (·.setOwn key v) (writeElement · i v) helements
    (Object.setOwn_index (Object.isArray_of_elements? helements) hkey hi) fun j hne hj => ?_
  rw [size_writeElement] at hj
  refine getElem?_writeElement_of_ne ?_ hj
  rintro rfl
  exact hne hkey

theorem Written.length {n : Nat} {v : Value} (helements : (h.get id).elements? = some before)
    (hn : Object.arrayLength? v = some n) :
    h.Written id "length" before (resizeElements before n) (h.modify id (·.setOwn "length" v)) := by
  refine .of_change (·.setOwn "length" v) (resizeElements · n) helements
    (Object.setOwn_length (Object.isArray_of_elements? helements) hn) fun j _ hj => ?_
  rw [size_resizeElements] at hj
  exact getElem?_resizeElements hj

end Heap

/-! ## Writes -/

/-- Whatever way the action ends, the object is behind it as it was before. -/
def Action.Spares {α : Type} (a : Action α) (m : Machine) (id : ObjectId) : Prop :=
  match a m with
  | .ok _ m₁ | .error _ m₁ => m₁.heap.get id = m.heap.get id

open EcmaEval.Action

namespace Engine

variable {engine : Engine} {id : ObjectId} {key : String} {v : Value} {m m₁ : Machine}

/-- How a write to an array on the machine `m` ends. -/
inductive WriteEnds (engine : Engine) (m : Machine) (id : ObjectId) (key : String) (v : Value) :
    EStateM.Result Abrupt Machine Unit → Prop where
  /-- The element is read back. -/
  | element {i : Nat} {before after : Array Value} {m' : Machine} (hkey : arrayIndex? key = some i)
    (hi : i < maxArrayLength) (hwritten : m.heap.Written id key before after m'.heap)
    (hsize : after.size = max before.size (i + 1))
    (hread : engine.get (.object id) key m' = .ok v m') :
    WriteEnds engine m id key v (.ok () m')
  /-- The length is a natural number, and is read back but for the sign of a zero.  The elements are
  the ones that the conversion has left. -/
  | length {x : Float} {n : Nat} {before after : Array Value} {m₁ m' : Machine}
    (hkey : key = "length") (hnumber : engine.toNumber v m = .ok x m₁) (hn : n ≤ maxArrayLength)
    (hwritten : m₁.heap.Written id key before after m'.heap) (hsize : after.size = n)
    (hread : engine.get (.object id) key m' = .ok (.ofNat n) m')
    (hvalue : (Float.ofNat n == x) = true) (hexact : 0 < n → Float.ofNat n = x) :
    WriteEnds engine m id key v (.ok () m')
  /-- The index is beyond the limit. -/
  | indexError {i : Nat} (hkey : arrayIndex? key = some i) (hi : maxArrayLength ≤ i) :
    WriteEnds engine m id key v
      (.error (.thrown (.object ⟨m.heap.size⟩)) (m.afterFault .arrayLength))
  /-- The number is no length, or one beyond the limit. -/
  | lengthError {x : Float} {m₁ : Machine} (hkey : key = "length")
    (hnumber : engine.toNumber v m = .ok x m₁) (hx : Object.arrayLength? (.number x) = none) :
    WriteEnds engine m id key v
      (.error (.thrown (.object ⟨m₁.heap.size⟩)) (m₁.afterFault .arrayLength))
  /-- The conversion does not give a number. -/
  | unconverted {e : Abrupt} {m₁ : Machine} (hkey : key = "length")
    (hnumber : engine.toNumber v m = .error e m₁) : WriteEnds engine m id key v (.error e m₁)

/-- A value that an object itself holds is read as it is. -/
theorem get_of_ownValue? {value : Value} (hid : id.index < m.heap.size)
    (hown : (m.heap.get id).ownValue? key = some value) :
    engine.get (.object id) key m = .ok value m := by
  obtain ⟨p, hfound, hvalue⟩ := Option.bind_eq_some_iff.mp hown
  change engine.readProperty (m.heap.find? id key) (.object id) m = _
  rw [m.heap.find?_of_own hid hfound]
  cases p with
  | data held writable enumerable => cases hvalue; rfl
  | accessor getter setter enumerable => cases hvalue

/-- A number that may be set as the length. -/
theorem exists_of_arrayLength? {x : Float} {n : Nat}
    (h : Object.arrayLength? (.number x) = some n) :
    Number.toInt? x = some (n : Int) ∧ n ≤ maxArrayLength := by
  have hle := Object.le_of_arrayLength? h
  unfold Object.arrayLength? at h
  dsimp only at h
  split at h
  · next i hi =>
    split at h
    · next hrange =>
      cases h
      rw [hi, Int.toNat_of_nonneg hrange.1]
      exact ⟨rfl, hle⟩
    · cases h
  · cases h

section Array

variable (harray : (m.heap.get id).isArray = true)
include harray

theorem writeOwn_index {i : Nat} (hkey : arrayIndex? key = some i) (hi : i < maxArrayLength) :
    engine.writeOwn (.object id) key v m =
      .ok () { m with heap := m.heap.modify id (·.setOwn key v) } := by
  unfold writeOwn checkArrayWrite
  simp only [readHeap_bind, harray, if_true, hkey, if_neg (Object.ne_length_of_arrayIndex? hkey),
    if_pos hi]
  rfl

theorem writeOwn_length {x : Float} {n : Nat} (hnumber : engine.toNumber v m = .ok x m₁)
    (hn : Object.arrayLength? (.number x) = some n) :
    engine.writeOwn (.object id) "length" v m =
      .ok () { m₁ with heap := m₁.heap.modify id (·.setOwn "length" (.number x)) } := by
  unfold writeOwn checkArrayWrite
  simp only [readHeap_bind, harray, if_true, bind_assoc]
  rw [Discipline.bind_apply, hnumber]
  simp only [hn, Option.isSome_some, if_true]
  rfl

theorem writeOwn_unconverted {e : Abrupt} (hnumber : engine.toNumber v m = .error e m₁) :
    engine.writeOwn (.object id) "length" v m = .error e m₁ := by
  unfold writeOwn checkArrayWrite
  simp only [readHeap_bind, harray, if_true, bind_assoc]
  rw [Discipline.bind_apply, hnumber]

end Array

/-- The element that was written is there. -/
theorem writeEnds_element {i : Nat} {before : Array Value}
    (helements : (m.heap.get id).elements? = some before) (hkey : arrayIndex? key = some i)
    (hi : i < maxArrayLength) : engine.WriteEnds m id key v
      (.ok () { m with heap := m.heap.modify id (·.setOwn key v) }) := by
  have hwritten := Heap.Written.element (v := v) helements hkey hi
  refine .element hkey hi hwritten (size_writeElement ..)
    (get_of_ownValue? (Heap.lt_size_of_elements? _ hwritten.written) ?_)
  rw [Object.ownValue?, Object.getOwn?_of_elements? hwritten.written,
    if_neg (Object.ne_length_of_arrayIndex? hkey), hkey]
  dsimp only
  rw [getElem?_writeElement_self]
  rfl

section Length

variable {x : Float} {n : Nat} {before : Array Value}

/-- The length is read back in the form in which lengths are made. -/
theorem get_length_written (helements : (m.heap.get id).elements? = some before)
    (hn : Object.arrayLength? (.number x) = some n) {m' : Machine}
    (hm' : m' = { m with heap := m.heap.modify id (·.setOwn "length" (.number x)) }) :
    engine.get (.object id) "length" m' = .ok (.ofNat n) m' := by
  have hwritten : (m'.heap.get id).elements? = some (resizeElements before n) := by
    rw [hm']
    exact (Heap.Written.length helements hn).written
  refine get_of_ownValue? (m'.heap.lt_size_of_elements? hwritten) ?_
  rw [Object.ownValue?, Object.getOwn?_of_elements? hwritten, if_pos rfl, size_resizeElements]
  rfl

/-- The length that was written is there. -/
theorem writeEnds_length (hnumber : engine.toNumber v m = .ok x m₁)
    (helements : (m₁.heap.get id).elements? = some before)
    (hn : Object.arrayLength? (.number x) = some n) : engine.WriteEnds m id "length" v
      (.ok () { m₁ with heap := m₁.heap.modify id (·.setOwn "length" (.number x)) }) := by
  obtain ⟨hvalue, hle⟩ := exists_of_arrayLength? hn
  have hlt : n < 2 ^ 53 := Nat.lt_of_le_of_lt hle (by decide)
  exact .length rfl hnumber hle (Heap.Written.length helements hn) (size_resizeElements ..)
    (get_length_written helements hn rfl) (Number.ofNat_beq_of_toInt? hvalue hlt)
    fun hpos => Number.ofNat_eq_of_toInt? hvalue hpos hlt

/-- A number that is a length is written. -/
theorem set_length_number (helements : (m.heap.get id).elements? = some before)
    (hn : Object.arrayLength? (.number x) = some n) :
    ∃ m', engine.set (.object id) "length" (.number x) m = .ok () m' ∧
      engine.get (.object id) "length" m' = .ok (.ofNat n) m' := by
  have hown : (m.heap.get id).getOwn? "length" = some (.hidden (.ofNat before.size)) := by
    rw [Object.getOwn?_of_elements? helements, if_pos rfl]
  have hfound := m.heap.find?_of_own (m.heap.lt_size_of_elements? helements) hown
  have hset : engine.set (.object id) "length" (.number x) m = _ :=
    (setProperty_of_data _ fun p hp => by cases hfound.symm.trans hp; rfl).trans
      (writeOwn_length (Object.isArray_of_elements? helements) rfl hn)
  exact ⟨_, hset, get_length_written helements hn rfl⟩

end Length

variable {L : Law} {hidden : Set ObjectId}

/-- What is an array stays one while a value is converted. -/
theorem isArray_of_toNumber [engine.Behaves L] (hm : m.Sound L hidden)
    (hv : facts v ⊆ m.granted L hidden) (harray : (m.heap.get id).isArray = true) {x : Float}
    (hnumber : engine.toNumber v m = .ok x m₁) : (m₁.heap.get id).isArray = true := by
  have : Shown (m.knowledge L hidden) v := ⟨hv⟩
  have hconducts : L.Conducts (m.knowledge L hidden) (engine.toNumber v) := inferInstance
  have hends := hconducts.ends hm.meets
  rw [hnumber] at hends
  cases hends with
  | ok hstep _ => exact hstep.grows.arrays id harray

theorem get_afterFault (harray : (m.heap.get id).isArray = true) (f : Fault) :
    (m.afterFault f).heap.get id = m.heap.get id := by
  obtain ⟨elements, helements⟩ := Option.isSome_iff_exists.mp harray
  exact m.heap.get_allocate_of_lt _ (m.heap.lt_size_of_elements? helements)

/-- A write that is not carried out leaves the array as the conversion has left it. -/
theorem WriteEnds.unchanged {e : Abrupt} {m' : Machine}
    (hends : engine.WriteEnds m id key v (.error e m')) (harray : (m.heap.get id).isArray = true)
    (hspares : key = "length" → (engine.toNumber v).Spares m id) :
    m'.heap.get id = m.heap.get id := by
  cases hends with
  | indexError hkey hi => exact get_afterFault harray _
  | @lengthError x m₁ hkey hnumber hx =>
    -- The error object is new, so it is not the array that the conversion has spared.
    have hleft := hspares hkey
    rw [Spares, hnumber] at hleft
    exact (get_afterFault (hleft ▸ harray) _).trans hleft
  | unconverted hkey hnumber =>
    have hleft := hspares hkey
    rwa [Spares, hnumber] at hleft

/-- A value that is no object is converted without a method. -/
theorem spares_toNumber (hv : v.isObject = false) : (engine.toNumber v).Spares m id := by
  cases v with
  | object other => cases hv
  | _ => rfl

theorem writeEnds_set [engine.Behaves L] (hm : m.Sound L hidden)
    (hv : facts v ⊆ m.granted L hidden) (harray : (m.heap.get id).isArray = true)
    (hkey : key = "length" ∨ (arrayIndex? key).isSome = true)
    (hdata : ∀ other ∈ m.heap.chain id, ∀ p, (m.heap.get other).getOwn? key = some p →
      p.isAccessor = false) :
    engine.WriteEnds m id key v (engine.set (.object id) key v m) := by
  have hown : engine.set (.object id) key v m = engine.writeOwn (.object id) key v m := by
    refine setProperty_of_data _ fun p hp => ?_
    obtain ⟨other, hother, hfound⟩ := m.heap.exists_own_of_find? hp
    exact hdata other hother p hfound
  rw [hown]
  rcases hkey with rfl | hindex
  · cases hnumber : engine.toNumber v m with
    | error e m₁ =>
      rw [writeOwn_unconverted harray hnumber]
      exact .unconverted rfl hnumber
    | ok x m₁ =>
      -- Were the object no array any more, the number would be kept as a named property.
      have harray₁ := isArray_of_toNumber hm hv harray hnumber
      obtain ⟨elements, helements⟩ := Option.isSome_iff_exists.mp harray₁
      cases hn : Object.arrayLength? (.number x) with
      | none =>
        rw [writeOwn_of_length harray hnumber hn]
        exact .lengthError rfl hnumber hn
      | some n =>
        rw [writeOwn_length harray hnumber hn]
        exact writeEnds_length hnumber helements hn
  · obtain ⟨i, hi⟩ := Option.isSome_iff_exists.mp hindex
    obtain ⟨elements, helements⟩ := Option.isSome_iff_exists.mp harray
    by_cases hlimit : i < maxArrayLength
    · rw [writeOwn_index harray hi hlimit]
      exact writeEnds_element helements hi hlimit
    · rw [writeOwn_of_index harray hi (Nat.le_of_not_lt hlimit)]
      exact .indexError hi (Nat.le_of_not_lt hlimit)

/-- **Writing to an array.**  A write to the length or to an index of an array, where no function
stands for the property, is carried out or throws; it is never dropped.  Where it is carried out,
the value is read back, the elements within both lengths and all that is no element stay, and new
slots hold `undefined`.  Where it is not, the array is unchanged.  All that is said of the array as
the conversion of a length leaves it; a value that is no object is converted without a method. -/
theorem set_array_ends (engine : Engine) [engine.Behaves L] (hm : m.Sound L hidden)
    (hv : facts v ⊆ m.granted L hidden) (harray : (m.heap.get id).isArray = true)
    (hkey : key = "length" ∨ (arrayIndex? key).isSome = true)
    (hdata : ∀ other ∈ m.heap.chain id, ∀ p, (m.heap.get other).getOwn? key = some p →
      p.isAccessor = false) :
    engine.WriteEnds m id key v (engine.set (.object id) key v m) ∧
      (∀ e m', engine.set (.object id) key v m = .error e m' →
        (key = "length" → (engine.toNumber v).Spares m id) → m'.heap.get id = m.heap.get id) ∧
      (v.isObject = false → (engine.toNumber v).Spares m id) := by
  have hends : engine.WriteEnds m id key v _ := writeEnds_set hm hv harray hkey hdata
  refine ⟨hends, fun e m' herror hspares => ?_, spares_toNumber⟩
  rw [herror] at hends
  exact hends.unchanged harray hspares

/-- The length of an array of two elements is set to one. -/
theorem set_array_ends_shorter : ∃ id m m',
    newArray #[.boolean true, .boolean false] Machine.bare = .ok (.object id) m ∧
      m.Sound (.lax False) ∅ ∧ facts (Value.number 1.0) ⊆ m.granted (.lax False) ∅ ∧
      (m.heap.get id).isArray = true ∧
      (∀ other ∈ m.heap.chain id, ∀ p, (m.heap.get other).getOwn? "length" = some p →
        p.isAccessor = false) ∧
      standard.set (.object id) "length" (.number 1.0) m = .ok () m' ∧
      (m'.heap.get id).elements? = some #[.boolean true] ∧
      standard.WriteEnds m id "length" (.number 1.0) (.ok () m') := by
  have hfree (id : FrameId) (name : String) : (Law.lax False).free id name := trivial
  have : standard.Behaves (.lax False) := behaves_ofFuel (Law.records_lax False) _
  have hbare : Machine.bare.Sound (.lax False) ∅ := Machine.sound_bare hfree
  let id : ObjectId := ⟨Machine.bare.heap.size⟩
  obtain ⟨m, hnew⟩ : ∃ m, newArray #[.boolean true, .boolean false] Machine.bare =
      .ok (.object id) m := ⟨_, rfl⟩
  have hm : m.Sound (.lax False) ∅ := by
    have : Shown (Machine.bare.knowledge (.lax False) ∅)
      #[Value.boolean true, Value.boolean false] := inferInstance
    have hconducts : (Law.lax False).Conducts (Machine.bare.knowledge (.lax False) ∅)
      (newArray #[.boolean true, .boolean false]) := inferInstance
    have hends := hconducts.ends hbare.meets
    rw [hnew] at hends
    cases hends with
    | ok hstep _ => exact hstep.sound
  have hv : facts (Value.number 1.0) ⊆ m.granted (.lax False) ∅ := Set.empty_subset _
  have hmade : m = { Machine.bare with heap := (Machine.bare.heap.allocate (.new
      (some Machine.bare.realm.arrayPrototype)
      (.array #[.boolean true, .boolean false]))).2 } := by
    cases hnew
    rfl
  have harray : (m.heap.get id).isArray = true := by rw [hmade]; rfl
  have hdata : ∀ other ∈ m.heap.chain id, ∀ p, (m.heap.get other).getOwn? "length" = some p →
      p.isAccessor = false := by
    have hall : (m.heap.chain id).all (fun other =>
        ((m.heap.get other).getOwn? "length").all (!·.isAccessor)) = true := by
      rw [hmade]
      rfl
    intro other hother p hown
    have hnone := List.all_eq_true.mp hall other hother
    rw [hown] at hnone
    simpa using hnone
  obtain ⟨m', hset, hleft⟩ : ∃ m', standard.set (.object id) "length" (.number 1.0) m = .ok () m' ∧
      (m'.heap.get id).elements? = some #[.boolean true] := by
    rw [hmade]
    exact ⟨_, rfl, rfl⟩
  have hends := (set_array_ends standard hm hv harray (.inl rfl) hdata).1
  rw [hset] at hends
  exact ⟨id, m, m', hnew, hm, hv, harray, hdata, hset, hleft, hends⟩

/-- A machine with an array of two elements that is converted by taking out its first one. -/
def shiftingMachine (first : Value) : Machine :=
  { Machine.empty with
    heap := ⟨#[
      (Object.new none (.array #[first, .boolean false])).insertPlain "valueOf" (.object ⟨1⟩),
      .new none (.function (.native (.builtin (.array .shift))))]⟩ }

/-- The conversion of a length may take out an element that both lengths reach over, and may do so
also where the length is not set then.  A negative zero is read back as a positive one. -/
theorem set_array_shifted :
    (((shiftingMachine (.boolean true)).heap.get ⟨0⟩).elements? =
        some #[.boolean true, .boolean false] ∧
      ∃ m', standard.set (.object ⟨0⟩) "length" (.object ⟨0⟩) (shiftingMachine (.boolean true)) =
          .ok () m' ∧
        (m'.heap.get ⟨0⟩).elements? = some #[.boolean false]) ∧
    (((shiftingMachine .undefined).heap.get ⟨0⟩).elements? = some #[.undefined, .boolean false] ∧
      ∃ v m', standard.set (.object ⟨0⟩) "length" (.object ⟨0⟩) (shiftingMachine .undefined) =
          .error (.thrown v) m' ∧
        (m'.heap.get ⟨0⟩).elements? = some #[.boolean false]) ∧
    ∃ m', standard.set (.object ⟨0⟩) "length" (.number (-0.0)) (shiftingMachine .null) =
        .ok () m' ∧
      standard.get (.object ⟨0⟩) "length" m' = .ok (.ofNat 0) m' ∧ Float.ofNat 0 ≠ -0.0 := by
  refine ⟨⟨rfl, _, rfl, rfl⟩, ⟨rfl, _, _, rfl, rfl⟩, ?_⟩
  have hzero : Object.arrayLength? (.number (-0.0)) = some 0 := by decide +kernel
  have helements : ((shiftingMachine .null).heap.get ⟨0⟩).elements? =
    some #[.null, .boolean false] := rfl
  obtain ⟨m', hset, hread⟩ : ∃ m',
      standard.set (.object ⟨0⟩) "length" (.number (-0.0)) (shiftingMachine .null) = .ok () m' ∧
        standard.get (.object ⟨0⟩) "length" m' = .ok (.ofNat 0) m' :=
    set_length_number helements hzero
  exact ⟨m', hset, hread, by decide +kernel⟩

end Engine

end EcmaEval
