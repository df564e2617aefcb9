import EcmaEval.Engine.Operator
import EcmaEval.Library.Object
import EcmaEval.Proofs.Conduct.Store
import EcmaEval.Proofs.Object.PropertyOrder
import EcmaEval.Proofs.Text.CodeUnits
import EcmaEval.Session

/-!
# Writing under a key

A property is kept under the text of the string that is its key.  Two strings have one text only if
a surrogate stands alone in one of them.  A value that is written to an object which is no array is
found under its key, and nothing else is changed by it, unless the object has a value under the key
that may not be written.

## Main definitions

* `Engine.readKey`, `Engine.writeKey`: a property of an object under a string
* `Engine.WritesOnly`: what was written is found, and another key is as it was
* `Engine.ListsKey`: a string is one of the listed keys of an object

## Main results

* `UnitString.text_inj`: strings without lone surrogates differ in their texts
* `Engine.writeKey_only`: writing under a key leaves the other keys alone
-/

namespace EcmaEval

/-- Two strings of texts have one text only if they are one string. -/
theorem UnitString.text_inj {s t : UnitString} (hs : s.IsPaired) (ht : t.IsPaired) :
    s.text = t.text ↔ s = t := by
  refine ⟨fun h => ?_, congrArg UnitString.text⟩
  rw [← UnitString.ofString_text hs, h, UnitString.ofString_text ht]

theorem UnitString.ofString_inj {s t : String} : ofString s = ofString t ↔ s = t := by
  refine ⟨fun h => ?_, congrArg ofString⟩
  rw [← text_ofString s, h, text_ofString]

/-! ## Objects -/

namespace Object

variable {o : Object} {key key' : String} {value : Value}

theorem prototype_setOwn (h : o.isArray = false) :
    (o.setOwn key value).prototype = o.prototype := by
  obtain ⟨properties, heq, -⟩ := properties_change h (.setOwn key value)
  rw [show o.setOwn key value = _ from heq]

theorem getOwn?_setOwn_of_ne (h : o.isArray = false) (hne : key ≠ key') :
    (o.setOwn key value).getOwn? key' = o.getOwn? key' := by
  rw [show o.setOwn key value = o.change (.setOwn key value) from rfl, getOwn?_change h]
  exact if_neg hne

/-- Where a value may be written it is found, and is listed if it was or if it is new. -/
theorem getOwn?_setOwn_self (h : o.isArray = false)
    (hwritable : ∀ p, o.getOwn? key = some p → p.writable = true) :
    (o.setOwn key value).getOwn? key =
      some (.data value true ((o.getOwn? key).all Property.enumerable)) := by
  rw [show o.setOwn key value = o.change (.setOwn key value) from rfl, getOwn?_change h]
  refine (if_pos rfl).trans ?_
  cases hold : o.getOwn? key with
  | none => rfl
  | some p =>
    cases p with
    | data _ writable enumerable =>
      obtain rfl : writable = true := hwritable _ hold
      rfl
    | accessor getter setter enumerable => exact nomatch hwritable _ hold

end Object

/-! ## Heaps -/

namespace Heap

variable (h : Heap) {id : ObjectId} {key : String}

theorem find?_of_own {p : Property} (hid : id.index < h.size)
    (hown : (h.get id).getOwn? key = some p) : h.find? id key = some p := by
  obtain ⟨fuel, hfuel⟩ : ∃ fuel, h.size = fuel + 1 := ⟨h.size - 1, by omega⟩
  rw [find?, hfuel, findWithin]
  simp only [hown]

/-- A change of an object that leaves its prototype and what it has under a key leaves what all
objects find under that key. -/
theorem find?_modify {change : Object → Object} (id' : ObjectId)
    (hown : (change (h.get id)).getOwn? key = (h.get id).getOwn? key)
    (hprototype : (change (h.get id)).prototype = (h.get id).prototype) :
    (h.modify id change).find? id' key = h.find? id' key := by
  have hget (i : ObjectId) : ((h.modify id change).get i).getOwn? key = (h.get i).getOwn? key ∧
      ((h.modify id change).get i).prototype = (h.get i).prototype := by
    by_cases heq : i = id
    · subst heq
      rcases h.get_modify i change i with hget | hget <;> rw [hget]
      · exact ⟨rfl, rfl⟩
      · exact ⟨hown, hprototype⟩
    · rw [h.get_modify_of_ne heq]
      exact ⟨rfl, rfl⟩
  rw [find?, find?, size_modify]
  generalize h.size = fuel
  induction fuel generalizing id' with
  | zero => rfl
  | succ fuel ih =>
    rw [findWithin, findWithin]
    simp only [(hget id').1, (hget id').2, ih]

end Heap

/-! ## Keys of the language -/

namespace Engine

open EcmaEval.Action

variable (engine : Engine) (id : ObjectId) (k k' : UnitString) (v : Value)

/-- Reads the property of an object under a string. -/
def readKey : Action Value := do engine.get (.object id) (← engine.toKey (.string k))

/-- Writes the property of an object under a string. -/
def writeKey : Action Unit := do engine.set (.object id) (← engine.toKey (.string k)) v

/-- Behind a write under `k` the value is found there.  Under `k'` the same is read, inherited and
owned as before. -/
structure WritesOnly (m m' : Machine) : Prop where
  read_self : engine.readKey id k m' = .ok v m'
  read_other : ∃ w, engine.readKey id k' m = .ok w m ∧ engine.readKey id k' m' = .ok w m'
  has_other : ∃ b, engine.hasKey (.string k') (.object id) m = .ok b m ∧
    engine.hasKey (.string k') (.object id) m' = .ok b m'
  own_other : ∃ b, engine.callObject .hasOwnProperty (.object id) [.string k'] m = .ok b m ∧
    engine.callObject .hasOwnProperty (.object id) [.string k'] m' = .ok b m'

/-- The string is one of the listed keys of an object. -/
def ListsKey (m : Machine) : Prop :=
  ∃ keys m', engine.callObject .keys .undefined [.object id] m = .ok (.object ⟨m.heap.size⟩) m' ∧
    (m'.heap.get ⟨m.heap.size⟩).elements? = some keys ∧ .string k ∈ keys

variable {engine id k k' v} {m : Machine}

theorem readKey_apply : engine.readKey id k m =
    engine.readProperty (m.heap.find? id k.text) (.object id) m := rfl

theorem hasKey_apply : engine.hasKey (.string k) (.object id) m =
    .ok (m.heap.has id k.text) m := rfl

theorem hasOwnProperty_apply : engine.callObject .hasOwnProperty (.object id) [.string k] m =
    .ok (.boolean ((m.heap.get id).hasOwn k.text)) m := rfl

/-- What is read when no function stands for it. -/
theorem readProperty_of_data {p : Option Property} (hdata : ∀ q, p = some q → q.isAccessor = false)
    (receiver : Value) :
    engine.readProperty p receiver m = .ok ((p.bind Property.value?).getD .undefined) m := by
  cases p with
  | none => rfl
  | some p =>
    cases p with
    | data value writable enumerable => rfl
    | accessor getter setter enumerable =>
      cases getter with
      | none => rfl
      | some getter => exact nomatch hdata _ rfl

/-- Where no function stands for the property, the receiver gets a value of its own. -/
theorem setProperty_of_data {key : String} (receiver : Value)
    (hdata : ∀ p, m.heap.find? id key = some p → p.isAccessor = false) :
    engine.setProperty id key v receiver m = engine.writeOwn receiver key v m := by
  unfold setProperty
  rw [readHeap_bind]
  cases hfound : m.heap.find? id key with
  | none => rfl
  | some p =>
    cases p with
    | data value writable enumerable => rfl
    | accessor getter setter enumerable =>
      cases setter with
      | some setter =>
        exact absurd (hdata _ hfound) (by simp [Property.isAccessor, Property.setter?])
      | none =>
        cases getter with
        | some getter => exact nomatch hdata _ hfound
        | none => rfl

/-- A value is written to what is no array as it is, unless a function stands for the property. -/
theorem writeKey_apply (hplain : (m.heap.get id).isArray = false)
    (hdata : ∀ p, m.heap.find? id k.text = some p → p.isAccessor = false) :
    engine.writeKey id k v m =
      .ok () { m with heap := m.heap.modify id (·.setOwn k.text v) } := by
  change engine.setProperty id k.text v (.object id) m = _
  rw [setProperty_of_data _ hdata]
  unfold writeOwn
  dsimp only
  rw [readHeap_bind, hplain]
  rfl

/-- A string is listed if it is written as a key that is. -/
theorem listsKey_iff :
    engine.ListsKey id k m ↔ ∃ key ∈ (m.heap.get id).ownKeys true, .ofString key = k := by
  let array := Object.new (some m.realm.arrayPrototype)
    (.array (((m.heap.get id).ownKeys true).map Value.ofText).toArray)
  have hrun : engine.callObject .keys .undefined [.object id] m =
      .ok (.object ⟨m.heap.size⟩) { m with heap := (m.heap.allocate array).2 } := rfl
  have helements : ((m.heap.allocate array).2.get ⟨m.heap.size⟩).elements? =
      some (((m.heap.get id).ownKeys true).map Value.ofText).toArray := by
    rw [m.heap.get_allocate_self]
    rfl
  have hmem : .string k ∈ (((m.heap.get id).ownKeys true).map Value.ofText).toArray ↔
      ∃ key ∈ (m.heap.get id).ownKeys true, .ofString key = k := by
    simp [Value.ofText]
  rw [← hmem]
  constructor
  · rintro ⟨keys, m', hkeys, hfound, hlisted⟩
    rw [hrun] at hkeys
    cases hkeys
    cases helements.symm.trans hfound
    exact hlisted
  · exact fun hlisted => ⟨_, _, hrun, helements, hlisted⟩

/-- **Writing under a string.**  A value that is written to an object which is no array is read back
under the string, and what is read, inherited and owned under a string of another text stays, if no
function stands for a property and the object has no value of its own there which may not be
written.  A string that is new or was listed is listed by its text, which is the string itself if no
surrogate stands alone in it. -/
theorem writeKey_only (hplain : (m.heap.get id).isArray = false) (hid : id.index < m.heap.size)
    (htext : k.text ≠ k'.text)
    (hdata : ∀ p, m.heap.find? id k.text = some p → p.isAccessor = false)
    (hdata' : ∀ p, m.heap.find? id k'.text = some p → p.isAccessor = false)
    (hwritable : ∀ p, (m.heap.get id).getOwn? k.text = some p → p.writable = true) :
    ∃ m', engine.writeKey id k v m = .ok () m' ∧ engine.WritesOnly id k k' v m m' ∧
      ((∀ p, (m.heap.get id).getOwn? k.text = some p → p.enumerable = true) →
        engine.ListsKey id (.ofString k.text) m' ∧ (k.IsPaired → engine.ListsKey id k m')) := by
  let m' : Machine := { m with heap := m.heap.modify id (·.setOwn k.text v) }
  have hget : m'.heap.get id = (m.heap.get id).setOwn k.text v := m.heap.get_modify_self hid _
  have hself : (m'.heap.get id).getOwn? k.text =
      some (.data v true (((m.heap.get id).getOwn? k.text).all Property.enumerable)) := by
    rw [hget, Object.getOwn?_setOwn_self hplain hwritable]
  have hother : (m'.heap.get id).getOwn? k'.text = (m.heap.get id).getOwn? k'.text := by
    rw [hget, Object.getOwn?_setOwn_of_ne hplain htext]
  have hfind : m'.heap.find? id k'.text = m.heap.find? id k'.text :=
    m.heap.find?_modify id (Object.getOwn?_setOwn_of_ne hplain htext)
      (Object.prototype_setOwn hplain)
  refine ⟨m', writeKey_apply hplain hdata, ⟨?_, ?_, ?_, ?_⟩, fun hlisted => ?_⟩
  · rw [readKey_apply, m'.heap.find?_of_own (by simpa [m'] using hid) hself]
    rfl
  · rw [readKey_apply, readKey_apply, hfind]
    exact ⟨_, readProperty_of_data hdata' _, readProperty_of_data hdata' _⟩
  · exact ⟨_, hasKey_apply, by rw [hasKey_apply, Heap.has, hfind, Heap.has]⟩
  · exact ⟨_, hasOwnProperty_apply, by
      rw [hasOwnProperty_apply, Object.hasOwn, hother, Object.hasOwn]⟩
  · have harray : (m'.heap.get id).isArray = false := by
      rw [hget]
      exact Object.isArray_change hplain (.setOwn k.text v)
    have hall : ((m.heap.get id).getOwn? k.text).all Property.enumerable = true := by
      cases hold : (m.heap.get id).getOwn? k.text with
      | none => rfl
      | some p => exact hlisted p hold
    have hmem : k.text ∈ (m'.heap.get id).ownKeys true :=
      ((Object.lists_ownKeys harray true).mem_iff k.text).mpr ⟨_, hself, fun _ => hall⟩
    exact ⟨listsKey_iff.mpr ⟨_, hmem, rfl⟩,
      fun hpaired => listsKey_iff.mpr ⟨_, hmem, UnitString.ofString_text hpaired⟩⟩

/-- A machine with one object, which has a value that may not be written and one that is not
listed. -/
def guardedObject : Machine :=
  { Machine.empty with
    heap := ⟨#[(Object.new none .ordinary).define "fixed" (.fixed .null) |>.insertHidden "hidden"
      .null]⟩ }

/-- A pair of surrogates is a key of its own beside the string of a letter. -/
theorem writeKey_only_pair :
    let k := UnitString.ofString "😀"
    let k' := UnitString.ofString "a"
    (guardedObject.heap.get ⟨0⟩).isArray = false ∧ 0 < guardedObject.heap.size ∧
      k.text ≠ k'.text ∧ guardedObject.heap.find? ⟨0⟩ k.text = none ∧
      guardedObject.heap.find? ⟨0⟩ k'.text = none ∧
      ∃ m', idle.writeKey ⟨0⟩ k .null guardedObject = .ok () m' ∧
        idle.WritesOnly ⟨0⟩ k k' .null guardedObject m' ∧ idle.ListsKey ⟨0⟩ k m' := by
  intro k k'
  have hk : k.IsPaired := UnitString.isPaired_iff.mpr ⟨_, rfl⟩
  have hk' : k'.IsPaired := UnitString.isPaired_iff.mpr ⟨_, rfl⟩
  have htext : k.text ≠ k'.text :=
    (UnitString.text_inj hk hk').not.mpr (UnitString.ofString_inj.not.mpr (by decide))
  have hfind : guardedObject.heap.find? ⟨0⟩ k.text = none := by
    rw [UnitString.text_ofString]
    decide +kernel
  have hfind' : guardedObject.heap.find? ⟨0⟩ k'.text = none := by
    rw [UnitString.text_ofString]
    decide +kernel
  have hown : (guardedObject.heap.get ⟨0⟩).getOwn? k.text = none := by
    rw [UnitString.text_ofString]
    decide +kernel
  have hnone {p : Option Property} {Q : Property → Prop} (h : p = none) : ∀ q, p = some q → Q q :=
    fun q hq => nomatch h.symm.trans hq
  obtain ⟨m', hwrite, honly, hlists⟩ := @writeKey_only idle ⟨0⟩ k k' .null guardedObject rfl
    (by decide) htext (hnone hfind) (hnone hfind') (hnone hown)
  exact ⟨rfl, by decide, htext, hfind, hfind', m', hwrite, honly,
    (hlists (hnone hown)).2 hk⟩

/-- Half of a pair, which is no text. -/
def firstHalf : UnitString := ⟨#[0xD800]⟩

/-- Another half of a pair. -/
def otherHalf : UnitString := ⟨#[0xDBFF]⟩

/-- Strings that differ only in surrogates which stand alone are one key; what is written to a value
that may not be written is dropped; and a key that was not listed stays so. -/
theorem writeKey_not_only :
    (firstHalf ≠ otherHalf ∧ guardedObject.heap.find? ⟨0⟩ firstHalf.text = none ∧
      guardedObject.heap.find? ⟨0⟩ otherHalf.text = none ∧
      ∃ m', idle.writeKey ⟨0⟩ firstHalf .null guardedObject = .ok () m' ∧
        ¬ idle.WritesOnly ⟨0⟩ firstHalf otherHalf .null guardedObject m' ∧
        ¬ idle.ListsKey ⟨0⟩ firstHalf m') ∧
    (guardedObject.heap.find? ⟨0⟩ "fixed" = some (.fixed .null) ∧
      ∃ m', idle.writeKey ⟨0⟩ (.ofString "fixed") .undefined guardedObject = .ok () m' ∧
        ∀ k', ¬ idle.WritesOnly ⟨0⟩ (.ofString "fixed") k' .undefined guardedObject m') ∧
    guardedObject.heap.find? ⟨0⟩ "hidden" = some (.hidden .null) ∧
      ∃ m', idle.writeKey ⟨0⟩ (.ofString "hidden") .undefined guardedObject = .ok () m' ∧
        ¬ idle.ListsKey ⟨0⟩ (.ofString "hidden") m' := by
  refine ⟨⟨by decide, by decide +kernel, by decide +kernel, _, rfl, fun honly => ?_,
    fun hlists => ?_⟩, ⟨rfl, _, rfl, fun k' honly => ?_⟩, rfl, _, rfl, fun hlists => ?_⟩
  · obtain ⟨w, hbefore, hbehind⟩ := honly.read_other
    cases hbefore
    cases hbehind
  · obtain ⟨key, -, heq⟩ := listsKey_iff.mp hlists
    exact nomatch UnitString.isPaired_iff.mpr ⟨key, heq⟩
  · cases honly.read_self
  · obtain ⟨key, hkey, heq⟩ := listsKey_iff.mp hlists
    obtain rfl : key = "hidden" := UnitString.ofString_inj.mp heq
    obtain ⟨p, hp, henumerable⟩ := ((Object.lists_ownKeys rfl true).mem_iff _).mp hkey
    cases hp
    cases henumerable rfl

end Engine

end EcmaEval
