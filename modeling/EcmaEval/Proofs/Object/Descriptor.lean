import EcmaEval.Session
import EcmaEval.Proofs.Conduct.Store
import EcmaEval.Proofs.Object.PropertyOrder

/-!
# Properties that descriptors define

`Object.defineProperty` first runs code of the program: it converts the key, and reads the
attributes of the descriptor.  What it does then is decided.  Either the attributes are refused, and
all objects stay; or the object gets the property that they make of the one it had, and nothing else
changes.

An attribute that is missing is taken from the property that is replaced, if it is of the same kind.
A descriptor that has no attribute of either kind counts as one of a value.  So it makes a value of
a pair of functions, which are lost.

## Main definitions

* `Engine.Attributes.Valid`: the attributes are not refused
* `Engine.Attributes.Merges`: what attributes make of a property
* `Engine.Attributes.Defined`: an object behind a definition
* `Engine.readRequest`: the part of a definition that runs code of the program

## Main results

* `Engine.Attributes.merges_toProperty`: the property that is defined
* `Engine.callObject_defineProperty`: how `Object.defineProperty` ends
-/

namespace EcmaEval

namespace Property

/-- The property is a pair of functions, be there any or not. -/
def isPair : Property → Bool
  | data .. => false
  | accessor .. => true

/-- The property, listed or not. -/
def withEnumerable : Property → (enumerable : Bool) → Property
  | data value writable _, enumerable => .data value writable enumerable
  | accessor getter setter _, enumerable => .accessor getter setter enumerable

end Property

/-- The function that an attribute gives.  There is none if it is `undefined`. -/
def givenFunction (f : Option Value) : Option Value := f.filter (!·.isUndefined)

namespace Engine

/-- What is given for a getter or setter is a function or `undefined`. -/
def MayStand (h : Heap) (f : Option Value) : Prop :=
  ∀ g, f = some g → g.isUndefined = true ∨ h.isCallable g = true

namespace Attributes

variable {a : Attributes} {old : Option Property} {p : Property} {h : Heap}

/-- A getter and a setter may stand as such, and stand beside no attribute of a value. -/
structure Valid (a : Attributes) (h : Heap) : Prop where
  getter : MayStand h a.getter
  setter : MayStand h a.setter
  unmixed : a.isAccessor = true → a.isData = false

/-- The property has the attributes that are given. -/
structure Gives (a : Attributes) (p : Property) : Prop where
  value : ∀ v, a.value = some v → p.value? = some v
  writable : ∀ w, a.writable = some w → p.writable = w
  enumerable : ∀ e, a.enumerable = some e → p.enumerable = e
  getter : ∀ f, a.getter = some f → p.getter? = givenFunction (some f)
  setter : ∀ f, a.setter = some f → p.setter? = givenFunction (some f)

/-- The property has the attributes of another one of its kind where none are given. -/
structure Takes (a : Attributes) (old p : Property) : Prop where
  value : a.value = none → p.value? = old.value?
  writable : a.writable = none → p.writable = old.writable
  getter : a.getter = none → p.getter? = givenFunction old.getter?
  setter : a.setter = none → p.setter? = givenFunction old.setter?

/-- The property has no attributes but those that are given. -/
structure Lacks (a : Attributes) (p : Property) : Prop where
  value : a.value = none → p.value? = none ∨ p.value? = some .undefined
  writable : a.writable = none → p.writable = false
  getter : a.getter = none → p.getter? = none
  setter : a.setter = none → p.setter? = none

/-- What attributes make of a property, if there was one.  Attributes of neither kind change how a
value is listed, but make a value of a pair of functions. -/
structure Merges (a : Attributes) (old : Option Property) (p : Property) : Prop where
  kind : p.isPair = a.isAccessor
  gives : a.Gives p
  listed : a.enumerable = none → p.enumerable = old.any Property.enumerable
  same : ∀ q, old = some q → q.isPair = p.isPair → a.Takes q p
  other : ∀ q, old = some q → q.isPair ≠ p.isPair → a.Lacks p
  new : old = none → a.Lacks p
  generic : a.isAccessor = false → a.isData = false → ∀ q, old = some q → q.isPair = false →
    p = q.withEnumerable (a.enumerable.getD q.enumerable)
  stripped : a.isAccessor = false → a.isData = false → ∀ q, old = some q → q.isPair = true →
    p = .data .undefined false (a.enumerable.getD q.enumerable)

/-- The object has the property that attributes make of the one that it had.  Its other properties
stay, and so does all else of it, and all other objects. -/
structure Defined (a : Attributes) (id : ObjectId) (key : String) (h h' : Heap) : Prop where
  property : ∃ p, (h'.get id).getOwn? key = some p ∧ a.Merges ((h.get id).getOwn? key) p
  others : ∀ other, other ≠ key → (h'.get id).getOwn? other = (h.get id).getOwn? other
  rest : h'.get id = { h.get id with properties := (h'.get id).properties }
  elsewhere : ∀ id', id' ≠ id → h'.get id' = h.get id'

theorem isAccessor_eq_false_iff : a.isAccessor = false ↔ a.getter = none ∧ a.setter = none := by
  simp [isAccessor]

theorem isData_eq_false_iff : a.isData = false ↔ a.value = none ∧ a.writable = none := by
  simp [isData]

/-- With a getter or a setter the property is a pair of functions. -/
theorem toProperty_of_isAccessor (haccessor : a.isAccessor = true) (old : Option Property) :
    a.toProperty old = .accessor (givenFunction (a.getter.or (old.bind Property.getter?)))
      (givenFunction (a.setter.or (old.bind Property.setter?)))
      (a.enumerable.getD (old.any Property.enumerable)) := by
  rw [toProperty, if_pos haccessor]
  rfl

/-- Without both the property is a value. -/
theorem toProperty_of_not_isAccessor (haccessor : a.isAccessor = false) (old : Option Property) :
    a.toProperty old = .data ((a.value.or (old.bind Property.value?)).getD .undefined)
      (a.writable.getD (old.any Property.writable))
      (a.enumerable.getD (old.any Property.enumerable)) := by
  rw [toProperty, haccessor]
  rfl

section Merge

variable (hunmixed : a.isAccessor = true → a.isData = false) (old : Option Property)

theorem isPair_toProperty (a : Attributes) : (a.toProperty old).isPair = a.isAccessor := by
  cases haccessor : a.isAccessor with
  | true => rw [toProperty_of_isAccessor haccessor]; rfl
  | false => rw [toProperty_of_not_isAccessor haccessor]; rfl

theorem enumerable_toProperty (a : Attributes) :
    (a.toProperty old).enumerable = a.enumerable.getD (old.any Property.enumerable) := by
  cases haccessor : a.isAccessor with
  | true => rw [toProperty_of_isAccessor haccessor]; rfl
  | false => rw [toProperty_of_not_isAccessor haccessor]; rfl

include hunmixed

theorem gives_toProperty : a.Gives (a.toProperty old) := by
  have henumerable (e : Bool) (he : a.enumerable = some e) : (a.toProperty old).enumerable = e := by
    rw [enumerable_toProperty, he, Option.getD_some]
  cases haccessor : a.isAccessor with
  | true =>
    obtain ⟨hvalue, hwritable⟩ := isData_eq_false_iff.mp (hunmixed haccessor)
    rw [toProperty_of_isAccessor haccessor] at henumerable ⊢
    exact ⟨fun v hv => (nomatch hvalue.symm.trans hv),
      fun w hw => (nomatch hwritable.symm.trans hw), henumerable, fun f hf => by rw [hf]; rfl, fun f hf => by rw [hf]; rfl⟩
  | false =>
    obtain ⟨hgetter, hsetter⟩ := isAccessor_eq_false_iff.mp haccessor
    rw [toProperty_of_not_isAccessor haccessor] at henumerable ⊢
    exact ⟨fun v hv => by rw [hv]; rfl, fun w hw => by rw [hw]; rfl, henumerable,
      fun f hf => (nomatch hgetter.symm.trans hf), fun f hf => (nomatch hsetter.symm.trans hf)⟩

omit hunmixed in
/-- What is missing is taken from a property of the same kind. -/
theorem takes_toProperty {q : Property} (hsame : q.isPair = a.isAccessor) :
    a.Takes q (a.toProperty (some q)) := by
  cases q with
  | data value writable enumerable =>
    rw [toProperty_of_not_isAccessor hsame.symm]
    exact ⟨fun hv => by rw [hv]; rfl, fun hw => by rw [hw]; rfl, fun _ => rfl, fun _ => rfl⟩
  | accessor getter setter enumerable =>
    rw [toProperty_of_isAccessor hsame.symm]
    exact ⟨fun _ => rfl, fun _ => rfl, fun hf => by rw [hf]; rfl, fun hf => by rw [hf]; rfl⟩

omit hunmixed in
/-- What is missing is nowhere else to be taken from. -/
theorem lacks_toProperty (hother : ∀ q, old = some q → q.isPair ≠ a.isAccessor) :
    a.Lacks (a.toProperty old) := by
  cases haccessor : a.isAccessor with
  | true =>
    -- A value has no functions.
    have hnone : old.bind Property.getter? = none ∧ old.bind Property.setter? = none := by
      rcases old with _ | ⟨_ | _⟩
      · exact ⟨rfl, rfl⟩
      · exact ⟨rfl, rfl⟩
      · exact absurd haccessor.symm (hother _ rfl)
    rw [toProperty_of_isAccessor haccessor, hnone.1, hnone.2]
    exact ⟨fun _ => .inl rfl, fun _ => rfl, fun hf => by rw [hf]; rfl, fun hf => by rw [hf]; rfl⟩
  | false =>
    -- A pair of functions has no value, and may not be written.
    have hnone : old.bind Property.value? = none ∧ old.any Property.writable = false := by
      rcases old with _ | ⟨_ | _⟩
      · exact ⟨rfl, rfl⟩
      · exact absurd haccessor.symm (hother _ rfl)
      · exact ⟨rfl, rfl⟩
    rw [toProperty_of_not_isAccessor haccessor, hnone.1, hnone.2]
    exact ⟨fun hv => by rw [hv]; exact .inr rfl, fun hw => by rw [hw]; rfl, fun _ => rfl,
      fun _ => rfl⟩

/-- **The property that is defined.** -/
theorem merges_toProperty : a.Merges old (a.toProperty old) := by
  constructor
  case kind => exact isPair_toProperty old a
  case gives => exact gives_toProperty hunmixed old
  case listed =>
    intro he
    rw [enumerable_toProperty, he, Option.getD_none]
  case same =>
    rintro q rfl hkind
    exact takes_toProperty (hkind.trans (isPair_toProperty _ a))
  case other =>
    rintro q rfl hkind
    refine lacks_toProperty _ fun q' hq' => ?_
    cases hq'
    rwa [isPair_toProperty] at hkind
  case new =>
    rintro rfl
    exact lacks_toProperty _ fun q hq => nomatch hq
  case generic =>
    rintro haccessor hdata (⟨v, w, e⟩ | _) rfl hkind <;> cases hkind
    obtain ⟨hvalue, hwritable⟩ := isData_eq_false_iff.mp hdata
    rw [toProperty_of_not_isAccessor haccessor, hvalue, hwritable]
    rfl
  case stripped =>
    rintro haccessor hdata (_ | ⟨g, f, e⟩) rfl hkind <;> cases hkind
    obtain ⟨hvalue, hwritable⟩ := isData_eq_false_iff.mp hdata
    rw [toProperty_of_not_isAccessor haccessor, hvalue, hwritable]
    rfl

end Merge

end Attributes

variable {engine : Engine} {id d : ObjectId} {key : String} {a : Attributes} {m m₁ : Machine}

open EcmaEval.Action

/-- The part of a definition that runs code of the program. -/
def readRequest (engine : Engine) (key : Value) (d : ObjectId) : Action (String × Attributes) := do
  let key ← engine.toKey key
  return (key, ← engine.readAttributes d)

/-- The part of a definition that is decided by the attributes. -/
def place (id : ObjectId) (key : String) (a : Attributes) : Action Unit := do
  checkAccessor a.getter .getterType
  checkAccessor a.setter .setterType
  let existing ← readHeap fun h => (h.get id).getOwn? key
  if a.isAccessor && a.isData then throwFault .mixedDescriptor
  modifyObject id (·.define key (a.toProperty existing))

theorem callObject_eq_place (this keyValue : Value) (rest : List Value) :
    engine.callObject .defineProperty this (.object id :: keyValue :: .object d :: rest) =
      engine.readRequest keyValue d >>= fun request => do
        place id request.1 request.2
        return .object id := by
  rw [readRequest]
  simp only [bind_assoc, pure_bind]
  refine congrArg (engine.toKey keyValue >>= ·) (funext fun key => ?_)
  exact bind_assoc (engine.readAttributes d) (place id key) fun _ => pure (Value.object id)

/-! ## What the attributes decide -/

theorem checkAccessor_of_mayStand {f : Option Value} (hf : MayStand m.heap f)
    (fault : String → Fault) : checkAccessor f fault m = .ok () m := by
  cases f with
  | none => rfl
  | some g =>
    unfold checkAccessor
    dsimp only
    rw [readHeap_bind, if_pos (by simpa using hf g rfl)]
    rfl

theorem checkAccessor_of_not_mayStand {f : Option Value} (hf : ¬ MayStand m.heap f)
    (fault : String → Fault) : ∃ shown, checkAccessor f fault m =
      .error (.thrown (.object ⟨m.heap.size⟩)) (m.afterFault shown) := by
  cases f with
  | none => exact absurd (fun _ h => nomatch h) hf
  | some g =>
    have hrefused : ¬ (g.isUndefined || m.heap.isCallable g) = true := fun h =>
      hf fun g' hg' => by
        cases hg'
        simpa using h
    refine ⟨fault (m.heap.inspect g), ?_⟩
    unfold checkAccessor
    dsimp only
    rw [readHeap_bind, if_neg hrefused]
    rfl

theorem place_of_valid (h : a.Valid m.heap) : place id key a m =
    .ok () { m with
      heap := m.heap.modify id (·.define key (a.toProperty ((m.heap.get id).getOwn? key))) } := by
  have hunmixed : ¬ (a.isAccessor && a.isData) = true := fun hmixed => by
    rw [Bool.and_eq_true] at hmixed
    exact nomatch hmixed.2.symm.trans (h.unmixed hmixed.1)
  rw [place, Discipline.bind_apply, checkAccessor_of_mayStand h.getter]
  dsimp only
  rw [Discipline.bind_apply, checkAccessor_of_mayStand h.setter]
  dsimp only
  rw [readHeap_bind, if_neg hunmixed]
  rfl

theorem place_of_not_valid (h : ¬ a.Valid m.heap) : ∃ shown, place id key a m =
    .error (.thrown (.object ⟨m.heap.size⟩)) (m.afterFault shown) := by
  rw [place, Discipline.bind_apply]
  by_cases hgetter : MayStand m.heap a.getter
  · rw [checkAccessor_of_mayStand hgetter]
    dsimp only
    rw [Discipline.bind_apply]
    by_cases hsetter : MayStand m.heap a.setter
    · have hmixed : (a.isAccessor && a.isData) = true := by
        by_contra hunmixed
        rw [Bool.and_eq_true, not_and, Bool.not_eq_true] at hunmixed
        exact h ⟨hgetter, hsetter, hunmixed⟩
      refine ⟨.mixedDescriptor, ?_⟩
      rw [checkAccessor_of_mayStand hsetter]
      dsimp only
      rw [readHeap_bind, if_pos hmixed, throwFault_bind]
      rfl
    · obtain ⟨shown, heq⟩ := checkAccessor_of_not_mayStand hsetter .setterType
      exact ⟨shown, by rw [heq]⟩
  · obtain ⟨shown, heq⟩ := checkAccessor_of_not_mayStand hgetter .getterType
    exact ⟨shown, by rw [heq]⟩

/-- A definition writes one property of one object. -/
theorem Attributes.Valid.defined (h : a.Valid m.heap) (hid : id.index < m.heap.size)
    (hplain : (m.heap.get id).isArray = false) :
    a.Defined id key m.heap
      (m.heap.modify id (·.define key (a.toProperty ((m.heap.get id).getOwn? key)))) := by
  set p := a.toProperty ((m.heap.get id).getOwn? key) with hp
  have hself : (m.heap.modify id (·.define key p)).get id = (m.heap.get id).define key p :=
    m.heap.get_modify_self hid _
  have hgetOwn (other : String) : ((m.heap.get id).define key p).getOwn? other =
      if key = other then some p else (m.heap.get id).getOwn? other :=
    Object.getOwn?_change hplain (.define key p) other
  constructor
  case property => exact ⟨p, by rw [hself, hgetOwn, if_pos rfl], merges_toProperty h.unmixed _⟩
  case others =>
    intro other hne
    rw [hself, hgetOwn, if_neg hne.symm]
  case rest => rw [hself, Object.define_of_not_array hplain]
  case elsewhere => exact fun id' hne => m.heap.get_modify_of_ne hne _

/-- **How `Object.defineProperty` ends.**  What the code of the program throws is thrown.  If it
comes to a key and attributes, and the object is no array, then either the attributes are refused,
and every object stays as that code left it; or the object is given back, with the property that the
attributes make of the one it had. -/
theorem callObject_defineProperty (engine : Engine) (this keyValue : Value) (id d : ObjectId)
    (rest : List Value) (m : Machine) :
    (∀ e m₁, engine.readRequest keyValue d m = .error e m₁ →
      engine.callObject .defineProperty this (.object id :: keyValue :: .object d :: rest) m =
        .error e m₁) ∧
    ∀ key a m₁, engine.readRequest keyValue d m = .ok (key, a) m₁ →
      id.index < m₁.heap.size → (m₁.heap.get id).isArray = false →
      (¬ a.Valid m₁.heap ∧ ∃ e m',
        engine.callObject .defineProperty this (.object id :: keyValue :: .object d :: rest) m =
          .error (.thrown e) m' ∧
        ∀ id', id'.index < m₁.heap.size → m'.heap.get id' = m₁.heap.get id') ∨
      a.Valid m₁.heap ∧ ∃ m',
        engine.callObject .defineProperty this (.object id :: keyValue :: .object d :: rest) m =
          .ok (.object id) m' ∧
        a.Defined id key m₁.heap m'.heap := by
  rw [callObject_eq_place, Discipline.bind_apply]
  refine ⟨fun e m₁ hread => by rw [hread], fun key a m₁ hread hid hplain => ?_⟩
  rw [hread]
  dsimp only
  rw [Discipline.bind_apply]
  by_cases hvalid : a.Valid m₁.heap
  · rw [place_of_valid hvalid]
    exact .inr ⟨hvalid, _, rfl, hvalid.defined hid hplain⟩
  · obtain ⟨shown, heq⟩ := @place_of_not_valid id key a m₁ hvalid
    rw [heq]
    exact .inl ⟨hvalid, _, _, rfl, fun id' hid' => m₁.heap.get_allocate_of_lt _ hid'⟩

/-- An object with a getter, and a descriptor that only asks not to list a property. -/
def unlisting : Machine :=
  { Machine.empty with
    heap := ⟨#[(Object.new none .ordinary).define "x" (.accessor (some (.object ⟨0⟩)) none true),
      (Object.new none .ordinary).insertPlain "enumerable" (.boolean false)]⟩ }

/-- The getter is lost. -/
theorem callObject_defineProperty_unlisting : ∃ m',
    (ofFuel 1).callObject .defineProperty .undefined
      [.object ⟨0⟩, .ofText "x", .object ⟨1⟩] unlisting = .ok (.object ⟨0⟩) m' ∧
    (m'.heap.get ⟨0⟩).getOwn? "x" = some (.data .undefined false false) := by
  have hread : (ofFuel 1).readRequest (.ofText "x") ⟨1⟩ unlisting =
      .ok ("x", ⟨none, none, some false, none, none⟩) unlisting := rfl
  have hends := (callObject_defineProperty (ofFuel 1) .undefined (.ofText "x") ⟨0⟩ ⟨1⟩ []
    unlisting).2 _ _ _ hread (by decide) rfl
  rcases hends with ⟨hrefused, -⟩ | ⟨-, m', hrun, hdefined⟩
  · exact absurd ⟨fun _ h => (nomatch h), fun _ h => (nomatch h), fun h => (nomatch h)⟩ hrefused
  · obtain ⟨p, hget, hmerges⟩ := hdefined.property
    refine ⟨m', hrun, hget.trans (congrArg some ?_)⟩
    exact hmerges.stripped rfl rfl _ rfl rfl

end Engine

end EcmaEval
