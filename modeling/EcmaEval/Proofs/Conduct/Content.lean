import EcmaEval.Eval.Statement
import EcmaEval.Library.Promise
import EcmaEval.Proofs.Conduct.Fact
import EcmaEval.Proofs.Conduct.Limit

/-!
# What objects and frames hand out

Whatever is read from an object, a frame, the heap or the realm mentions only facts that these
mention, and whatever is written to an object or a frame adds only the facts that are written.

## Main definitions

* `Object.Like`: two objects differ in their properties and elements alone
* `Object.Tame`: a change of properties and elements
-/

namespace EcmaEval

instance : HasFacts Heap := ⟨fun h => ⋃ id, facts (h.get id)⟩

instance : HasFacts Frames := ⟨fun fs => ⋃ id, facts (fs.get id)⟩

/-! ## Maps of names -/

section NameMaps

variable {α : Type} [HasFacts α]

theorem NameMap.facts_insert (m : NameMap α) (name : String) (x : α) :
    facts (m.insert name x) ⊆ facts m ∪ facts x := by
  rintro fact ⟨other, y, hget, hy⟩
  rw [get?_insert] at hget
  split at hget
  · cases hget
    exact .inr hy
  · exact .inl ⟨other, y, hget, hy⟩

theorem NameMap.facts_erase (m : NameMap α) (name : String) : facts (m.erase name) ⊆ facts m := by
  rintro fact ⟨other, y, hget, hy⟩
  rw [get?_erase] at hget
  split at hget
  · cases hget
  · exact ⟨other, y, hget, hy⟩

theorem NameMap.facts_empty : facts (∅ : NameMap α) = ∅ :=
  Set.eq_empty_of_forall_notMem fun _ ⟨_, _, hget, _⟩ => nomatch hget

end NameMaps

namespace Shown

variable {K : Knowledge}

section NameMaps

variable {α : Type} [HasFacts α] (m : NameMap α) (name : String)

instance (x : α) [hm : Shown K m] [hx : Shown K x] : Shown K (m.insert name x) :=
  ⟨(m.facts_insert name x).trans (Set.union_subset hm.facts_subset hx.facts_subset)⟩

instance [hm : Shown K m] : Shown K (m.erase name) :=
  ⟨(m.facts_erase name).trans hm.facts_subset⟩

instance [hm : Shown K m] : Shown K (m.get? name) := by
  cases hget : m.get? name with
  | none => infer_instance
  | some x => exact ⟨fun _ hf => hm.facts_subset ⟨name, x, hget, hf⟩⟩

end NameMaps

/-! ## Objects -/

section Objects

instance (p : Property) (value : Value) [hp : Shown K p] [hvalue : Shown K value] :
    Shown K (p.write value) := by
  unfold Property.write
  split
  · exact ⟨hvalue.facts_subset⟩
  · exact hp

section Tables

variable (t : PropertyTable) (name : String)

instance table_values [ht : Shown K t] : Shown K t.values := ⟨ht.facts_subset⟩

instance [ht : Shown K t] : Shown K (t.get? name) :=
  (inferInstance : Shown K (t.values.get? name))

instance : Shown K (∅ : PropertyTable) := of_empty NameMap.facts_empty

instance (p : Property) [Shown K t] [Shown K p] : Shown K (t.insert name p) := by
  have hvalues : Shown K (t.values.insert name p) := inferInstance
  exact ⟨hvalues.facts_subset⟩

instance (value : Value) [ht : Shown K t] [hvalue : Shown K value] :
    Shown K (t.write name value) := by
  have hget : Shown K (t.get? name) := inferInstance
  refine ⟨?_⟩
  change facts ((t.toPropertyStore.write name value).values) ⊆ _
  unfold PropertyStore.write
  split
  · next p hp =>
    have hp' : Shown K p := ⟨(hp ▸ hget).facts_subset⟩
    have hvalues : Shown K (t.values.insert name (p.write value)) := inferInstance
    exact hvalues.facts_subset
  · have hplain : Shown K (Property.plain value) := ⟨hvalue.facts_subset⟩
    have hvalues : Shown K (t.values.insert name (.plain value)) := inferInstance
    exact hvalues.facts_subset

instance [ht : Shown K t] : Shown K (t.erase name) := by
  refine ⟨?_⟩
  change facts ((t.toPropertyStore.erase name).values) ⊆ _
  unfold PropertyStore.erase
  split
  · have hvalues : Shown K (t.values.erase name) := inferInstance
    exact hvalues.facts_subset
  · exact ht.facts_subset

end Tables

instance (kind : ObjectKind) (prototype : Option ObjectId) (properties : PropertyTable)
    (objectClass : ObjectClass) [hkind : Shown K kind] [hprototype : Shown K prototype]
    [hproperties : Shown K properties] :
    Shown K (Object.mk kind prototype properties objectClass) :=
  union rfl (Set.union_subset hkind.facts_subset hprototype.facts_subset) hproperties.facts_subset

instance (prototype : Option ObjectId) (kind : ObjectKind) [Shown K kind] [Shown K prototype] :
    Shown K (Object.new prototype kind) := by
  unfold Object.new
  infer_instance

variable (o : Object) [ho : Shown K o] (key : String)

instance object_kind : Shown K o.kind := ⟨fun _ hf => ho.facts_subset (.inl (.inl hf))⟩

instance : Shown K o.prototype := ⟨fun _ hf => ho.facts_subset (.inl (.inr hf))⟩

instance : Shown K o.properties := ⟨fun _ hf => ho.facts_subset (.inr hf)⟩

instance : Shown K o.elements? := by
  have hkind := object_kind (K := K) o
  unfold Object.elements?
  generalize o.kind = kind at hkind
  cases kind with
  | array elements => exact ⟨hkind.facts_subset⟩
  | _ => exact of_empty rfl

instance : Shown K o.callable? := by
  have hkind := object_kind (K := K) o
  unfold Object.callable?
  generalize o.kind = kind at hkind
  cases kind with
  | function body => exact ⟨hkind.facts_subset⟩
  | _ => exact of_empty rfl

instance : Shown K o.promiseState? := by
  have hkind := object_kind (K := K) o
  unfold Object.promiseState?
  generalize o.kind = kind at hkind
  cases kind with
  | promise state => exact ⟨hkind.facts_subset⟩
  | _ => exact of_empty rfl

instance : Shown K (o.getOwn? key) := by
  have hkind := object_kind (K := K) o
  have hget : Shown K (o.properties.get? key) := inferInstance
  unfold Object.getOwn?
  generalize o.kind = kind at hkind
  cases kind with
  | array elements =>
    have helements : Shown K elements := ⟨hkind.facts_subset⟩
    dsimp only
    split
    · exact ⟨Set.empty_subset _⟩
    · split
      · next i _ =>
        have helement : Shown K elements[i]? := inferInstance
        generalize elements[i]? = element at helement
        cases element with
        | none => exact ⟨Set.empty_subset _⟩
        | some v => exact ⟨helement.facts_subset⟩
      · exact hget
  | _ => exact hget

/-! ### Changes -/

instance (change : Array Value → Array Value) [hchange : ∀ es, Shown (K.and es) (change es)] :
    Shown K (o.withElements change) := by
  unfold Object.withElements
  split
  · next elements prototype properties objectClass =>
    have hkind := object_kind (K := K)
      ⟨.array elements, prototype, properties, objectClass⟩
    have helements : Shown K elements := ⟨hkind.facts_subset⟩
    have hprototype : Shown K prototype := ⟨fun _ hf => ho.facts_subset (.inl (.inr hf))⟩
    have hproperties : Shown K properties := ⟨fun _ hf => ho.facts_subset (.inr hf)⟩
    have : Shown K (change elements) :=
      ⟨(hchange elements).facts_subset.trans
        (Set.union_subset Set.Subset.rfl helements.facts_subset)⟩
    infer_instance
  · exact ho

instance (elements : Array Value) (i : Nat) (value : Value) [Shown K elements] [hv : Shown K value] :
    Shown K (elements.setIfInBounds i value) :=
  array_of_mem fun _ hx => (Array.mem_or_eq_of_mem_setIfInBounds hx).elim (fun h => of_mem h)
    fun h => h ▸ hv

instance (elements : Array Value) (count : Nat) [Shown K elements] :
    Shown K (resizeElements elements count) := by
  unfold resizeElements
  rw [Array.shrink_eq_take]
  infer_instance

instance (elements : Array Value) (i : Nat) (value : Value) [Shown K elements] [Shown K value] :
    Shown K (writeElement elements i value) := by
  unfold writeElement
  infer_instance

instance (property : Property) [hp : Shown K property] : Shown K (o.define key property) := by
  unfold Object.define
  split
  · split
    · next value hvalue =>
      have : Shown K value := by
        cases property with
        | data v w e =>
          cases hvalue
          exact ⟨hp.facts_subset⟩
        | accessor => cases hvalue
      infer_instance
    · exact ho
  · infer_instance

instance (value : Value) [Shown K value] : Shown K (o.insertPlain key value) := by
  unfold Object.insertPlain
  infer_instance

instance (value : Value) [Shown K value] : Shown K (o.insertHidden key value) := by
  unfold Object.insertHidden
  infer_instance

instance (value : Value) [Shown K value] : Shown K (o.writeNamed key value) := by
  unfold Object.writeNamed
  infer_instance

instance (value : Value) [Shown K value] : Shown K (o.setOwn key value) := by
  unfold Object.setOwn
  split
  · infer_instance
  · split
    · split
      · infer_instance
      · exact ho
    · infer_instance
  · infer_instance

instance : Shown K (o.remove key).1 := by
  unfold Object.remove
  split
  · infer_instance
  · split
    · exact ho
    · infer_instance
  · infer_instance

end Objects

/-! ## Heaps -/

section Heaps

variable (h : Heap) [hh : Shown K h]

instance (id : ObjectId) : Shown K (h.get id) :=
  ⟨(Set.subset_iUnion (fun id => facts (h.get id)) id).trans hh.facts_subset⟩

instance (id : ObjectId) (key : String) : Shown K (h.find? id key) := by
  unfold Heap.find?
  generalize h.size = fuel
  induction fuel generalizing id with
  | zero => exact of_empty rfl
  | succ fuel ih =>
    have hown : Shown K ((h.get id).getOwn? key) := inferInstance
    rw [Heap.findWithin]
    split
    · next property hproperty => exact hproperty ▸ hown
    · split
      · exact ih _
      · infer_instance

instance (id : ObjectId) [hid : Shown K id] (fuel : Nat) : Shown K (Engine.unbound h fuel id) := by
  induction fuel generalizing id with
  | zero => exact hid
  | succ fuel ih =>
    have hcall : Shown K (h.get id).callable? := inferInstance
    rw [Engine.unbound]
    split
    · next target receiver args heq =>
      rw [heq] at hcall
      have : Shown K (Callable.bound target receiver args) := ⟨hcall.facts_subset⟩
      have : Shown K target := .covered (Callable.bound target receiver args)
      exact ih target
    · exact hid

end Heaps

/-! ## Frames -/

section Frames

variable (f : Frame) [hf : Shown K f] (name : String)

instance : Shown K f.this := ⟨fun _ h => hf.facts_subset (.inl (.inl (.inr h)))⟩

instance : Shown K f.superCall := ⟨fun _ h => hf.facts_subset (.inl (.inr h))⟩

instance : Shown K f.parent := ⟨fun _ h => hf.facts_subset (.inl (.inl (.inl (.inr h))))⟩

instance : Shown K f.bindings := ⟨fun _ h => hf.facts_subset (.inl (.inl (.inl (.inl h))))⟩

instance placed_home : Placed K f.home := ⟨fun _ h => hf.facts_subset (.inr h)⟩

instance frame_mk (bindings : Bindings) (parent : Option FrameId) (kind : FrameKind)
    (this : Option ThisBinding) (superCall : Option SuperCall) (home : Option ObjectId)
    [h₁ : Shown K bindings] [h₂ : Shown K parent] [h₃ : Shown K this] [h₄ : Shown K superCall]
    [h₅ : Placed K home] : Shown K (Frame.mk bindings parent kind this superCall home) :=
  union rfl (Set.union_subset (Set.union_subset (Set.union_subset h₁.facts_subset h₂.facts_subset)
    h₃.facts_subset) h₄.facts_subset) h₅.facts_subset

instance (v : Value) (assignable : Bool) [h : Shown K v] : Shown K (Binding.mk v assignable) :=
  ⟨h.facts_subset⟩

instance (b : Binding) [h : Shown K b] : Shown K b.value := ⟨h.facts_subset⟩

instance : Shown K (∅ : Bindings) := by
  refine ⟨?_⟩
  rintro fact ⟨name, x, hget, -⟩
  cases hget

instance (b : Bindings) [hb : Shown K b] : Shown K (b.get? name) := by
  cases hget : b.get? name with
  | none => infer_instance
  | some x => exact ⟨fun _ hf => hb.facts_subset ⟨name, x, hget, hf⟩⟩

instance (b : Bindings) (x : Binding) [hb : Shown K b] [hx : Shown K x] :
    Shown K (b.insert name x) := by
  refine ⟨?_⟩
  rintro fact ⟨other, y, hget, hy⟩
  rw [Bindings.get?_insert] at hget
  split at hget
  · cases hget
    exact hx.facts_subset hy
  · exact hb.facts_subset ⟨other, y, hget, hy⟩

instance (v : Value) [Shown K v] : Shown K (f.declareVariable name v) :=
  inferInstanceAs (Shown K { f with bindings := f.bindings.insert name ⟨v, true⟩ })

instance (v : Value) [Shown K v] : Shown K (f.declareConstant name v) :=
  inferInstanceAs (Shown K { f with bindings := f.bindings.insert name ⟨v, false⟩ })

instance (names : List String) : Shown K (names.foldl Frame.declareMissing f) := by
  induction names generalizing f with
  | nil => exact hf
  | cons name rest ih =>
    have : Shown K (f.declareMissing name) := by
      unfold Frame.declareMissing
      infer_instance
    exact ih (f.declareMissing name)

variable (fs : Frames) [hfs : Shown K fs] (scope : FrameId)

instance (id : FrameId) : Shown K (fs.get id) :=
  ⟨(Set.subset_iUnion (fun id => facts (fs.get id)) id).trans hfs.facts_subset⟩

instance [hscope : Shown K scope] (p : Frame → Bool) : Shown K (fs.find? scope p) := by
  unfold Frames.find?
  generalize fs.size = fuel
  induction fuel generalizing scope with
  | zero => exact of_empty rfl
  | succ fuel ih =>
    have hparent : Shown K (fs.get scope).parent := inferInstance
    rw [Frames.findWithin]
    split
    · infer_instance
    · split
      · next outer houter =>
        have : Shown K outer := ⟨(houter ▸ hparent).facts_subset⟩
        exact ih outer
      · infer_instance

instance : Shown K (fs.lookup? scope name) := by
  unfold Frames.lookup?
  generalize fs.size = fuel
  induction fuel generalizing scope with
  | zero => exact of_empty rfl
  | succ fuel ih =>
    have hget : Shown K ((fs.get scope).bindings.get? name) := inferInstance
    rw [Frames.lookupWithin]
    split
    · next b hb =>
      have : Shown K b := ⟨(hb ▸ hget).facts_subset⟩
      exact inferInstanceAs (Shown K (some b.value))
    · split
      · exact ih _
      · exact of_empty rfl

/-- The receiver of the function that runs. -/
instance : Shown K ((fs.find? scope fun f => f.this.isSome).bind fun id => (fs.get id).this) := by
  cases fs.find? scope fun f => f.this.isSome with
  | none => exact of_empty rfl
  | some id => exact inferInstanceAs (Shown K (fs.get id).this)

end Frames

/-! ## Realms -/

section Realms

variable (r : Realm) [hr : Shown K r]

/-- The frames of a realm. -/
theorem of_realm_frame {id : FrameId} (h : id ∈ [r.globalFrame, r.programFrame]) : Shown K id :=
  ⟨(((facts_subset_of_mem h).trans Set.subset_union_left).trans Set.subset_union_left).trans
    hr.facts_subset⟩

/-- The prototypes of a realm. -/
theorem of_realm_object {id : ObjectId}
    (h : id ∈ [r.objectPrototype, r.functionPrototype, r.arrayPrototype, r.stringPrototype,
      r.numberPrototype, r.booleanPrototype, r.bigintPrototype, r.promisePrototype,
      r.errorPrototype, r.typeErrorPrototype, r.referenceErrorPrototype, r.rangeErrorPrototype,
      r.syntaxErrorPrototype]) : Shown K id :=
  ⟨(((facts_subset_of_mem h).trans Set.subset_union_right).trans Set.subset_union_left).trans
    hr.facts_subset⟩

instance : Shown K r.programFrame := of_realm_frame r (by simp)

instance : Shown K r.objectPrototype := of_realm_object r (by simp)

instance : Shown K r.functionPrototype := of_realm_object r (by simp)

instance : Shown K r.arrayPrototype := of_realm_object r (by simp)

instance : Shown K r.stringPrototype := of_realm_object r (by simp)

instance : Shown K r.numberPrototype := of_realm_object r (by simp)

instance : Shown K r.booleanPrototype := of_realm_object r (by simp)

instance : Shown K r.bigintPrototype := of_realm_object r (by simp)

instance : Shown K r.promisePrototype := of_realm_object r (by simp)

instance : Shown K r.errorPrototype := of_realm_object r (by simp)

instance (kind : ErrorKind) : Shown K (r.prototypeOf kind) := by
  cases kind <;> exact of_realm_object r (by simp [Realm.prototypeOf])

instance (v : Value) : Shown K (r.primitivePrototype? v) := by
  unfold Realm.primitivePrototype?
  split <;> infer_instance

end Realms

end Shown

/-! ## Tame changes -/

namespace Object

/-- The objects differ in their properties and elements alone. -/
structure Like (o o' : Object) : Prop where
  prototype : o'.prototype = o.prototype
  callable : o'.callable? = o.callable?
  promise : o'.promiseState? = o.promiseState?
  array : o'.isArray = o.isArray

namespace Like

theorem refl (o : Object) : o.Like o := ⟨rfl, rfl, rfl, rfl⟩

theorem trans {o o' o'' : Object} (h : o.Like o') (h' : o'.Like o'') : o.Like o'' :=
  ⟨h'.prototype.trans h.prototype, h'.callable.trans h.callable, h'.promise.trans h.promise,
    h'.array.trans h.array⟩

variable (o : Object) (key : String) (value : Value)

theorem withElements (change : Array Value → Array Value) : o.Like (o.withElements change) := by
  unfold Object.withElements
  split
  · exact ⟨rfl, rfl, rfl, rfl⟩
  · exact refl _

theorem define (property : Property) : o.Like (o.define key property) := by
  unfold Object.define
  split
  · split
    · split
      · exact withElements _ _
      · exact refl _
    · exact refl _
  · exact ⟨rfl, rfl, rfl, rfl⟩

theorem writeNamed : o.Like (o.writeNamed key value) :=
  ⟨rfl, rfl, rfl, rfl⟩

theorem setOwn : o.Like (o.setOwn key value) := by
  unfold Object.setOwn
  split
  · split
    · exact withElements _ _
    · exact refl _
  · split
    · split
      · exact withElements _ _
      · exact refl _
    · exact writeNamed o key value
  · exact writeNamed o key value

theorem remove : o.Like (o.remove key).1 := by
  unfold Object.remove
  split
  · exact withElements _ _
  · split
    · exact refl _
    · exact ⟨rfl, rfl, rfl, rfl⟩
  · exact ⟨rfl, rfl, rfl, rfl⟩

end Like

/-- The change leaves what an object is as it was, except for its properties and elements, and keeps
to the limit of arrays. -/
class Tame (change : Object → Object) : Prop where
  like : ∀ o : Object, o.Like (change o)
  overlong : ∀ {o : Object}, (change o).Overlong → o.Overlong

instance (change : Array Value → Array Value) [Shrinks change] : Tame (·.withElements change) :=
  ⟨fun o => .withElements o change, fun h => h.of_shrinks⟩

instance (key : String) (property : Property) : Tame (·.define key property) :=
  ⟨fun o => .define o key property, fun h => h.of_define⟩

instance (key : String) (value : Value) : Tame (·.insertPlain key value) :=
  ⟨fun o => .define o key _, fun h => h.of_define⟩

instance (key : String) (value : Value) : Tame (·.insertHidden key value) :=
  ⟨fun o => .define o key _, fun h => h.of_define⟩

instance (key : String) (value : Value) : Tame (·.setOwn key value) :=
  ⟨fun o => .setOwn o key value, fun h => h.of_setOwn⟩

instance (key : String) : Tame fun o => (o.remove key).1 :=
  ⟨fun o => .remove o key, fun h => h.of_remove⟩

end Object

end EcmaEval
