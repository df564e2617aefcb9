import Mathlib.Data.Finset.Card
import Mathlib.Data.Fintype.Basic
import Mathlib.Logic.Relation
import EcmaEval.Engine.Convert
import EcmaEval.Proofs.Run.Steady

/-!
# Chains of prototypes and of bound functions

The heap is grounded when every chain of prototypes ends.  A new object keeps it so, and so does a
new prototype, unless the object is reached from it.  In a grounded heap a chain names each object
once; so it is no longer than the heap, and the walks along it that are bounded by the size of the
heap are cut short by nothing.

## Main definitions

* `Heap.IsPrototype`: an object is the prototype of another one
* `Heap.Grounded`: every chain of prototypes ends
* `Heap.Reaches`: an object stands in the chain of another one
* `Heap.Anchored`: every chain of bound functions ends

## Main results

* `Heap.Grounded.change`: a new prototype that does not reach the object
* `Heap.mem_chain_iff`: a chain has all that is reached
* `Heap.chainWithin_eq`: a longer bound gives no longer chain
-/

namespace EcmaEval

namespace Heap

/-! ## Reading the heap -/

theorem get_modify_of_ne (h : Heap) {id id' : ObjectId} (hne : id' ≠ id)
    (change : Object → Object) : (h.modify id change).get id' = h.get id' := by
  simp only [modify, get, Array.getD_eq_getD_getElem?, Array.getElem?_modify]
  rw [if_neg fun heq => hne (by cases id; cases id'; exact congrArg _ (Eq.symm heq))]

theorem get_allocate_self (h : Heap) (o : Object) : (h.allocate o).2.get ⟨h.size⟩ = o := by
  rw [get_allocate, if_pos rfl]

theorem get_allocate_of_lt (h : Heap) (o : Object) {id : ObjectId} (hid : id.index < h.size) :
    (h.allocate o).2.get id = h.get id := by
  rw [get_allocate, if_neg hid.ne]

theorem get_modify_self (h : Heap) {id : ObjectId} (hid : id.index < h.size)
    (change : Object → Object) : (h.modify id change).get id = change (h.get id) := by
  have hsome : h.objects[id.index]? = some h.objects[id.index] := Array.getElem?_eq_getElem hid
  simp [modify, get, Array.getD_eq_getD_getElem?, Array.getElem?_modify, hsome]

/-- Different objects of the heap are no more than there are in it. -/
theorem length_le_of_nodup {h : Heap} {ids : List ObjectId} (hnodup : ids.Nodup)
    (hlt : ∀ x ∈ ids, x.index < h.size) : ids.length ≤ h.size := by
  have hinj : Function.Injective ObjectId.index := fun a b heq => by
    cases a; cases b; exact congrArg _ heq
  have hsubset : ids.map ObjectId.index ⊆ List.range h.size := by
    intro i hi
    obtain ⟨x, hx, rfl⟩ := List.mem_map.mp hi
    exact List.mem_range.mpr (hlt x hx)
  simpa using ((hnodup.map hinj).subperm hsubset).length_le

/-! ## Prototypes -/

/-- The object `p` is the prototype of `id`. -/
def IsPrototype (h : Heap) (p id : ObjectId) : Prop := (h.get id).prototype = some p

/-- Every chain of prototypes ends. -/
def Grounded (h : Heap) : Prop := WellFounded h.IsPrototype

/-- The object `p` is `id`, or stands behind it in its chain of prototypes. -/
def Reaches (h : Heap) (id p : ObjectId) : Prop := Relation.ReflTransGen h.IsPrototype p id

/-- Every prototype is in the heap. -/
def Closed (h : Heap) : Prop := ∀ id p, h.IsPrototype p id → p.index < h.size

theorem Grounded.not_reaches {h : Heap} (hg : h.Grounded) {id p : ObjectId}
    (hp : h.IsPrototype p id) : ¬ h.Reaches p id := fun hreach =>
  have hcycle : Relation.TransGen h.IsPrototype id id := .tail' hreach hp
  (WellFounded.transGen hg).asymmetric id id hcycle hcycle

/-- What is reached satisfies what passes on to prototypes. -/
theorem Reaches.induction {h : Heap} {P : ObjectId → Prop} {id p : ObjectId}
    (hreach : h.Reaches id p) (hid : P id) (hstep : ∀ a b, h.IsPrototype b a → P a → P b) : P p := by
  induction hreach using Relation.ReflTransGen.head_induction_on with
  | refl => exact hid
  | head hab _ ih => exact hstep _ _ hab ih

theorem Reaches.head_cases {h : Heap} {id q : ObjectId} (hreach : h.Reaches id q) :
    q = id ∨ ∃ p, h.IsPrototype p id ∧ h.Reaches p q := by
  rcases Relation.ReflTransGen.cases_tail hreach with rfl | ⟨p, hpq, hp⟩
  · exact .inl rfl
  · exact .inr ⟨p, hp, hpq⟩

theorem Grounded.congr {h h' : Heap} (hg : h.Grounded)
    (heq : ∀ id, (h'.get id).prototype = (h.get id).prototype) : h'.Grounded := by
  have hrel : h'.IsPrototype = h.IsPrototype := by
    funext p id
    rw [IsPrototype, heq, IsPrototype]
  rw [Grounded, hrel]
  exact hg

/-- An object may get a prototype that does not reach it. -/
theorem Grounded.change {h h' : Heap} (hg : h.Grounded) (id : ObjectId)
    (hother : ∀ a ≠ id, (h'.get a).prototype = (h.get a).prototype)
    (hnew : ∀ p, h'.IsPrototype p id → ¬ h.Reaches p id) : h'.Grounded := by
  -- What does not reach the object has the chain that it had.
  have hrest (x : ObjectId) : ¬ h.Reaches x id → Acc h'.IsPrototype x := by
    induction x using hg.induction with
    | _ x ih =>
      intro hx
      refine .intro x fun p hp => ?_
      have hne : x ≠ id := fun heq => hx (heq ▸ .refl)
      have hp : h.IsPrototype p x := (hother x hne).symm.trans hp
      exact ih p hp fun hreach => hx (hreach.tail hp)
  have hid : Acc h'.IsPrototype id := .intro id fun p hp => hrest p (hnew p hp)
  refine ⟨fun x => ?_⟩
  induction x using hg.induction with
  | _ x ih =>
    by_cases hx : x = id
    · exact hx ▸ hid
    · exact .intro x fun p hp => ih p ((hother x hx).symm.trans hp)

/-- What is old reaches nothing new. -/
theorem not_reaches_of_closed {h h' : Heap} (hc : h.Closed)
    (hsame : ∀ id, id.index < h.size → (h'.get id).prototype = (h.get id).prototype)
    {p id : ObjectId} (hp : p.index < h.size) (hid : h.size ≤ id.index) : ¬ h'.Reaches p id := by
  intro hreach
  have hlt : id.index < h.size :=
    hreach.induction (P := fun x => x.index < h.size) hp fun a b hb ha =>
      hc a b ((hsame a ha).symm.trans hb)
  omega

theorem Grounded.allocate {h : Heap} (hg : h.Grounded) (hc : h.Closed) {o : Object}
    (ho : ∀ p, o.prototype = some p → p.index < h.size) : (h.allocate o).2.Grounded := by
  refine hg.change ⟨h.size⟩ (fun a ha => ?_) fun p hp => ?_
  · rw [get_allocate, if_neg fun heq => ha (by cases a; exact congrArg _ heq)]
  · have hp : o.prototype = some p := by rw [← hp, get_allocate_self]
    exact not_reaches_of_closed hc (fun _ _ => rfl) (ho p hp) (Nat.le_refl _)

/-! ## Walks along a chain -/

theorem mem_chainWithin {h : Heap} {fuel : Nat} {id q : ObjectId}
    (hq : q ∈ h.chainWithin fuel id) : h.Reaches id q := by
  induction fuel generalizing id with
  | zero => cases hq
  | succ fuel ih =>
    rcases List.mem_cons.mp hq with rfl | hq
    · exact .refl
    · split at hq
      · next p hp => exact (ih hq).tail hp
      · cases hq

theorem Grounded.nodup_chainWithin {h : Heap} (hg : h.Grounded) (fuel : Nat) (id : ObjectId) :
    (h.chainWithin fuel id).Nodup := by
  induction fuel generalizing id with
  | zero => exact List.nodup_nil
  | succ fuel ih =>
    refine List.nodup_cons.mpr ?_
    split
    · next p hp => exact ⟨fun hmem => hg.not_reaches hp (mem_chainWithin hmem), ih p⟩
    · exact ⟨List.not_mem_nil, List.nodup_nil⟩

/-- A chain names each object of the heap at most once. -/
theorem Grounded.length_chainWithin_le {h : Heap} (hg : h.Grounded) (hc : h.Closed) (fuel : Nat)
    {id : ObjectId} (hid : id.index < h.size) : (h.chainWithin fuel id).length ≤ h.size := by
  have hlt (x : ObjectId) (hx : x ∈ (h.chainWithin fuel id)) : x.index < h.size :=
    (mem_chainWithin hx).induction (P := fun x => x.index < h.size) hid fun a b hb _ => hc a b hb
  exact length_le_of_nodup (hg.nodup_chainWithin fuel id) hlt

/-- A walk with a smaller bound is a first part of the longer one. -/
theorem chainWithin_eq_take (h : Heap) (fuel : Nat) (id : ObjectId) :
    h.chainWithin fuel id = (h.chainWithin (fuel + 1) id).take fuel := by
  induction fuel generalizing id with
  | zero => rfl
  | succ fuel ih =>
    rw [chainWithin, chainWithin, List.take_succ_cons]
    cases (h.get id).prototype with
    | none => rw [List.take_nil]
    | some p => exact congrArg (id :: ·) (ih p)

/-- Beyond the size of the heap a greater bound makes no chain longer. -/
theorem chainWithin_eq {h : Heap} (hg : h.Grounded) (hc : h.Closed) {fuel : Nat}
    (hfuel : h.size ≤ fuel) {id : ObjectId} (hid : id.index < h.size) :
    h.chainWithin fuel id = h.chain id := by
  induction fuel, hfuel using Nat.le_induction with
  | base => rfl
  | succ fuel hfuel ih =>
    rw [← ih, h.chainWithin_eq_take fuel id, List.take_of_length_le]
    exact (hg.length_chainWithin_le hc (fuel + 1) hid).trans hfuel

/-- A chain has all that is reached. -/
theorem mem_chain_iff {h : Heap} (hg : h.Grounded) (hc : h.Closed) {id q : ObjectId}
    (hid : id.index < h.size) : q ∈ h.chain id ↔ h.Reaches id q := by
  refine ⟨mem_chainWithin, fun hreach => ?_⟩
  induction id using hg.induction with
  | _ id ih =>
    rw [← chainWithin_eq hg hc (Nat.le_succ _) hid, chainWithin]
    rcases hreach.head_cases with rfl | ⟨p, hp, hpq⟩
    · exact List.mem_cons_self
    · have hmem : q ∈ h.chain p := ih p hp (hc _ _ hp) hpq
      rw [hp]
      exact List.mem_cons_of_mem _ hmem

/-- A property is looked up along the chain. -/
theorem findWithin_eq_findSome? (h : Heap) (key : String) (fuel : Nat) (id : ObjectId) :
    h.findWithin key fuel id = (h.chainWithin fuel id).findSome? fun p => (h.get p).getOwn? key := by
  induction fuel generalizing id with
  | zero => rfl
  | succ fuel ih =>
    rw [findWithin, chainWithin, List.findSome?_cons]
    cases hown : (h.get id).getOwn? key with
    | some property => rfl
    | none =>
      dsimp only
      cases (h.get id).prototype with
      | none => rfl
      | some p => exact ih p

/-! ## Bound functions -/

/-- The object is a function that calls `target`. -/
def Binds (h : Heap) (id target : ObjectId) : Prop :=
  ∃ receiver args, (h.get id).callable? = some (.bound target receiver args)

/-- A bound function is younger than the one that it calls, so every chain of them ends. -/
def Anchored (h : Heap) : Prop := ∀ id target, h.Binds id target → target.index < id.index

theorem Anchored.wellFounded {h : Heap} (ha : h.Anchored) :
    WellFounded fun target id => h.Binds id target :=
  Subrelation.wf (fun {target id} hb => ha id target hb) (measure ObjectId.index).wf

/-- Any bound above the place of a function is great enough to find what it calls in the end. -/
theorem unbound_eq {h : Heap} (ha : h.Anchored) {fuel fuel' : Nat} {id : ObjectId}
    (hfuel : id.index < fuel) (hfuel' : id.index < fuel') :
    Engine.unbound h fuel id = Engine.unbound h fuel' id := by
  induction fuel generalizing id fuel' with
  | zero => exact absurd hfuel (Nat.not_lt_zero _)
  | succ fuel ih =>
    obtain _ | fuel' := fuel'
    · exact absurd hfuel' (Nat.not_lt_zero _)
    rw [Engine.unbound, Engine.unbound]
    split
    · next target receiver args hcall =>
      have hlt := ha id target ⟨receiver, args, hcall⟩
      exact ih (by omega) (by omega)
    · rfl

/-- Any bound above the place of a function is great enough to find whether it constructs. -/
theorem constructsWithin_eq {h : Heap} (ha : h.Anchored) {fuel fuel' : Nat} {id : ObjectId}
    (hfuel : id.index < fuel) (hfuel' : id.index < fuel') :
    h.constructsWithin fuel id = h.constructsWithin fuel' id := by
  induction fuel generalizing id fuel' with
  | zero => exact absurd hfuel (Nat.not_lt_zero _)
  | succ fuel ih =>
    obtain _ | fuel' := fuel'
    · exact absurd hfuel' (Nat.not_lt_zero _)
    rw [constructsWithin, constructsWithin]
    split
    case h_4 target receiver args hcall =>
      have hlt := ha id target ⟨receiver, args, hcall⟩
      exact ih (by omega) (by omega)
    all_goals rfl

/-- The function that a bound function calls in the end is not a bound one. -/
theorem not_binds_unbound {h : Heap} (ha : h.Anchored) {fuel : Nat} {id : ObjectId}
    (hfuel : id.index < fuel) (target : ObjectId) : ¬ h.Binds (Engine.unbound h fuel id) target := by
  induction fuel generalizing id with
  | zero => exact absurd hfuel (Nat.not_lt_zero _)
  | succ fuel ih =>
    rw [Engine.unbound]
    split
    · next target receiver args hcall =>
      have hlt := ha id target ⟨receiver, args, hcall⟩
      exact ih (by omega)
    · next hcall =>
      rintro ⟨receiver, args, heq⟩
      exact hcall _ _ _ heq

end Heap

end EcmaEval
