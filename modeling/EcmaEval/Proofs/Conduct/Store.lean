import EcmaEval.Proofs.Conduct.Content
import EcmaEval.Proofs.Conduct.Judgement

/-!
# Objects and frames of sound machines

The steps that look at or change the heap and the frames.  New objects and frames name only what is
there, and a change of an object adds only what is known, so the machine stays sound.

## Main definitions

* `Free`: a name may be added to a frame
* `Machine.afterFault`: the machine with the error object of a fault

## Main results

* `Law.Step.withHeap`, `Law.Step.withFrames`: what another heap and other frames have to satisfy
* `Law.Conducts.allocate`: a new object
* `Law.leaves_addFrame`, `Law.leaves_addBlock`: new frames
-/

namespace EcmaEval

variable {L : Law} {K : Knowledge} {hidden : Set ObjectId} {α : Type} [HasFacts α]

/-! ## What a machine holds -/

namespace Machine

variable {m : Machine}

theorem Sound.heap (h : m.Sound L hidden) : facts m.heap ⊆ m.granted L hidden :=
  Set.iUnion_subset h.objects

theorem Sound.allFrames (h : m.Sound L hidden) : facts m.frames ⊆ m.granted L hidden :=
  Set.iUnion_subset h.frames

/-- Every prototype is in the heap, and not hidden. -/
theorem Sound.prototype (h : m.Sound L hidden) {id p : ObjectId} (hp : m.heap.IsPrototype p id) :
    p.index < m.heap.size ∧ p ∉ hidden := by
  have hfacts : facts (m.heap.get id).prototype ⊆ m.granted L hidden :=
    fun _ hf => h.objects id (.inl (.inr hf))
  rw [hp] at hfacts
  exact hfacts (.inl rfl)

theorem Sound.closed (h : m.Sound L hidden) : m.heap.Closed := fun _ _ hp => (h.prototype hp).1

/-- What is known is true, also together with what the machine holds. -/
theorem Meets.and_subset (h : m.Meets L K) {x : α} (hx : facts x ⊆ m.granted L K.hidden) :
    (K.and x).known ⊆ m.granted L K.hidden :=
  Set.union_subset h.known hx

end Machine

/-! ## Prototypes of what was there -/

namespace Heap

/-- The objects that were there have the prototypes that they had. -/
structure Spares (h h' : Heap) : Prop where
  size_le : h.size ≤ h'.size
  prototype : ∀ id, id.index < h.size → (h'.get id).prototype = (h.get id).prototype

namespace Spares

variable {h h' h'' : Heap}

theorem trans (hs : h.Spares h') (hs' : h'.Spares h'') : h.Spares h'' where
  size_le := hs.size_le.trans hs'.size_le
  prototype id hid := (hs'.prototype id (hid.trans_le hs.size_le)).trans (hs.prototype id hid)

theorem allocate (h : Heap) (o : Object) : h.Spares (h.allocate o).2 where
  size_le := by simp
  prototype id hid := by rw [h.get_allocate_of_lt o hid]

theorem modify (h : Heap) (id : ObjectId) (change : Object → Object)
    [htame : Object.Tame change] : h.Spares (h.modify id change) where
  size_le := by simp
  prototype id' _ := by
    rcases h.get_modify id change id' with heq | heq <;> rw [heq]
    exact (htame.like _).prototype

end Spares

end Heap

/-! ## Changes of the heap and of the frames -/

/-- Another heap whose objects name what is there, and whose chains end. -/
theorem Machine.Sound.withHeap {m : Machine} (hm : m.Sound L hidden) {heap : Heap}
    (hextends : L.Extends m { m with heap })
    (hobjects : ∀ id, facts (heap.get id) ⊆ m.granted L hidden) (hground : heap.Grounded)
    (hanchor : heap.Anchored) : ({ m with heap } : Machine).Sound L hidden :=
  have hmono := Machine.granted_mono_of_extends hm hextends.size_le hextends.frames
    fun _ => .refl _
  { objects := fun id => (hobjects id).trans hmono
    frames := fun id => (hm.frames id).trans hmono
    realm := hm.realm.trans hmono
    signal := hm.signal.trans hmono
    newTarget := hm.newTarget.trans hmono
    grounded := hground
    anchored := hanchor
    nested := hm.nested
    concealed := fun id hid => (hm.concealed id hid).trans_le hextends.size_le
    fresh := hm.fresh }

section Like

variable {m : Machine} {h : Heap} {id : ObjectId} {change : Object → Object}

theorem Heap.like_modify (hlike : ∀ o : Object, o.Like (change o)) (id' : ObjectId) :
    (h.get id').Like ((h.modify id change).get id') := by
  rcases h.get_modify id change id' with heq | heq <;> rw [heq]
  · exact .refl _
  · exact hlike _

theorem Heap.stateOf_modify (hlike : ∀ o : Object, o.Like (change o)) (id' : ObjectId) :
    (h.modify id change).stateOf id' = h.stateOf id' :=
  (like_modify hlike id').promise

theorem Heap.KeepsArrays.modify (hlike : ∀ o : Object, o.Like (change o)) :
    h.KeepsArrays (h.modify id change) :=
  fun id' harray => (like_modify hlike id').array.trans harray

theorem Heap.KeepsFunctions.modify (hlike : ∀ o : Object, o.Like (change o)) :
    h.KeepsFunctions (h.modify id change) :=
  fun id' _ hbody => (like_modify hlike id').callable.trans hbody

theorem Law.Extends.modifyObject (hlike : ∀ o : Object, o.Like (change o)) :
    L.Extends m { m with heap := m.heap.modify id change } :=
  ⟨(m.heap.size_modify id change).ge, .refl _, fun id' => Heap.stateOf_modify hlike id' ▸ .refl _⟩

/-- A changed object that is of the same kind and has the same prototype. -/
theorem Machine.Sound.modifyObject (hm : m.Sound L hidden)
    (hlike : ∀ o : Object, o.Like (change o))
    (hfacts : ∀ id, facts (change (m.heap.get id)) ⊆ m.granted L hidden) :
    ({ m with heap := m.heap.modify id change } : Machine).Sound L hidden := by
  refine hm.withHeap (.modifyObject hlike) (fun id' => ?_)
    (hm.grounded.congr fun id' => (Heap.like_modify hlike id').prototype) ?_
  · rcases m.heap.get_modify id change id' with heq | heq <;> rw [heq]
    · exact hm.objects id'
    · exact hfacts id'
  · rintro id' target ⟨receiver, args, hcall⟩
    exact hm.anchored id' target
      ⟨receiver, args, (Heap.like_modify hlike id').callable.symm.trans hcall⟩

end Like

/-- Other frames that hold what is there. -/
theorem Machine.Sound.withFrames {m : Machine} (hm : m.Sound L hidden) {frames : Frames}
    (hextends : Frames.Extends L.free m.frames frames)
    (hupholds : ∀ {id}, id.index < m.frames.size → (m.frames.get id).Upholds (frames.get id))
    (hframes : ∀ id, facts (frames.get id) ⊆ m.granted L hidden) (hnested : frames.Nested) :
    ({ m with frames } : Machine).Sound L hidden :=
  have hmono : m.granted L hidden ⊆ ({ m with frames } : Machine).granted L hidden :=
    Machine.granted_mono_of_extends hm (Nat.le_refl _) hextends hupholds
  { objects := fun id => (hm.objects id).trans hmono
    frames := fun id => (hframes id).trans hmono
    realm := hm.realm.trans hmono
    signal := hm.signal.trans hmono
    newTarget := hm.newTarget.trans hmono
    grounded := hm.grounded
    anchored := hm.anchored
    nested := hnested
    concealed := hm.concealed
    fresh := fun id name hid => hm.fresh id name (hextends.size_le.trans hid) }

namespace Law.Step

variable {m : Machine} {mayStop : Prop}

/-- Another heap in which no promise is settled that was not settled before. -/
theorem withHeap (hm : m.Sound L hidden) {heap : Heap} (hsize : m.heap.size ≤ heap.size)
    (hobjects : ∀ id, facts (heap.get id) ⊆ m.granted L hidden) (hground : heap.Grounded)
    (hanchor : heap.Anchored) (hleads : m.heap.Leads heap)
    (hsettled : ∀ id outcome, heap.stateOf id = some (.settled outcome) →
      m.heap.stateOf id = some (.settled outcome))
    (hlengthens : L.Lengthens m { m with heap }) (harrays : m.heap.KeepsArrays heap)
    (hfunctions : m.heap.KeepsFunctions heap) :
    L.Step hidden mayStop m { m with heap } :=
  have hextends : L.Extends m { m with heap } := ⟨hsize, .refl _, hleads⟩
  ⟨hm.withHeap hextends hobjects hground hanchor,
    ⟨hextends, fun _ => .refl _, rfl, hlengthens, harrays, hfunctions⟩, .of_forall hsettled⟩

/-- Other frames that hold what is there, and in which frames are what they were. -/
theorem withFrames (hm : m.Sound L hidden) {frames : Frames}
    (hextends : Frames.Extends L.free m.frames frames)
    (hpersists : ∀ {id}, id.index < m.frames.size → (m.frames.get id).Persists (frames.get id))
    (hframes : ∀ id, facts (frames.get id) ⊆ m.granted L hidden) (hnested : frames.Nested) :
    L.Step hidden mayStop m { m with frames } where
  sound := hm.withFrames hextends (fun hid => (hpersists hid).upholds) hframes hnested
  grows := ⟨⟨Nat.le_refl _, hextends, .refl _⟩, hpersists, rfl, .of_eq rfl, .refl _, .refl _⟩
  settles := .of_forall fun _ _ h => h

/-- A changed object that is of the same kind and has the same prototype. -/
theorem modifyObject (hm : m.Sound L hidden) {id : ObjectId} {change : Object → Object}
    (hlike : ∀ o : Object, o.Like (change o))
    (hfacts : ∀ id, facts (change (m.heap.get id)) ⊆ m.granted L hidden)
    (hlengthens : L.Lengthens m { m with heap := m.heap.modify id change }) :
    L.Step hidden mayStop m { m with heap := m.heap.modify id change } :=
  have hextends : L.Extends m { m with heap := m.heap.modify id change } := .modifyObject hlike
  ⟨hm.modifyObject hlike hfacts,
    ⟨hextends, fun _ => .refl _, rfl, hlengthens, .modify hlike, .modify hlike⟩,
    .of_forall fun _ _ h => (Heap.stateOf_modify hlike _).symm.trans h⟩

/-- Behind a step, an array gets elements of which there were too many before the step, or not too
many at all. -/
theorem replaceElements {m' : Machine} (hstep : L.Step hidden mayStop m m') {id : ObjectId}
    {elements : Array Value} (hfacts : facts elements ⊆ m'.granted L hidden)
    (hlong : maxArrayLength < elements.size → m.heap.Overlong id) :
    L.Step hidden mayStop m
      { m' with heap := m'.heap.modify id (·.withElements fun _ => elements) } := by
  have hlike (o : Object) : o.Like (o.withElements fun _ => elements) := .withElements o _
  have hextends : L.Extends m' { m' with
      heap := m'.heap.modify id (·.withElements fun _ => elements) } := .modifyObject hlike
  refine ⟨hstep.sound.modifyObject hlike fun id' => ?_,
    ⟨hstep.grows.toExtends.trans hextends, hstep.grows.persists, hstep.grows.realm,
      fun id' hid' => ?_, hstep.grows.arrays.trans (.modify hlike),
      hstep.grows.functions.trans (.modify hlike)⟩, ?_⟩
  · have : Shown ⟨m'.granted L hidden, hidden⟩ (m'.heap.get id') := ⟨hstep.sound.objects id'⟩
    have : Shown ⟨m'.granted L hidden, hidden⟩ elements := ⟨hfacts⟩
    have hchanged : Shown ⟨m'.granted L hidden, hidden⟩
        ((m'.heap.get id').withElements fun _ => elements) := inferInstance
    exact hchanged.facts_subset
  · rcases hid'.modify_cases with hbefore | ⟨rfl, hnew⟩
    · refine (hstep.grows.lengthens id' hbefore).imp_right ?_
      rintro ⟨m₁, m₂, hbefore, hfills, hafter⟩
      exact ⟨m₁, m₂, hbefore, hfills, hafter.trans hextends⟩
    · refine .inl (hlong ?_)
      obtain ⟨elements', helements', hlong'⟩ := hnew
      rw [Object.elements?_withElements, Option.map_eq_some_iff] at helements'
      obtain ⟨-, -, rfl⟩ := helements'
      exact hlong'
  · intro id' outcome hsettled
    have hbefore := (Heap.stateOf_modify hlike id').symm.trans hsettled
    refine (hstep.settles id' outcome hbefore).imp_right ?_
    rintro ⟨m₁, m₂, decided, reactions, hbefore, hpending, hran, hafter⟩
    exact ⟨m₁, m₂, decided, reactions, hbefore, hpending, hran, hafter.trans hextends.leads⟩

/-- Another prototype of an object that is not reached from it. -/
theorem setPrototype (hm : m.Sound L hidden) {id : ObjectId} {prototype : Option ObjectId}
    (hfacts : facts prototype ⊆ m.granted L hidden)
    (hnew : ∀ p, prototype = some p → ¬ m.heap.Reaches p id) :
    L.Step hidden mayStop m { m with heap := m.heap.modify id ({ · with prototype }) } := by
  have hcase (id' : ObjectId) :
      (m.heap.modify id ({ · with prototype })).get id' = m.heap.get id' ∨
        id' = id ∧ (m.heap.modify id ({ · with prototype })).get id' =
          { m.heap.get id' with prototype } := by
    by_cases heq : id' = id
    · exact (m.heap.get_modify id _ id').imp_right fun h => ⟨heq, h⟩
    · exact .inl (m.heap.get_modify_of_ne heq _)
  have hstate (id' : ObjectId) :
      (m.heap.modify id ({ · with prototype })).stateOf id' = m.heap.stateOf id' := by
    rw [Heap.stateOf]
    rcases hcase id' with heq | ⟨-, heq⟩ <;> rw [heq] <;> rfl
  refine withHeap hm (m.heap.size_modify id _).ge (fun id' => ?_)
    (hm.grounded.change id (fun a ha => by rw [m.heap.get_modify_of_ne ha]) fun p hp => ?_)
    (fun id' target hbinds => ?_) (fun id' => hstate id' ▸ .refl _)
    (fun id' outcome h => (hstate id').symm.trans h)
    (.of_modify fun _ h => h) (fun id' harray => ?_) fun id' body hbody => ?_
  · rcases hcase id' with heq | ⟨-, heq⟩ <;> rw [heq]
    · exact hm.objects id'
    · exact Set.union_subset (Set.union_subset (fun _ hf => hm.objects id' (.inl (.inl hf))) hfacts)
        fun _ hf => hm.objects id' (.inr hf)
  · rw [Heap.IsPrototype] at hp
    rcases hcase id with heq | ⟨-, heq⟩ <;> rw [heq] at hp
    · exact hm.grounded.not_reaches hp
    · exact hnew p hp
  · obtain ⟨receiver, args, hcall⟩ := hbinds
    rcases hcase id' with heq | ⟨-, heq⟩ <;> rw [heq] at hcall
    · exact hm.anchored id' target ⟨receiver, args, hcall⟩
    · exact hm.anchored id' target ⟨receiver, args, hcall⟩
  · rcases hcase id' with heq | ⟨-, heq⟩ <;> rw [heq]
    · exact harray
    · exact harray
  · rcases hcase id' with heq | ⟨-, heq⟩ <;> rw [heq]
    · exact hbody
    · exact hbody

/-- The prototype of a new object, which is one of those that were there before it. -/
theorem setPrototype_of_spares (hm : m.Sound L hidden) {h : Heap} (hclosed : h.Closed)
    (hspares : h.Spares m.heap) {id p : ObjectId} (hid : h.size ≤ id.index)
    (hp : p.index < h.size) (hgranted : facts p ⊆ m.granted L hidden) :
    L.Step hidden mayStop m { m with heap := m.heap.modify id ({ · with prototype := some p }) } := by
  refine .setPrototype hm hgranted fun q hq => ?_
  cases hq
  exact Heap.not_reaches_of_closed hclosed hspares.prototype hp hid

/-- A new object. -/
theorem allocate (hm : m.Sound L hidden) {o : Object} (hfacts : facts o ⊆ m.granted L hidden)
    (hstate : ∀ outcome, o.promiseState? ≠ some (.settled outcome)) :
    L.Step hidden mayStop m { m with heap := (m.heap.allocate o).2 } := by
  have hcase (id : ObjectId) : id.index = m.heap.size ∧ (m.heap.allocate o).2.get id = o ∨
      (m.heap.allocate o).2.get id = m.heap.get id := by
    rw [Heap.get_allocate]
    split
    · next heq => exact .inl ⟨heq, rfl⟩
    · exact .inr rfl
  refine withHeap hm (by simp) (fun id => ?_)
    (hm.grounded.allocate hm.closed fun p hp => ?_) (fun id target hbinds => ?_) (fun id => ?_)
    (fun id outcome h => ?_) (fun id hlong => ?_) (fun id harray => ?_) fun id body hbody => ?_
  · rcases hcase id with ⟨-, heq⟩ | heq <;> rw [heq]
    · exact hfacts
    · exact hm.objects id
  · have hprototype : facts o.prototype ⊆ m.granted L hidden :=
      fun _ hf => hfacts (.inl (.inr hf))
    rw [hp] at hprototype
    exact (hprototype (.inl rfl) : _ ∧ _).1
  · obtain ⟨receiver, args, hcall⟩ := hbinds
    rcases hcase id with ⟨hid, heq⟩ | heq <;> rw [heq] at hcall
    · -- What the new function calls was there before it.
      have : Shown ⟨m.granted L hidden, hidden⟩ o := ⟨hfacts⟩
      have hcallable : Shown ⟨m.granted L hidden, hidden⟩ o.callable? := inferInstance
      rw [hcall] at hcallable
      have htarget : m.Grants L hidden (.object target) :=
        hcallable.facts_subset (.inl (.inl (.inl rfl)))
      exact htarget.1.trans_eq hid.symm
    · exact hm.anchored id target ⟨receiver, args, hcall⟩
  · rcases hcase id with ⟨hid, -⟩ | heq
    · have hnone : m.heap.stateOf id = none := by
        rw [Heap.stateOf, m.heap.get_of_size_le hid.ge]
        rfl
      exact hnone ▸ .start _
    · rw [Heap.stateOf, Heap.stateOf, heq]
      exact .refl _
  · change ((m.heap.allocate o).2.get id).promiseState? = _ at h
    rcases hcase id with ⟨-, heq⟩ | heq <;> rw [heq] at h
    · exact absurd h (hstate outcome)
    · exact h
  · refine hlong.allocate_cases.imp_right ?_
    rintro ⟨rfl, hnew⟩
    exact ⟨m, { m with heap := (m.heap.allocate o).2 }, .refl _, .create hnew, .refl _⟩
  · -- What is new was no array before.
    rcases hcase id with ⟨hid, -⟩ | heq
    · rw [m.heap.get_of_size_le hid.ge] at harray
      cases harray
    · rwa [heq]
  · -- Nor was it a function.
    rcases hcase id with ⟨hid, -⟩ | heq
    · rw [m.heap.get_of_size_le hid.ge] at hbody
      cases hbody
    · rwa [heq]

end Law.Step

/-! ## Names that may be added -/

/-- The name may be added to the frame. -/
class Free (K : Knowledge) (id : FrameId) (name : String) : Prop where
  known : .free id name ∈ K.known

namespace Free

variable {id : FrameId} {name : String}

instance (outer : FrameId) : Free (K.inBlock outer id) id name :=
  ⟨.inr (.inl (.inl (.inr ⟨name, rfl⟩)))⟩

instance : Free (K.inFrame id) id name := ⟨.inr (.inr ⟨name, rfl⟩)⟩

variable [h : Free K id name]

instance (priority := low) (F : Set Fact) : Free (K.plus F) id name := ⟨.inl h.known⟩

instance (priority := low) (x : α) : Free (K.and x) id name := ⟨.inl h.known⟩

instance (priority := low) (inner : FrameId) : Free (K.inFrame inner) id name := ⟨.inl h.known⟩

end Free

namespace Frame

variable (f : Frame) (name other : String) (v : Value)

theorem binds_insert (b : Binding) :
    ({ f with bindings := f.bindings.insert name b } : Frame).binds other = true ↔
      other = name ∨ f.binds other = true := by
  simp only [binds, Bindings.contains_eq, Bindings.get?_insert]
  split
  · next heq => simp [heq]
  · next hne => simp [hne]

theorem Persists.insert (b : Binding) :
    f.Persists { f with bindings := f.bindings.insert name b } :=
  ⟨⟨rfl, rfl, rfl, fun h => (f.binds_insert name _ b).mpr (.inr h)⟩, rfl, .inl rfl⟩

theorem binds_declareVariable :
    (f.declareVariable name v).binds other = true ↔ other = name ∨ f.binds other = true :=
  f.binds_insert name other _

theorem binds_declareConstant :
    (f.declareConstant name v).binds other = true ↔ other = name ∨ f.binds other = true :=
  f.binds_insert name other _

end Frame

/-- A frame that holds other things, and at most names more that may be added. -/
theorem Machine.Sound.modifyFrame {m : Machine} (hm : m.Sound L hidden) {id : FrameId}
    {change : Frame → Frame} (hupholds : (m.frames.get id).Upholds (change (m.frames.get id)))
    (hadded : ∀ name, ((change (m.frames.get id)).binds name) = true →
      (m.frames.get id).binds name = true ∨ L.free id name)
    (hfacts : facts (change (m.frames.get id)) ⊆ m.granted L hidden) :
    ({ m with frames := m.frames.modify id change } : Machine).Sound L hidden := by
  have hsame (id' : FrameId) :
      ((m.frames.modify id change).get id').parent = (m.frames.get id').parent ∧
        ((m.frames.modify id change).get id').kind = (m.frames.get id').kind := by
    rcases m.frames.get_modify_cases id change id' with heq | ⟨rfl, heq⟩ <;> rw [heq]
    · exact ⟨rfl, rfl⟩
    · exact ⟨hupholds.parent, hupholds.kind⟩
  refine hm.withFrames (.modify m.frames id hupholds.toStays hadded)
    (fun _ => .modify m.frames hupholds) (fun id' => ?_)
    ⟨fun id' outer h => ?_, fun id' hid' h => ?_⟩
  · rcases m.frames.get_modify_cases id change id' with heq | ⟨rfl, heq⟩ <;> rw [heq]
    · exact hm.frames id'
    · exact hfacts
  · exact hm.nested.outward id' outer ((hsame id').1.symm.trans h)
  · rw [(hsame id').2]
    exact hm.nested.rooted id' (by simpa using hid') ((hsame id').1.symm.trans h)

namespace Law.Step

/-- A frame that holds other things, and at most names more that may be added. -/
theorem modifyFrame {m : Machine} {mayStop : Prop} (hm : m.Sound L hidden) {id : FrameId}
    {change : Frame → Frame} (hpersists : (m.frames.get id).Persists (change (m.frames.get id)))
    (hadded : ∀ name, ((change (m.frames.get id)).binds name) = true →
      (m.frames.get id).binds name = true ∨ L.free id name)
    (hfacts : facts (change (m.frames.get id)) ⊆ m.granted L hidden) :
    L.Step hidden mayStop m { m with frames := m.frames.modify id change } := by
  refine ⟨hm.modifyFrame hpersists.upholds hadded hfacts, ⟨⟨Nat.le_refl _,
    .modify m.frames id hpersists.toStays hadded, .refl _⟩, fun {id'} _ => ?_, rfl, .of_eq rfl,
    .refl _, .refl _⟩,
    .of_forall fun _ _ h => h⟩
  rcases m.frames.get_modify_cases id change id' with heq | ⟨rfl, heq⟩
  · exact heq ▸ .refl _
  · exact heq ▸ hpersists

/-- A frame that is new in a run holds other things at the end of it. -/
theorem modifyNewFrame {m m' : Machine} {mayStop : Prop} (hstep : L.Step hidden mayStop m m')
    {id : FrameId} (hid : m.frames.size ≤ id.index) {change : Frame → Frame}
    (hupholds : (m'.frames.get id).Upholds (change (m'.frames.get id)))
    (hadded : ∀ name, ((change (m'.frames.get id)).binds name) = true →
      (m'.frames.get id).binds name = true ∨ L.free id name)
    (hfacts : facts (change (m'.frames.get id)) ⊆ m'.granted L hidden) :
    L.Step hidden mayStop m { m' with frames := m'.frames.modify id change } := by
  have hextends : L.Extends m' { m' with frames := m'.frames.modify id change } :=
    ⟨Nat.le_refl _, .modify m'.frames id hupholds.toStays hadded, .refl _⟩
  refine ⟨hstep.sound.modifyFrame hupholds hadded hfacts,
    ⟨hstep.grows.toExtends.trans hextends, fun {id'} hid' => ?_, hstep.grows.realm,
      .trans hstep.grows.toExtends hextends hstep.grows.lengthens (.of_eq rfl),
      hstep.grows.arrays, hstep.grows.functions⟩, hstep.settles⟩
  -- The frames that were there before the run are others.
  have hne : id' ≠ id := fun heq => absurd hid (heq ▸ hid'.not_ge)
  exact m'.frames.get_modify_of_ne hne change ▸ hstep.grows.persists hid'

/-- A name of the frame, or one that may be added, gets a value. -/
theorem declareVariable {m : Machine} {mayStop : Prop} (hm : m.Meets L K) {id : FrameId}
    {name : String} (hname : (m.frames.get id).binds name = true ∨ L.free id name) (v : Value)
    [Shown K v] : L.Step K.hidden mayStop m
      { m with frames := m.frames.modify id (·.declareVariable name v) } := by
  have hchange (f : Frame) : Shown (K.and f) (f.declareVariable name v) := inferInstance
  refine .modifyFrame hm.sound (.insert _ name _) (fun other h => ?_)
    ((hchange _).facts_subset.trans (hm.and_subset (hm.sound.frames id)))
  rcases (Frame.binds_declareVariable _ name other v).mp h with rfl | h
  · exact hname
  · exact .inl h

/-- A new frame. -/
theorem addFrame {m : Machine} {mayStop : Prop} (hm : m.Sound L hidden) {f : Frame}
    (hfacts : facts f ⊆ m.granted L hidden) (hroot : f.parent = none → f.kind ≠ .block) :
    L.Step hidden mayStop m { m with frames := (m.frames.add f).2 } := by
  have hcase (id : FrameId) : id.index = m.frames.size ∧ (m.frames.add f).2.get id = f ∨
      id.index ≠ m.frames.size ∧ (m.frames.add f).2.get id = m.frames.get id := by
    rw [Frames.get_add]
    split
    · next heq => exact .inl ⟨heq, rfl⟩
    · next hne => exact .inr ⟨hne, rfl⟩
  refine withFrames hm (.add m.frames f) (fun {id} hid => ?_) (fun id => ?_)
    ⟨fun id outer h => ?_, fun id hid h => ?_⟩
  · exact m.frames.get_add_of_lt f hid ▸ .refl _
  · rcases hcase id with ⟨-, heq⟩ | ⟨-, heq⟩ <;> rw [heq]
    · exact hfacts
    · exact hm.frames id
  · rcases hcase id with ⟨hid, heq⟩ | ⟨-, heq⟩ <;> rw [heq] at h
    · have hparent : facts f.parent ⊆ m.granted L hidden :=
        fun _ hf => hfacts (.inl (.inl (.inl (.inr hf))))
      rw [h] at hparent
      have hlt : m.Grants L hidden (.frame outer) := hparent rfl
      exact Nat.lt_of_lt_of_eq hlt hid.symm
    · exact hm.nested.outward id outer h
  · rcases hcase id with ⟨-, heq⟩ | ⟨hne, heq⟩ <;> rw [heq] at h ⊢
    · exact hroot h
    · have hle : id.index < m.frames.size + 1 := by simpa using hid
      exact hm.nested.rooted id (by omega) h

end Law.Step

/-! ## Errors -/

/-- The error object of a fault. -/
def Machine.errorOf (m : Machine) (f : Fault) : Object :=
  let blank := Object.new (m.realm.prototypeOf f.kind) .error
  if f.message.isEmpty then blank else blank.insertHidden "message" (.ofText f.message)

/-- The machine with the error object of a fault, which is new. -/
def Machine.afterFault (m : Machine) (f : Fault) : Machine :=
  { m with heap := (m.heap.allocate (m.errorOf f)).2 }

/-! ## Steps -/

namespace Action

variable {β γ : Type}

/-- Where the second action gives a value, the first one has given one before. -/
theorem exists_of_bind {a : Action β} {f : β → Action γ} {m m' : Machine} {y : γ}
    (h : (a >>= f) m = .ok y m') : ∃ x m₁, a m = .ok x m₁ ∧ f x m₁ = .ok y m' := by
  rw [Discipline.bind_apply] at h
  generalize a m = result at h
  cases result with
  | ok x m₁ => exact ⟨x, m₁, rfl, h⟩
  | error e m₁ => cases h

theorem readHeap_bind (f : Heap → β) (next : β → Action γ) (m : Machine) :
    (readHeap f >>= next) m = next (f m.heap) m := rfl

theorem readFrames_bind (f : Frames → β) (next : β → Action γ) (m : Machine) :
    (readFrames f >>= next) m = next (f m.frames) m := rfl

theorem readTarget_bind (next : Option ObjectId → Action γ) (m : Machine) :
    (readTarget >>= next) m = next m.newTarget m := rfl

theorem modifyObject_bind (id : ObjectId) (change : Object → Object) (next : Unit → Action γ)
    (m : Machine) : (modifyObject id change >>= next) m =
      next () { m with heap := m.heap.modify id change } := rfl

/-- Nothing runs behind a fault. -/
theorem throwFault_bind (f : Fault) (next : β → Action γ) :
    (throwFault f : Action β) >>= next = throwFault f := by
  unfold throwFault
  rw [bind_assoc]
  rfl

end Action

namespace Law

open EcmaEval.Action

/-- A new frame that takes variables. -/
theorem leaves_addFrame (f : Frame) [Shown K f] (hkind : f.kind ≠ .block) :
    L.Leaves K (addFrame f) Knowledge.rootFacts := by
  intro m hm
  have hstep : L.Step K.hidden L.suites m { m with frames := (m.frames.add f).2 } :=
    .addFrame hm.sound (hm.facts_subset f) fun _ => hkind
  refine .ok hstep (Set.union_subset ?_ ?_)
  · have hlt : m.frames.size < (m.frames.add f).2.size := by simp
    refine Set.insert_subset_iff.mpr ⟨hlt, Set.singleton_subset_iff.mpr ⟨hlt, ?_⟩⟩
    change ((m.frames.add f).2.get ⟨m.frames.size⟩).kind ≠ _
    rwa [m.frames.get_add_self]
  · rintro _ ⟨name, rfl⟩
    exact hm.sound.fresh ⟨m.frames.size⟩ name (Nat.le_refl _)

/-- In a new frame with no receiver of its own, the parent constructor may be called as around it. -/
theorem insideFacts_subset {m : Machine} (hm : m.Meets L K) {f : Frame} {outer : FrameId}
    (hopen : f.IsOpen) (hparent : f.parent = some outer) {mayStop : Prop}
    (hstep : L.Step K.hidden mayStop m { m with frames := (m.frames.add f).2 }) :
    K.insideFacts outer ⟨m.frames.size⟩ ⊆
      ({ m with frames := (m.frames.add f).2 } : Machine).granted L K.hidden := by
  have hnew : (m.frames.add f).2.get ⟨m.frames.size⟩ = f := m.frames.get_add_self f
  rintro _ ⟨args, rfl, hcalls⟩ hlexical
  have houter : (m.frames.add f).2.CallsFrom outer args :=
    Machine.granted_mono hm.sound hstep.grows (hm.known hcalls) hlexical
  exact houter.inward (hnew.symm ▸ hopen) (hnew.symm ▸ hparent)

/-- A new frame that takes variables, and has no receiver of its own. -/
theorem leaves_addInside {f : Frame} [Shown K f] (hkind : f.kind ≠ .block) (hopen : f.IsOpen)
    {outer : FrameId} (hparent : f.parent = some outer) : L.Leaves K (addFrame f) fun id =>
      Knowledge.rootFacts id ∪ K.insideFacts outer id := by
  intro m hm
  have hroot : L.Ends K.hidden m Knowledge.rootFacts
      (.ok ⟨m.frames.size⟩ { m with frames := (m.frames.add f).2 }) :=
    leaves_addFrame f hkind m hm
  obtain ⟨hstep, hfacts⟩ := hroot
  exact .ok hstep (Set.union_subset hfacts (insideFacts_subset hm hopen hparent hstep))

/-- A new block.  Its variables go where those of the frame around it go. -/
theorem leaves_addBlock (outer : FrameId) [houter : Shown K outer] :
    L.Leaves K (addBlock outer) (K.blockFacts outer) := by
  intro m hm
  let block : Frame := { parent := some outer, kind := .block }
  have hstep : L.Step K.hidden L.suites m { m with frames := (m.frames.add block).2 } :=
    .addFrame hm.sound (hm.facts_subset block) nofun
  have hlt : m.frames.size < (m.frames.add block).2.size := by simp
  have hscope : (m.frames.add block).2.variableScope ⟨m.frames.size⟩ =
      (m.frames.add block).2.variableScope outer :=
    Frames.variableScope_block hstep.sound.nested hlt (by rw [Frames.get_add_self])
      (by rw [Frames.get_add_self])
  refine .ok hstep (Set.union_subset (Set.union_subset
    (Set.union_subset (Set.singleton_subset_iff.mpr hlt) ?_) ?_) ?_)
  · rintro _ ⟨name, rfl⟩
    exact hm.sound.fresh ⟨m.frames.size⟩ name (Nat.le_refl _)
  · rintro _ ⟨name, rfl, howns⟩
    obtain ⟨-, hbinds⟩ := Machine.granted_mono hm.sound hstep.grows (hm.known howns)
    exact ⟨hlt, hscope.symm ▸ hbinds⟩
  · exact insideFacts_subset hm ⟨rfl, rfl, rfl⟩ rfl hstep

namespace Conducts

/-! ### Looking -/

instance (f : Heap → α) [hf : ∀ h, Shown (K.and h) (f h)] : L.Conducts K (readHeap f) :=
  of_read fun m hm => (hf m.heap).facts_subset.trans (hm.and_subset hm.sound.heap)

instance (f : Frames → α) [hf : ∀ fs, Shown (K.and fs) (f fs)] : L.Conducts K (readFrames f) :=
  of_read fun m hm => (hf m.frames).facts_subset.trans (hm.and_subset hm.sound.allFrames)

instance (f : Realm → α) [hf : ∀ r, Shown (K.and r) (f r)] : L.Conducts K (readRealm f) :=
  of_read fun m hm => (hf m.realm).facts_subset.trans (hm.and_subset hm.sound.realm)

/-! ### Objects -/

instance (id : ObjectId) (change : Object → Object) [htame : Object.Tame change]
    [hchange : ∀ o, Shown (K.and o) (change o)] : L.Conducts K (modifyObject id change) :=
  ⟨fun m hm => .ok (.modifyObject hm.sound htame.like (fun id =>
    (hchange (m.heap.get id)).facts_subset.trans (hm.and_subset (hm.sound.objects id)))
    (.of_modify fun _ => htame.overlong)) (subset_of_plain _ _)⟩

/-- A new object, which is no settled promise. -/
theorem allocate (o : Object) [Shown K o]
    (hstate : ∀ outcome, o.promiseState? ≠ some (.settled outcome)) :
    L.Conducts K (Action.allocate o) := by
  refine ⟨fun m hm => ?_⟩
  refine .ok (.allocate hm.sound (hm.facts_subset o) hstate) ?_
  have hlt : m.heap.size < (m.heap.allocate o).2.size := by simp
  -- What is hidden was there before.
  exact Set.insert_subset_iff.mpr ⟨⟨hlt, fun hmem => absurd (hm.sound.concealed _ hmem)
    (Nat.lt_irrefl _)⟩, Set.singleton_subset_iff.mpr hlt⟩

instance (prototype : Option ObjectId) [Shown K prototype] :
    L.Conducts K (newObjectWith prototype) :=
  allocate _ nofun

instance : L.Conducts K newObject := by
  unfold newObject
  infer_instance

instance (elements : Array Value) [Shown K elements] : L.Conducts K (newArray elements) := by
  unfold newArray
  have (prototype : ObjectId) :
      L.Conducts (K.and prototype) (Action.allocate (.new prototype (.array elements))) :=
    allocate _ nofun
  infer_instance

instance (elements : List Value) [Shown K elements] : L.Conducts K (newArrayOf elements) := by
  unfold newArrayOf
  infer_instance

instance : L.Conducts K newPromise := by
  unfold newPromise
  have (prototype : ObjectId) : L.Conducts (K.and prototype)
      (Action.allocate (.new prototype (.promise (.pending false [])))) :=
    allocate _ nofun
  infer_instance

instance (kind : ErrorKind) (message : String) : L.Conducts K (newError kind message) := by
  unfold newError
  refine bind fun prototype => ?_
  dsimp only
  split
  · exact allocate _ nofun
  · refine allocate _ fun outcome h => ?_
    have hstate := (Object.Like.define (.new prototype .error) "message"
      (.hidden (.ofText message))).promise
    exact nomatch hstate.symm.trans h

instance (f : Fault) : L.Conducts K (newFault f) := by
  unfold newFault
  infer_instance

instance (f : Fault) : L.Conducts K (throwFault f : Action α) := by
  unfold throwFault
  infer_instance

instance (body : Callable) [Shown K body] (name : String) (length : Nat) :
    L.Conducts K (newFunction body name length) := by
  unfold newFunction
  have (prototype : ObjectId) : L.Conducts (K.and prototype) (Action.allocate <|
      (Object.new prototype (.function body)).define "length" (.fixed (.ofNat length))
        |>.define "name" (.fixed (.ofText name))) := by
    refine allocate _ fun outcome h => ?_
    have hstate := ((Object.Like.define (.new prototype (.function body)) "length"
      (.fixed (.ofNat length))).trans (.define _ "name" (.fixed (.ofText name)))).promise
    exact nomatch hstate.symm.trans h
  infer_instance

instance (f : Native) [Shown K f] : L.Conducts K (newNative f) := by
  unfold newNative
  infer_instance

/-! ### Frames -/

instance {β : Type} [HasFacts β] (outer : FrameId) [Shown K outer] {f : FrameId → Action β}
    [hf : ∀ id, L.Conducts (K.inBlock outer id) (f id)] : L.Conducts K (addBlock outer >>= f) :=
  (leaves_addBlock outer).andThen hf

instance (id : FrameId) (name : String) (v : Value) [Shown K v] [hfree : Free K id name] :
    L.Conducts K (modifyFrame id (·.declareVariable name v)) :=
  ⟨fun _ hm => .ok (.declareVariable hm (.inr (hm.known hfree.known)) v) (subset_of_plain _ _)⟩

instance (id : FrameId) (name : String) (v : Value) [Shown K v] [hfree : Free K id name] :
    L.Conducts K (modifyFrame id (·.declareConstant name v)) := by
  have hchange (f : Frame) : Shown (K.and f) (f.declareConstant name v) := inferInstance
  refine ⟨fun m hm => .ok (.modifyFrame hm.sound (.insert _ name _) (fun other h => ?_)
    ((hchange _).facts_subset.trans (hm.and_subset (hm.sound.frames id)))) (subset_of_plain _ _)⟩
  rcases (Frame.binds_declareConstant _ name other v).mp h with rfl | h
  · exact .inr (hm.known hfree.known)
  · exact .inl h

end Conducts

end Law

end EcmaEval
