import Mathlib.Order.Nat
import EcmaEval.Proofs.Run.Steady
import EcmaEval.Proofs.Syntax.Rules

/-!
# Frames inside frames

A frame is younger than the one that it stands in, and the outermost frames take variables.  So the
way outside ends at a frame that takes the variables of a block, and it does not change while frames
are added and names are bound.

The frames of blocks and of arrow functions have no receiver of their own, so the way outside through
such frames ends at the frame whose receiver they see.

## Main definitions

* `Frames.Nested`: frames stand in older ones, up to one that is no block
* `Frame.Stays`, `Frame.Persists`: what stays of a frame
* `Frames.Extends`: frames after others were added and names were bound
* `Frames.Sees`: a frame sees the receiver of another one
* `Frame.Runs`: the frame of an invocation of the constructor of a class
* `Frames.CallsIn`: a call of the parent constructor belongs to the constructor around it

## Main results

* `Frames.Extends.variableScope`: variables go where they went before
* `Frames.variableScope_block`: the variables of a block go where those around it go
* `Frames.Sees.find?_eq`: what sees a receiver finds what is found from there
-/

namespace EcmaEval

namespace Frames

/-! ## Reading frames -/

@[simp] theorem size_add (fs : Frames) (f : Frame) : (fs.add f).2.size = fs.size + 1 := by
  simp [add, size]

@[simp] theorem size_modify (fs : Frames) (id : FrameId) (change : Frame → Frame) :
    (fs.modify id change).size = fs.size := by
  simp [modify, size]

theorem get_add_self (fs : Frames) (f : Frame) : (fs.add f).2.get ⟨fs.size⟩ = f := by
  rw [get_add, if_pos rfl]

theorem get_add_of_lt (fs : Frames) (f : Frame) {id : FrameId} (hid : id.index < fs.size) :
    (fs.add f).2.get id = fs.get id := by
  rw [get_add, if_neg hid.ne]

theorem get_modify_of_ne (fs : Frames) {id id' : FrameId} (hne : id' ≠ id)
    (change : Frame → Frame) : (fs.modify id change).get id' = fs.get id' := by
  simp only [modify, get, Array.getD_eq_getD_getElem?, Array.getElem?_modify]
  rw [if_neg fun heq => hne (by cases id; cases id'; exact congrArg _ (Eq.symm heq))]

theorem get_modify_self (fs : Frames) {id : FrameId} (hid : id.index < fs.size)
    (change : Frame → Frame) : (fs.modify id change).get id = change (fs.get id) := by
  have hsome : fs.frames[id.index]? = some fs.frames[id.index] := Array.getElem?_eq_getElem hid
  simp [modify, get, Array.getD_eq_getD_getElem?, Array.getElem?_modify, hsome]

theorem get_of_size_le (fs : Frames) {id : FrameId} (hid : fs.size ≤ id.index) :
    fs.get id = default := by
  rw [get, Array.getD_eq_getD_getElem?, Array.getElem?_eq_none hid, Option.getD_none]

/-- A change reaches no other frame. -/
theorem get_modify_cases (fs : Frames) (id : FrameId) (change : Frame → Frame) (id' : FrameId) :
    (fs.modify id change).get id' = fs.get id' ∨
      id' = id ∧ (fs.modify id change).get id' = change (fs.get id') := by
  by_cases hne : id' = id
  · exact (fs.get_modify id change id').imp_right (⟨hne, ·⟩)
  · exact .inl (fs.get_modify_of_ne hne change)

/-- A new frame that is changed at once is the changed frame. -/
theorem add_modify (fs : Frames) (f : Frame) (change : Frame → Frame) :
    (fs.add f).2.modify ⟨fs.size⟩ change = (fs.add (change f)).2 := by
  refine congrArg Frames.mk (Array.ext_getElem? fun i => ?_)
  simp only [size, add, Array.getElem?_modify, Array.getElem?_push]
  by_cases hi : i = fs.frames.size
  · simp [hi]
  · simp [hi, Ne.symm hi]

/-- A name is assigned where it is bound. -/
theorem binds_of_assignmentTarget {fs : Frames} {id owner : FrameId} {name : String}
    (h : fs.assignmentTarget id name = .ok owner) : (fs.get owner).binds name = true := by
  unfold assignmentTarget at h
  generalize fs.size = fuel at h
  induction fuel generalizing id with
  | zero => cases h
  | succ fuel ih =>
    rw [assignmentTargetWithin] at h
    split at h
    · cases h
    · split at h
      · next hvariable =>
        cases h
        rw [Frame.binds, Bindings.contains, hvariable, Bool.or_true]
      · split at h
        · exact ih h
        · cases h

/-! ## Nesting -/

/-- Frames stand in older ones, and those that stand in none take variables. -/
structure Nested (fs : Frames) : Prop where
  outward : ∀ id outer, (fs.get id).parent = some outer → outer.index < id.index
  rooted : ∀ id, id.index < fs.size → (fs.get id).parent = none → (fs.get id).kind ≠ .block

end Frames

/-- The place of a frame stays, what it was made for, and its names. -/
structure Frame.Stays (f f' : Frame) : Prop where
  parent : f'.parent = f.parent
  kind : f'.kind = f.kind
  home : f'.home = f.home
  kept : ∀ {name}, f.binds name = true → f'.binds name = true

/-- The receiver of a frame stays too, but for that of a constructor of a derived class: there a call
of the parent constructor binds it. -/
structure Frame.Persists (f f' : Frame) : Prop extends Frame.Stays f f' where
  superCall : f'.superCall = f.superCall
  this : f'.this = f.this ∨ f.superCall.isSome = true ∧ ∃ v, f'.this = some (.bound v)

namespace Frame

variable {f f' f'' : Frame}

theorem Stays.refl (f : Frame) : f.Stays f := ⟨rfl, rfl, rfl, id⟩

theorem Stays.trans (h : f.Stays f') (h' : f'.Stays f'') : f.Stays f'' where
  parent := h'.parent.trans h.parent
  kind := h'.kind.trans h.kind
  home := h'.home.trans h.home
  kept hb := h'.kept (h.kept hb)

theorem Persists.refl (f : Frame) : f.Persists f := ⟨.refl f, rfl, .inl rfl⟩

theorem Persists.trans (h : f.Persists f') (h' : f'.Persists f'') : f.Persists f'' where
  toStays := h.toStays.trans h'.toStays
  superCall := h'.superCall.trans h.superCall
  this := by
    rcases h'.this with heq | ⟨hsome, hbound⟩
    · rw [heq]
      exact h.this
    · exact .inr ⟨h.superCall ▸ hsome, hbound⟩

/-- A frame that is not that of a constructor of a derived class keeps its receiver. -/
theorem Persists.this_eq (h : f.Persists f') (hnone : f.superCall = none) : f'.this = f.this := by
  rcases h.this with hsame | ⟨hsome, -⟩
  · exact hsame
  · rw [hnone] at hsome
    cases hsome

end Frame

namespace Frames

/-- Frames after others were added and names were bound.  Only names that are `free` are new. -/
structure Extends (free : FrameId → String → Prop) (fs fs' : Frames) : Prop where
  size_le : fs.size ≤ fs'.size
  stays : ∀ {id}, id.index < fs.size → (fs.get id).Stays (fs'.get id)
  added : ∀ {id name}, id.index < fs.size → (fs'.get id).binds name = true →
    (fs.get id).binds name = true ∨ free id name

variable {free : FrameId → String → Prop} {fs fs' fs'' : Frames}

namespace Extends

theorem refl (fs : Frames) : Extends free fs fs :=
  ⟨Nat.le_refl _, fun _ => .refl _, fun _ => .inl⟩

theorem trans (h : Extends free fs fs') (h' : Extends free fs' fs'') : Extends free fs fs'' where
  size_le := h.size_le.trans h'.size_le
  stays hid := (h.stays hid).trans (h'.stays (hid.trans_le h.size_le))
  added hid hb := (h'.added (hid.trans_le h.size_le) hb).elim (h.added hid) .inr

/-- A new frame. -/
theorem add (fs : Frames) (f : Frame) : Extends free fs (fs.add f).2 where
  size_le := by simp
  stays hid := by
    rw [get_add_of_lt fs f hid]
    exact .refl _
  added hid hb := .inl (by rwa [get_add_of_lt fs f hid] at hb)

/-- A change of one frame. -/
theorem modify (fs : Frames) (id : FrameId) {change : Frame → Frame}
    (hstays : (fs.get id).Stays (change (fs.get id)))
    (hadded : ∀ name, ((change (fs.get id)).binds name) = true →
      (fs.get id).binds name = true ∨ free id name) :
    Extends free fs (fs.modify id change) := by
  constructor
  · simp
  · intro id' hid'
    rcases get_modify_cases fs id change id' with heq | ⟨rfl, heq⟩ <;> rw [heq]
    · exact .refl _
    · exact hstays
  · intro id' name hid' hb
    rcases get_modify_cases fs id change id' with heq | ⟨rfl, heq⟩ <;> rw [heq] at hb
    · exact .inl hb
    · exact hadded name hb

end Extends

/-! ## The frame of variables -/

/-- Any bound above the place of a frame is great enough for the way outside, and what is found does
not depend on what the frames bind. -/
theorem Nested.findWithin_eq (hn : fs.Nested) {p : Frame → Bool}
    (hparent : ∀ id, id.index < fs.size → (fs'.get id).parent = (fs.get id).parent)
    (hp : ∀ id, id.index < fs.size → p (fs'.get id) = p (fs.get id)) {fuel fuel' : Nat}
    {id : FrameId} (hid : id.index < fs.size) (hfuel : id.index < fuel)
    (hfuel' : id.index < fuel') : fs'.findWithin p fuel' id = fs.findWithin p fuel id := by
  induction fuel generalizing id fuel' with
  | zero => exact absurd hfuel (Nat.not_lt_zero _)
  | succ fuel ih =>
    obtain _ | fuel' := fuel'
    · exact absurd hfuel' (Nat.not_lt_zero _)
    rw [findWithin, findWithin]
    simp only [hp id hid, hparent id hid]
    split
    · rfl
    · split
      · next outer houter =>
        have hlt := hn.outward id outer houter
        exact ih (by omega) (by omega) (by omega)
      · rfl

theorem Nested.findWithin_fuel (hn : fs.Nested) {p : Frame → Bool} {fuel fuel' : Nat}
    {id : FrameId} (hid : id.index < fs.size) (hfuel : id.index < fuel)
    (hfuel' : id.index < fuel') : fs.findWithin p fuel' id = fs.findWithin p fuel id :=
  hn.findWithin_eq (fun _ _ => rfl) (fun _ _ => rfl) hid hfuel hfuel'

/-- A frame that does not satisfy the condition leads to the one that it stands in. -/
theorem Nested.find?_outward (hn : fs.Nested) {p : Frame → Bool} {id outer : FrameId}
    (hid : id.index < fs.size) (hnot : p (fs.get id) = false)
    (hparent : (fs.get id).parent = some outer) : fs.find? id p = fs.find? outer p := by
  have hlt := hn.outward id outer hparent
  unfold find?
  rw [hn.findWithin_fuel hid (Nat.lt_succ_self _) hid, findWithin]
  simp only [hnot, hparent]
  exact hn.findWithin_fuel (hlt.trans hid) (hlt.trans hid) hlt

/-- A frame that satisfies the condition is found from itself. -/
theorem find?_self {p : Frame → Bool} {id : FrameId} (hid : id.index < fs.size)
    (hp : p (fs.get id) = true) : fs.find? id p = some id := by
  unfold find?
  obtain ⟨n, hn⟩ : ∃ n, fs.size = n + 1 := ⟨fs.size - 1, by omega⟩
  rw [hn, findWithin, if_pos hp]

/-- What is found is a frame that is not younger, and that satisfies the condition. -/
theorem Nested.of_find? (hn : fs.Nested) {p : Frame → Bool} {id id' : FrameId}
    (h : fs.find? id p = some id') : id'.index ≤ id.index ∧ p (fs.get id') = true := by
  unfold find? at h
  generalize fs.size = fuel at h
  induction fuel generalizing id with
  | zero => cases h
  | succ fuel ih =>
    rw [findWithin] at h
    split at h
    · next hp =>
      cases h
      exact ⟨Nat.le_refl _, hp⟩
    · split at h
      · next outer houter =>
        have hlt := hn.outward id outer houter
        obtain ⟨hle, hp⟩ := ih h
        exact ⟨by omega, hp⟩
      · cases h

/-- There is a frame that takes variables. -/
theorem Nested.exists_variableScope (hn : fs.Nested) {id : FrameId} (hid : id.index < fs.size) :
    fs.find? id (fun f => f.kind ≠ .block) = some (fs.variableScope id) := by
  have hsome : (fs.find? id fun f => f.kind ≠ .block).isSome = true := by
    unfold find?
    have hfuel : id.index < fs.size := hid
    generalize fs.size = fuel at hfuel
    induction fuel generalizing id with
    | zero => exact absurd hfuel (Nat.not_lt_zero _)
    | succ fuel ih =>
      rw [findWithin]
      split
      · rfl
      · next hblock =>
        split
        · next outer houter =>
          have hlt := hn.outward id outer houter
          exact ih (by omega) (by omega)
        · next hnone => exact absurd (by simpa using hblock) (hn.rooted id hid hnone)
  obtain ⟨found, hfound⟩ := Option.isSome_iff_exists.mp hsome
  rw [variableScope, hfound, Option.getD_some]

theorem Nested.variableScope_le (hn : fs.Nested) {id : FrameId} (hid : id.index < fs.size) :
    (fs.variableScope id).index ≤ id.index :=
  (hn.of_find? (hn.exists_variableScope hid)).1

/-- Variables go where they went before. -/
theorem Extends.variableScope (h : Extends free fs fs') (hn : fs.Nested) {id : FrameId}
    (hid : id.index < fs.size) : fs'.variableScope id = fs.variableScope id := by
  have heq : fs'.find? id (fun f => f.kind ≠ .block) = fs.find? id (fun f => f.kind ≠ .block) :=
    hn.findWithin_eq (fun _ ha => (h.stays ha).parent) (fun a ha => by rw [(h.stays ha).kind]) hid hid
      (hid.trans_le h.size_le)
  rw [Frames.variableScope, heq, Frames.variableScope]

/-- The variables of a block go where those around it go. -/
theorem variableScope_block (hn : fs.Nested) {id outer : FrameId} (hid : id.index < fs.size)
    (hparent : (fs.get id).parent = some outer) (hkind : (fs.get id).kind = .block) :
    fs.variableScope id = fs.variableScope outer := by
  have hlt := hn.outward id outer hparent
  have heq := hn.find?_outward (p := fun f => f.kind ≠ .block) hid (by simp [hkind]) hparent
  have houter := hn.exists_variableScope (hlt.trans hid)
  rw [variableScope, heq, houter, Option.getD_some]

/-- The variables of a frame that is no block are its own. -/
theorem variableScope_root {id : FrameId} (hid : id.index < fs.size)
    (hkind : (fs.get id).kind ≠ .block) : fs.variableScope id = id := by
  rw [variableScope, find?_self hid (by simpa using hkind), Option.getD_some]

end Frames

/-! ## Receivers -/

/-- The frame has no receiver of its own: it is that of a block or of an arrow function. -/
structure Frame.IsOpen (f : Frame) : Prop where
  this : f.this = none
  superCall : f.superCall = none
  home : f.home = none

/-- The frame is that of an invocation of the constructor of a class.  What a call of the parent
constructor needs is there if the class has a parent. -/
structure Frame.Runs (f : Frame) (definition : ClassDefinition) (newTarget : ObjectId) : Prop where
  parent : f.parent = some definition.scope
  kind : f.kind = .function
  home : f.home = some definition.prototype
  this : f.this.isSome = true
  superCall : f.superCall = if definition.parent.isSome then some ⟨definition, newTarget⟩ else none

/-- What a frame has to do with receivers stays; a frame with a home may get a receiver. -/
structure Frame.Upholds (f f' : Frame) : Prop extends Frame.Stays f f' where
  superCall : f'.superCall = f.superCall
  unbound : f.IsOpen → f'.this = none
  bound : f.this.isSome = true → f'.this.isSome = true

/-- A function of the program calls the parent constructor with these arguments, itself or in arrow
functions, whatever surrounds it. -/
def FunctionNode.CallsSuper (f : FunctionNode) (args : List Expression) : Prop :=
  ∀ c : Surroundings, ∃ s ∈ c.arrow f, s.CallsSuper args

namespace Frame

variable {f f' : Frame}

theorem Persists.upholds (h : f.Persists f') : f.Upholds f' where
  toStays := h.toStays
  superCall := h.superCall
  unbound hopen := (h.this_eq hopen.superCall).trans hopen.this
  bound hthis := by
    rcases h.this with heq | ⟨-, v, heq⟩
    · rwa [heq]
    · rw [heq, Option.isSome_some]

theorem Upholds.refl (f : Frame) : f.Upholds f := (Persists.refl f).upholds

/-- Both frames may get a receiver. -/
theorem Upholds.withReceiver {this : ThisBinding} (h : f.Upholds f') :
    ({ f with this := some this } : Frame).Upholds { f' with this := some this } where
  parent := h.parent
  kind := h.kind
  home := h.home
  kept := h.kept
  superCall := h.superCall
  unbound hopen := nomatch hopen.this
  bound _ := rfl

/-- A frame that is changed, and all others. -/
theorem Upholds.modify (fs : Frames) {id : FrameId} {change : Frame → Frame}
    (h : (fs.get id).Upholds (change (fs.get id))) {id' : FrameId} :
    (fs.get id').Upholds ((fs.modify id change).get id') := by
  rcases fs.get_modify_cases id change id' with heq | ⟨rfl, heq⟩ <;> rw [heq]
  · exact .refl _
  · exact h

theorem IsOpen.upheld (hopen : f.IsOpen) (h : f.Upholds f') : f'.IsOpen where
  this := h.unbound hopen
  superCall := h.superCall.trans hopen.superCall
  home := h.home.trans hopen.home

theorem Runs.upheld {definition : ClassDefinition} {newTarget : ObjectId}
    (hruns : f.Runs definition newTarget) (h : f.Upholds f') : f'.Runs definition newTarget where
  parent := h.parent.trans hruns.parent
  kind := h.kind.trans hruns.kind
  home := h.home.trans hruns.home
  this := h.bound hruns.this
  superCall := h.superCall.trans hruns.superCall

end Frame

namespace Frames

variable {fs fs' : Frames}

/-- The first frame sees the receiver of the second one: it is that frame, or it stands in it, and no
frame between them has a receiver of its own. -/
inductive Sees (fs : Frames) : FrameId → FrameId → Prop where
  | self (id : FrameId) : Sees fs id id
  | outward {id outer frame : FrameId} (hopen : (fs.get id).IsOpen)
    (hparent : (fs.get id).parent = some outer) (hsees : Sees fs outer frame) : Sees fs id frame

/-- What runs in `scope` is code of the constructor of a class: it sees the receiver of an invocation
of it, and this constructor calls the parent constructor with these arguments. -/
structure CallsIn (fs : Frames) (scope : FrameId) (args : List Expression) (frame : FrameId)
    (definition : ClassDefinition) (newTarget : ObjectId) : Prop where
  sees : fs.Sees scope frame
  lt : frame.index < fs.size
  runs : (fs.get frame).Runs definition newTarget
  code : ∃ node, definition.constructor? = some node ∧ node.CallsSuper args

/-- What runs in the frame is code of some constructor, which calls the parent constructor with these
arguments. -/
def CallsFrom (fs : Frames) (scope : FrameId) (args : List Expression) : Prop :=
  ∃ frame definition newTarget, fs.CallsIn scope args frame definition newTarget

/-- A frame with a parent is one that was made. -/
theorem lt_size_of_parent {id outer : FrameId} (h : (fs.get id).parent = some outer) :
    id.index < fs.size := by
  by_contra hid
  rw [fs.get_of_size_le (Nat.le_of_not_lt hid)] at h
  cases h

/-- What is called from the frame around may be called from a frame with no receiver of its own. -/
theorem CallsFrom.inward {id outer : FrameId} {args : List Expression} (h : fs.CallsFrom outer args)
    (hopen : (fs.get id).IsOpen) (hparent : (fs.get id).parent = some outer) :
    fs.CallsFrom id args := by
  obtain ⟨frame, definition, newTarget, hcalls⟩ := h
  exact ⟨frame, definition, newTarget, { hcalls with sees := .outward hopen hparent hcalls.sees }⟩

/-- From a frame that sees the receiver of another one, the same constructor of a derived class is found
as from there. -/
theorem Sees.find?_eq {id frame : FrameId} (h : fs.Sees id frame) (hn : fs.Nested) :
    fs.find? id (·.superCall.isSome) = fs.find? frame (·.superCall.isSome) := by
  induction h with
  | self id => rfl
  | outward hopen hparent _ ih =>
    refine (hn.find?_outward (lt_size_of_parent hparent) ?_ hparent).trans ih
    rw [hopen.superCall, Option.isSome_none]

section Upheld

variable (h : ∀ {id}, id.index < fs.size → (fs.get id).Upholds (fs'.get id))
include h

theorem Sees.upheld {id frame : FrameId} (hsees : fs.Sees id frame) : fs'.Sees id frame := by
  induction hsees with
  | self id => exact .self id
  | outward hopen hparent _ ih =>
    have hupholds := h (lt_size_of_parent hparent)
    exact .outward (hopen.upheld hupholds) (hupholds.parent.trans hparent) ih

theorem CallsFrom.upheld (hsize : fs.size ≤ fs'.size) {scope : FrameId} {args : List Expression}
    (hcalls : fs.CallsFrom scope args) : fs'.CallsFrom scope args := by
  obtain ⟨frame, definition, newTarget, hcalls⟩ := hcalls
  exact ⟨frame, definition, newTarget, hcalls.sees.upheld h, hcalls.lt.trans_le hsize,
    hcalls.runs.upheld (h hcalls.lt), hcalls.code⟩

end Upheld

end Frames

end EcmaEval
