import EcmaEval.Object.Callable
import EcmaEval.Store.NameMap

/-!
# Frames

A frame binds names to values, and stands inside another frame.  It keeps the names that may be
assigned apart from the ones that may not: a declaration takes the name out of the other mapping
first.  A name is looked up from the inside to the outside.  A frame is always younger than the one
it stands in, so the way outside ends.

## Main definitions

* `Bindings`: two mappings that have no name in common
* `Frame`: the names of a block or a call
* `Frames.lookup?`: the value of a name
* `Frames.assign`: writes a name where it is bound
* `Frames.variableScope`: the frame that takes the variables of a frame

## Main results

* `Bindings.get?_insert`: a binding is what was declared last, and other names keep theirs
-/

namespace EcmaEval

/-- What a frame was made for. -/
inductive FrameKind where
  | global
  | function
  | block
  deriving DecidableEq, Repr

/-- The value of a name, and whether it may be assigned. -/
structure Binding where
  value : Value
  assignable : Bool

/-- The names of a frame with their values, in two mappings. -/
structure Bindings where
  /-- The names that may be assigned. -/
  mutables : NameMap Value
  /-- The names that may not be assigned. -/
  constants : NameMap Value
  /-- No name is in both mappings. -/
  apart : ∀ name, mutables.contains name = true → constants.contains name = false

namespace Bindings

/-- No names. -/
def empty : Bindings := ⟨∅, ∅, fun _ _ => rfl⟩

instance : EmptyCollection Bindings := ⟨empty⟩

/-- The binding of a name.  The constants are read first. -/
def get? (b : Bindings) (name : String) : Option Binding :=
  match b.constants.get? name with
  | some value => some ⟨value, false⟩
  | none => (b.mutables.get? name).map (⟨·, true⟩)

/-- The name is in one of the mappings. -/
def contains (b : Bindings) (name : String) : Bool :=
  b.constants.contains name || b.mutables.contains name

/-- The bindings with a name in the mapping of its kind, and taken out of the other one. -/
def insert (b : Bindings) (name : String) : Binding → Bindings
  | ⟨value, true⟩ =>
    ⟨b.mutables.insert name value, b.constants.erase name, fun other h => by
      rw [NameMap.contains, NameMap.get?_insert] at h
      rw [NameMap.contains, NameMap.get?_erase]
      split at h
      · rw [if_pos ‹_›]
        rfl
      · rw [if_neg ‹_›]
        exact b.apart other h⟩
  | ⟨value, false⟩ =>
    ⟨b.mutables.erase name, b.constants.insert name value, fun other h => by
      rw [NameMap.contains, NameMap.get?_erase] at h
      rw [NameMap.contains, NameMap.get?_insert]
      split at h
      · cases h
      · rw [if_neg ‹_›]
        exact b.apart other h⟩

/-- A name has the binding last written to it, and other names keep theirs. -/
theorem get?_insert (b : Bindings) (name other : String) (x : Binding) :
    (b.insert name x).get? other = if other = name then some x else b.get? other := by
  obtain ⟨value, assignable⟩ := x
  by_cases h : other = name <;> cases assignable <;>
    simp [get?, insert, NameMap.get?_insert, NameMap.get?_erase, h]

/-- A name is in one of the mappings when it has a binding. -/
theorem contains_eq (b : Bindings) (name : String) : b.contains name = (b.get? name).isSome := by
  rw [contains, get?, NameMap.contains, NameMap.contains]
  cases b.constants.get? name <;> simp

end Bindings

/-- The receiver that a frame binds. -/
inductive ThisBinding where
  | bound (value : Value)
  /-- The constructor of a derived class has none before it has called the one it derives from. -/
  | uninitialized

/-- What a call of the parent constructor needs. -/
structure SuperCall where
  definition : ClassDefinition
  newTarget : ObjectId

/-- A frame. -/
structure Frame where
  bindings : Bindings := ∅
  parent : Option FrameId
  kind : FrameKind
  this : Option ThisBinding := none
  superCall : Option SuperCall := none
  /-- The object that the function of the frame is a method of. -/
  home : Option ObjectId := none

instance : Inhabited Frame := ⟨{ parent := none, kind := .block }⟩

namespace Frame

/-- The frame with a name bound to a value that may be assigned. -/
def declareVariable (f : Frame) (name : String) (value : Value) : Frame :=
  { f with bindings := f.bindings.insert name ⟨value, true⟩ }

/-- The frame with a name bound to a value that may not be assigned. -/
def declareConstant (f : Frame) (name : String) (value : Value) : Frame :=
  { f with bindings := f.bindings.insert name ⟨value, false⟩ }

/-- The frame itself binds a name. -/
def binds (f : Frame) (name : String) : Bool := f.bindings.contains name

end Frame

/-- Why a name cannot be assigned. -/
inductive AssignFailure where
  | constant
  | undeclared
  deriving DecidableEq, Repr

/-- The frames of a run, in the order in which they were made. -/
structure Frames where
  frames : Array Frame
  deriving Inhabited

namespace Frames

/-- The number of frames. -/
def size (fs : Frames) : Nat := fs.frames.size

/-- The frame at a place.  A place that was never given out stands for an empty frame. -/
def get (fs : Frames) (id : FrameId) : Frame := fs.frames.getD id.index default

/-- The frames with another one, and its place. -/
def add (fs : Frames) (f : Frame) : FrameId × Frames := (⟨fs.size⟩, ⟨fs.frames.push f⟩)

/-- The frames with one changed. -/
def modify (fs : Frames) (id : FrameId) (change : Frame → Frame) : Frames :=
  ⟨fs.frames.modify id.index change⟩

/-- The innermost frame that satisfies a condition, from `id` outwards over at most `fuel`
frames. -/
def findWithin (fs : Frames) (p : Frame → Bool) : (fuel : Nat) → FrameId → Option FrameId
  | 0, _ => none
  | fuel + 1, id =>
    let f := fs.get id
    if p f then some id
    else
      match f.parent with
      | some outer => fs.findWithin p fuel outer
      | none => none

/-- The innermost frame that satisfies a condition, from `id` outwards. -/
def find? (fs : Frames) (id : FrameId) (p : Frame → Bool) : Option FrameId :=
  fs.findWithin p fs.size id

/-- The binding of a name that a frame sees, looking at no more than `fuel` frames. -/
def lookupWithin (fs : Frames) (name : String) : (fuel : Nat) → FrameId → Option Binding
  | 0, _ => none
  | fuel + 1, id =>
    let f := fs.get id
    match f.bindings.get? name with
    | some b => some b
    | none =>
      match f.parent with
      | some outer => fs.lookupWithin name fuel outer
      | none => none

/-- The value of a name that a frame sees. -/
def lookup? (fs : Frames) (id : FrameId) (name : String) : Option Value :=
  (fs.lookupWithin name fs.size id).map Binding.value

/-- The frame in which a name can be assigned, looking at no more than `fuel` frames. -/
def assignmentTargetWithin (fs : Frames) (name : String) :
    (fuel : Nat) → FrameId → Except AssignFailure FrameId
  | 0, _ => .error .undeclared
  | fuel + 1, id =>
    let f := fs.get id
    if f.bindings.constants.contains name then .error .constant
    else if f.bindings.mutables.contains name then .ok id
    else
      match f.parent with
      | some outer => fs.assignmentTargetWithin name fuel outer
      | none => .error .undeclared

/-- The frame in which a name can be assigned.  The innermost binding counts, also when it may not
be assigned. -/
def assignmentTarget (fs : Frames) (id : FrameId) (name : String) :
    Except AssignFailure FrameId :=
  fs.assignmentTargetWithin name fs.size id

/-- Assigns a name where it is bound. -/
def assign (fs : Frames) (id : FrameId) (name : String) (value : Value) :
    Except AssignFailure Frames :=
  (fs.assignmentTarget id name).map fun owner => fs.modify owner (·.declareVariable name value)

/-- The frame in which a `var` inside `id` declares its name: the innermost one that is no
block. -/
def variableScope (fs : Frames) (id : FrameId) : FrameId :=
  (fs.find? id fun f => f.kind ≠ .block).getD id

end Frames

end EcmaEval
