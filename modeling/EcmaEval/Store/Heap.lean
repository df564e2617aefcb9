import EcmaEval.Object.Basic
import EcmaEval.Value.Primitive

/-!
# Heaps

A heap holds the objects that were created, each at its place.  Objects name each other by their
places, so they may form cycles; a chain of prototypes may not.

## Main definitions

* `Heap`: objects by their places
* `Heap.chain`: an object and the prototypes behind it
* `Heap.find?`: the property that an object has or inherits
* `Heap.loopKeys`: the keys that a loop over an object visits
-/

namespace EcmaEval

/-- The objects of a run, in the order in which they were created. -/
structure Heap where
  objects : Array Object
  deriving Inhabited

namespace Heap

/-- The number of objects. -/
def size (h : Heap) : Nat := h.objects.size

/-- The object at a place.  A place that was never given out stands for an empty object. -/
def get (h : Heap) (id : ObjectId) : Object := h.objects.getD id.index default

/-- The heap with another object, and its place. -/
def allocate (h : Heap) (o : Object) : ObjectId × Heap := (⟨h.size⟩, ⟨h.objects.push o⟩)

/-- The heap with an object changed. -/
def modify (h : Heap) (id : ObjectId) (change : Object → Object) : Heap :=
  ⟨h.objects.modify id.index change⟩

/-- An object and the prototypes behind it, at most `fuel` of them. -/
def chainWithin (h : Heap) : (fuel : Nat) → ObjectId → List ObjectId
  | 0, _ => []
  | fuel + 1, id =>
    id ::
      (match (h.get id).prototype with
      | some p => h.chainWithin fuel p
      | none => [])

/-- An object and the prototypes behind it.  A chain without cycles is not longer than the
heap. -/
def chain (h : Heap) (id : ObjectId) : List ObjectId := h.chainWithin h.size id

/-- The property of a key that an object has or inherits. -/
def findWithin (h : Heap) (key : String) : (fuel : Nat) → ObjectId → Option Property
  | 0, _ => none
  | fuel + 1, id =>
    let o := h.get id
    match o.getOwn? key with
    | some property => some property
    | none =>
      match o.prototype with
      | some p => h.findWithin key fuel p
      | none => none

/-- The property of a key that an object has or inherits, from the nearest object that has one. -/
def find? (h : Heap) (id : ObjectId) (key : String) : Option Property :=
  h.findWithin key h.size id

/-- The object has or inherits a property. -/
def has (h : Heap) (id : ObjectId) (key : String) : Bool := (h.find? id key).isSome

/-- The value is a function. -/
def isCallable (h : Heap) (v : Value) : Bool :=
  match v with
  | .object id => (h.get id).isCallable
  | _ => false

/-- The object constructs others, looking through at most `fuel` bound functions. -/
def constructsWithin (h : Heap) : (fuel : Nat) → ObjectId → Bool
  | 0, _ => false
  | fuel + 1, id =>
    match (h.get id).callable? with
    | some (.closure node _ home) => node.constructs home
    | some (.class _) => true
    | some (.native f) => f.isConstructor
    | some (.bound target _ _) => h.constructsWithin fuel target
    | none => false

/-- The object constructs others.  A bound function does what its target does. -/
def constructs (h : Heap) (id : ObjectId) : Bool := h.constructsWithin h.size id

/-- The value constructs objects. -/
def isConstructor (h : Heap) (v : Value) : Bool :=
  match v with
  | .object id => h.constructs id
  | _ => false

/-- The name of the class that an object was created as. -/
def className (h : Heap) (id : ObjectId) : String := (h.get id).objectClass.name

/-- The text of a value. -/
def textOf (h : Heap) (v : Value) : String := v.textWith h.className

/-- The name that a function itself holds. -/
def functionName (h : Heap) (v : Value) : String :=
  match v with
  | .object id => (h.get id).ownText "name"
  | _ => ""

/-- The keys of an object, each with whether it is listed. -/
def keysOf (h : Heap) (id : ObjectId) : List (String × Bool) :=
  let o := h.get id
  (o.ownKeys false).map fun key => (key, (o.getOwn? key).any Property.enumerable)

/-- The listed ones of some keys that come one after the other, without those that were seen.  A key
that is not listed is seen too, and hides the ones behind it. -/
def unseenKeys : List (String × Bool) → (seen : NameSet) → List String
  | [], _ => []
  | (key, listed) :: rest, seen =>
    if seen.contains key then unseenKeys rest seen
    else if listed then key :: unseenKeys rest (seen.insert key)
    else unseenKeys rest (seen.insert key)

/-- The keys that a loop over an object visits. -/
def loopKeys (h : Heap) (id : ObjectId) : List String :=
  unseenKeys ((h.chain id).flatMap h.keysOf) .empty

end Heap

end EcmaEval
