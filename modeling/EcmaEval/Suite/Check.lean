import EcmaEval.Store.Heap
import EcmaEval.Eval.Statement
import EcmaEval.Parser.Statement
import EcmaEval.Library.Realm

/-!
# Structural equality and checks

Two values are structurally equal when they cannot be told apart by their elements, their listed
properties and their prototypes.  A pair of objects that is met again inside itself counts as equal.

What each check of a test asks of a value.

## Main definitions

* `ObjectShape`: what of an object counts for equality
* `Heap.structurallyEqual`: two values are structurally equal
* `Engine.check`: a value passes a check
* `Engine.evaluateApart`: what a text evaluates to in a realm of its own
-/

namespace EcmaEval

/-- What structural equality sees of an object. -/
inductive ObjectShape where
  | array (elements : List Value)
  | record (prototype : Option ObjectId) (entries : List (String × Value))
  /-- Equal to itself alone. -/
  | indivisible

/-- The shape of an object.  An accessor counts as an undefined value. -/
def Object.shape (o : Object) : ObjectShape :=
  match o.kind with
  | .array elements => .array elements.toList
  | .ordinary | .error =>
    .record o.prototype <|
      (o.ownKeys true).map fun key => (key, (o.ownValue? key).getD .undefined)
  | .function _ | .promise _ => .indivisible

/-- Lists are equal element by element. -/
def equalLists (equal : Value → Value → Bool) : List Value → List Value → Bool
  | [], [] => true
  | v :: vs, w :: ws => equal v w && equalLists equal vs ws
  | _, _ => false

/-- Every entry has an equal one of its key among the others. -/
def entriesWithin (equal : Value → Value → Bool) (entries others : List (String × Value)) : Bool :=
  entries.all fun (key, v) => (lookupEntry key others).any (equal v)

/-- Two shapes are equal, given the equality of the values in them. -/
def ObjectShape.equal (equal : Value → Value → Bool) : ObjectShape → ObjectShape → Bool
  | .array vs, .array ws => vs.length == ws.length && equalLists equal vs ws
  | .record p entries, .record q others =>
    p == q && entries.length == others.length && entriesWithin equal entries others
  | _, _ => false

namespace Heap

/-- Structural equality inside the pairs of `visiting`.  Every step adds a new pair, so it takes no
more steps than there are pairs of objects. -/
def structurallyEqualWithin (h : Heap) :
    (fuel : Nat) → (visiting : List (ObjectId × ObjectId)) → Value → Value → Bool
  | 0, _, _, _ => true
  -- A pair on the way is taken as equal, so that cycles end.
  | fuel + 1, visiting, .object x, .object y =>
    x == y || visiting.contains (x, y) ||
      ObjectShape.equal (h.structurallyEqualWithin fuel ((x, y) :: visiting))
        (h.get x).shape (h.get y).shape
  | _, _, v, w => v.sameValueZero w

/-- Structural equality. -/
def structurallyEqual (h : Heap) (v w : Value) : Bool :=
  h.structurallyEqualWithin (h.size * h.size + 1) [] v w

end Heap

end EcmaEval

/-! # Checks -/

namespace EcmaEval

/-- Runs an action and gives its value if it has one.  Only what the host does not go on after is
passed on. -/
def Action.value? {α : Type} (a : Action α) : Action (Option α) := fun m =>
  match a m with
  | .ok x m => .ok (some x) m
  | .error .exhausted m => .error .exhausted m
  | .error (.broken (.outOfBounds stop size)) m => .error (.broken (.outOfBounds stop size)) m
  | .error _ m => .ok none m

namespace Engine

open EcmaEval.Action

variable (engine : Engine)

/-- An order between two values holds. -/
def checkOrder (op : BinaryOperator) (v w : Value) : Action Bool := do
  match ← engine.binary op v w with
  | .boolean b => return b
  | _ => return false

/-- A value has a property. -/
def checkProperty (v key : Value) : Action Bool := do
  let key ← engine.toKey key
  match v with
  | .object id => readHeap (·.has id key)
  | .undefined | .null => return false
  | v => return !(← engine.get v key).isUndefined

/-- What a function throws when it is called.  Anything else throws nothing. -/
def thrownBy? (f : Value) : Action (Option Value) := do
  if ← readHeap (·.isCallable f) then
    match ← attempt (engine.callValue f .undefined []) with
    | .ok _ => return none
    | .error thrown => return some thrown
  else return none

/-- The prototype of a value is just that of the instances of a constructor. -/
def isDirectInstance (v constructor : Value) : Action Bool := do
  match ← engine.get constructor "prototype", v with
  | .object expected, .object id => readHeap fun h => (h.get id).prototype == some expected
  | _, _ => return false

/-- A function throws, an instance of a constructor if there is one. -/
def checkThrow (f constructor : Value) : Action Bool := do
  match ← engine.thrownBy? f with
  | none => return false
  | some thrown =>
    if constructor.isUndefined then return true
    engine.isDirectInstance thrown constructor

/-- The characters `part` stand in `cs` somewhere. -/
def occursIn (part : List Char) : (cs : List Char) → Bool
  | [] => part.isEmpty
  | c :: cs => part.isPrefixOf (c :: cs) || occursIn part cs

/-- A function throws an instance of a constructor, with a message that contains a text. -/
def checkThrowMessage (f constructor text : Value) : Action Bool := do
  match ← engine.thrownBy? f with
  | none => return false
  | some thrown =>
    if ← engine.isDirectInstance thrown constructor then
      let message ← engine.toText (← engine.get thrown "message")
      let expected ← engine.toText text
      return occursIn expected.toList message.toList
    else return false

/-- The value of a program in a realm of its own, if it has one. -/
def evaluateApart (source : Value) : Action (Option Value) := do
  match Program.ofText {} (← readHeap (·.textOf source)) with
  | .error _ => return none
  | .ok program =>
    value? <| inNewRealm do
      engine.executeProgram (← readRealm (·.programFrame)) program

/-- A check of a value holds. -/
def check (matcher : Matcher) (actual : Value) (args : List Value) : Action Bool := do
  let first := Value.argument args 0
  match matcher with
  | .toBe => engine.looseEqual actual first
  | .toEqual => readHeap fun h => h.structurallyEqual actual first
  | .toBeUndefined => return actual.isUndefined
  | .toBeTrue => return (actual matches .boolean true)
  | .toBeFalse => return (actual matches .boolean false)
  | .toBeNaN => return (← engine.toNumber actual).isNaN
  | .toHaveLength => engine.looseEqual (← engine.get actual "length") first
  | .toHaveProperty => engine.checkProperty actual first
  | .toBeInstanceOf => engine.instanceOf actual first
  | .toThrow => engine.checkThrow actual first
  | .toThrowWithMessage => engine.checkThrowMessage actual first (Value.argument args 1)
  | .toBeGreaterThan => engine.checkOrder .greater actual first
  | .toBeGreaterThanOrEqual => engine.checkOrder .greaterOrEqual actual first
  | .toBeLessThan => engine.checkOrder .less actual first
  | .toBeLessThanOrEqual => engine.checkOrder .lessOrEqual actual first
  | .toEval => return (← engine.evaluateApart actual).isSome
  | .toEvalTo =>
    match ← engine.evaluateApart actual with
    | some v => engine.looseEqual v first
    | none => return false

end Engine

end EcmaEval
