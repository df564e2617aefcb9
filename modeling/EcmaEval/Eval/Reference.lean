import EcmaEval.Engine.Convert

/-!
# Names, receivers and references

What the names, `this` and `super` of an expression stand for, and the places that an assignment
writes to.

## Main definitions

* `Reference`: a place that an assignment writes to
* `Engine.resolve`: the reference of an expression
* `Engine.nameValue`, `Engine.thisValue`: what a name and `this` stand for
* `Engine.getSuper`, `Engine.setSuper`: the properties of `super`
-/

namespace EcmaEval

/-- A place that can be read and assigned. -/
inductive Reference where
  | binding (name : String)
  | property (base : Value) (key : String)
  /-- A property that is looked up behind the object that the function is a method of. -/
  | superProperty (key : String)

/-- The name that an assignment gives to a function or class without one. -/
def Reference.nameHint : Reference → String
  | binding name => name
  | _ => ""

namespace Engine

open EcmaEval.Action

variable (engine : Engine)

/-- The value of a name. -/
def nameValue (scope : FrameId) (name : String) : Action Value := do
  orElseThrow (← readFrames (·.lookup? scope name)) (throwFault (.notDefined name))

/-- Assigns a name. -/
def assignName (scope : FrameId) (name : String) (value : Value) : Action Unit := do
  match ← readFrames (·.assignmentTarget scope name) with
  | .ok owner => modifyFrame owner (·.declareVariable name value)
  | .error .constant => throwFault .constantAssigned
  | .error .undeclared => throwFault (.notDeclared name)

/-- What the frames from `scope` outwards hold innermost. -/
def innermost {α : Type} (scope : FrameId) (held : Frame → Option α) : Action (Option α) :=
  readFrames fun fs => (fs.find? scope fun f => (held f).isSome).bind fun id => held (fs.get id)

/-- The receiver of the function that runs. -/
def thisValue (scope : FrameId) : Action Value := do
  match ← innermost scope Frame.this with
  | some (.bound v) => return v
  | some .uninitialized => throwFault .thisBeforeSuper
  | none => return .undefined

/-- The object behind the one that the running function is a method of. -/
def superBase (scope : FrameId) : Action (Option ObjectId) := do
  match ← innermost scope Frame.home with
  | some home => readHeap fun h => (h.get home).prototype
  | none => throwFault .superProperty

/-- The value of a property that is looked up behind the home object, read for the receiver. -/
def getSuper (scope : FrameId) (key : String) : Action Value := do
  let base ← superBase scope
  let this ← thisValue scope
  match base with
  | some prototype => engine.getProperty prototype key this
  | none => return .undefined

/-- Writes a property that is looked up behind the home object, for the receiver. -/
def setSuper (scope : FrameId) (key : String) (value : Value) : Action Unit := do
  let base ← superBase scope
  let this ← thisValue scope
  match base with
  | some prototype => engine.setProperty prototype key value this
  | none => engine.set this key value

/-- The key of a member access. -/
def memberKey (scope : FrameId) (key : MemberKey) : Action String := do
  match key with
  | .name name => return name
  | .computed e => engine.toKey (← engine.evaluate scope e)

/-- The key of a property that is written down. -/
def propertyKey (scope : FrameId) (key : PropertyKey) : Action String := do
  match key with
  | .identifier name => return name
  | .string s => return s
  | .number x => return Value.keyOfNumber x
  | .computed e => engine.toKey (← engine.evaluate scope e)

/-- The place that an expression stands for as the target of an assignment. -/
def resolve (scope : FrameId) (target : Expression) : Action Reference := do
  match target with
  | .identifier name => return .binding name
  | .member .super key => return .superProperty (← engine.memberKey scope key)
  | .member object key =>
    let base ← engine.evaluate scope object
    return .property base (← engine.memberKey scope key)
  | .array _ => breakDown (.unsupported "ArrayPattern")
  | .object _ => breakDown (.unsupported "ObjectPattern")
  | e => breakDown (.malformed "assignment target" e.kindName)

/-- Reads a place. -/
def readReference (scope : FrameId) (r : Reference) : Action Value :=
  match r with
  | .binding name => nameValue scope name
  | .property base key => engine.get base key
  | .superProperty key => engine.getSuper scope key

/-- Assigns a place. -/
def writeReference (scope : FrameId) (r : Reference) (value : Value) : Action Unit :=
  match r with
  | .binding name => assignName scope name value
  | .property base key => engine.set base key value
  | .superProperty key => engine.setSuper scope key value

end Engine

end EcmaEval
