import EcmaEval.Engine.Convert

/-!
# Methods of functions and errors
-/

namespace EcmaEval.Engine

open EcmaEval.Action

variable (engine : Engine)

/-- The arguments that a value lists. -/
def argumentList (v : Value) : Action (List Value) := do
  match v with
  | .undefined | .null => return []
  | .object id => return (← engine.listElements id).toList
  | _ => throwFault .argumentListType

/-- The greatest length that a bound function announces. -/
def maxAnnounced : Nat := Nat.pow 2 64 - 1

/-- The number of arguments that a function announces, as its length says. -/
def announcedArguments (h : Heap) (id : ObjectId) : Nat :=
  match (h.get id).ownValue? "length" with
  | some (.number x) => Number.clampIndex x maxAnnounced
  | _ => 0

/-- A function with its receiver and first arguments bound. -/
def bindFunction (this receiver : Value) (args : List Value) : Action Value := do
  match this, ← readHeap (·.isCallable this) with
  | .object id, true =>
    let name ← readHeap (·.functionName this)
    let announced ← readHeap (announcedArguments · id)
    return .object (← newFunction (.bound id receiver args) ("bound " ++ name)
      (announced - args.length))
  | _, _ => throwFault .bindTarget

/-- The text of a function.  The text that it was written with is not kept. -/
def functionSource (this : Value) : Action String := do
  match this, ← readHeap (·.isCallable this) with
  | .object id, true =>
    let name ← readHeap (·.functionName this)
    if ← readHeap fun h => (h.get id).isClass then return "class " ++ name ++ " \x7b \x7d"
    return "function " ++ name ++ "() \x7b [native code] \x7d"
  | _, _ => throwFault .functionTextTarget

/-- Calls a method of functions. -/
def callFunctionMethod (f : FunctionMethod) (this : Value) (args : List Value) :
    Action Value := do
  let first := Value.argument args 0
  match f with
  | .call => engine.callValue this first (args.drop 1)
  | .apply => engine.callValue this first (← engine.argumentList (Value.argument args 1))
  | .bind => bindFunction this first (args.drop 1)
  | .toString => return .ofText (← functionSource this)

/-- The error object that a call of an error constructor fills in: the one that was allocated for
`new`, or one of its own. -/
def errorInstance (kind : ErrorKind) (this : Value) : Action ObjectId := do
  match ← readTarget, this with
  | some _, .object id =>
    modifyObject id ({ · with kind := .error })
    return id
  | _, _ => newError kind ""

/-- Calls the constructor of a kind of errors. -/
def callError (kind : ErrorKind) (this : Value) (args : List Value) : Action Value := do
  let id ← errorInstance kind this
  let message := Value.argument args 0
  unless message.isUndefined do
    let text ← engine.toUnits message
    modifyObject id (·.insertHidden "message" (.string text))
  if let .object options := Value.argument args 1 then
    if ← readHeap (·.has options "cause") then
      let cause ← engine.getOf options "cause"
      modifyObject id (·.insertHidden "cause" cause)
  return .object id

/-- The text of a property, or a default if it is missing. -/
def textOfProperty (v : Value) (key default : String) : Action String := do
  let value ← engine.get v key
  if value.isUndefined then return default
  engine.toText value

/-- The text of an error object. -/
def errorSource (this : Value) : Action Value := do
  unless this.isObject do throwFault .errorTextTarget
  let name ← engine.textOfProperty this "name" "Error"
  let message ← engine.textOfProperty this "message" ""
  return .ofText (Inspect.titled name message)

end EcmaEval.Engine
