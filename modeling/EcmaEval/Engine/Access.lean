import EcmaEval.Engine.Basic
import EcmaEval.Inspect

/-!
# Calls and properties

Calling a value, and reading and writing properties with the functions that stand for some of them.
-/

namespace EcmaEval

namespace Engine

open EcmaEval.Action

variable (engine : Engine)

/-- Calls a value, which has to be a function. -/
def callValue (callee this : Value) (args : List Value) : Action Value := do
  match callee, ← readHeap (·.isCallable callee) with
  | .object id, true => engine.call id this args
  | _, _ => throwFault (.notFunction (← readHeap (·.inspect callee)))

/-- The value of a property, read for a receiver. -/
def readProperty (property : Option Property) (receiver : Value) : Action Value :=
  match property with
  | some (.data value _ _) => return value
  | some (.accessor (some getter) _ _) => engine.callValue getter receiver []
  | _ => return .undefined

/-- The value under a key of an object or of its prototypes, read for a receiver. -/
def getProperty (id : ObjectId) (key : String) (receiver : Value) : Action Value := do
  engine.readProperty (← readHeap (·.find? id key)) receiver

/-- The value under a key of an object. -/
def getOf (id : ObjectId) (key : String) : Action Value :=
  engine.getProperty id key (.object id)

/-- The value under a key of a string: its length, one of its units, or what its prototype has. -/
def getOfString (s : UnitString) (key : String) : Action Value := do
  if key = "length" then return .ofNat s.size
  match arrayIndex? key with
  | some i => return if i < s.size then .string (s.unitAt i) else .undefined
  | none => engine.getProperty (← readRealm (·.stringPrototype)) key (.string s)

/-- The value under a key of a value. -/
def get (target : Value) (key : String) : Action Value := do
  match target with
  | .undefined | .null => throwFault (.readOfNullish key target.primitiveText)
  | .object id => engine.getOf id key
  | .string s => engine.getOfString s key
  | _ =>
    match ← readRealm (·.primitivePrototype? target) with
    | some prototype => engine.getProperty prototype key target
    | none => return .undefined

end Engine

end EcmaEval
