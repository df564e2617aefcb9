import EcmaEval.Library.Call
import EcmaEval.Suite.Declare

/-!
# Calls, constructions and the engines that run

What a call of a function object runs, and how a function object constructs another.  With that an
engine is complete: the engine of some fuel runs a phrase, and its parts with the engine of one step
less.  So fuel bounds how deep phrases nest in a run, and how many rounds a loop has; a run that stays
within these bounds does not depend on them.

## Main definitions

* `Engine.callFunction`, `Engine.constructFunction`: calling a function object, and constructing
  with it
* `Engine.ofFuel`: the engine of some fuel
* `Engine.standard`: the engine of every run
-/

namespace EcmaEval.Engine

open EcmaEval.Action

variable (engine : Engine)

/-- Calls a function that is not written in the program. -/
def callNative (f : Native) (this : Value) (args : List Value) : Action Value :=
  match f with
  | .builtin f => engine.callBuiltin f this args
  | .resolver promise fulfills => engine.callResolver promise fulfills (.argument args 0)
  | .afterwards callback fulfills => engine.callAfterwards callback fulfills (.argument args 0)
  | .host f => engine.callHost f this args
  | .suite f => engine.callSuite f args

/-- Calls a function object with a receiver and arguments. -/
def callFunction (id : ObjectId) (this : Value) (args : List Value) : Action Value := do
  match ← readHeap fun h => (h.get id).callable? with
  | some (.closure node scope home) => engine.callClosure node scope home this args
  | some (.class definition) => throwFault (.classCalled definition.name)
  | some (.native f) => underTarget none (engine.callNative f this args)
  | some (.bound target receiver first) => engine.call target receiver (first ++ args)
  | none => throwFault (.notFunction (← readHeap (·.inspect (.object id))))

/-- The object that a function constructs: what it returns, if that is an object, or else the
instance that it was called on. -/
def constructWith (newTarget : ObjectId) (f : Value → Action Value) : Action Value := do
  let this := Value.object (← engine.allocateInstance newTarget)
  let result ← f this
  return if result.isObject then result else this

/-- Lets a function object construct an object from arguments, for a given target of `new`. -/
def constructFunction (id : ObjectId) (args : List Value) (newTarget : ObjectId) :
    Action Value := do
  match ← readHeap fun h => (h.get id).callable? with
  | some (.closure node scope home) =>
    engine.constructWith newTarget fun this => engine.callClosure node scope home this args
  | some (.class definition) => engine.constructInstance definition args newTarget
  | some (.native f) =>
    engine.constructWith newTarget fun this =>
      underTarget (some newTarget) (engine.callNative f this args)
  | some (.bound target _ first) =>
    engine.construct target (first ++ args) (if newTarget = id then target else newTarget)
  | none => throwFault (.notConstructor (← readHeap (·.inspect (.object id))))

/-- The engine that can take `fuel` steps into the depth. -/
def ofFuel : (fuel : Nat) → Engine
  | 0 => idle
  | fuel + 1 => {
    fuel
    evaluateAs := fun name scope e => (ofFuel fuel).evaluateExpression name scope e
    execute := fun scope s => (ofFuel fuel).executeStatement scope s
    call := fun id this args => (ofFuel fuel).callFunction id this args
    construct := fun id args newTarget => (ofFuel fuel).constructFunction id args newTarget
    settle := fun id outcome => (ofFuel fuel).settlePromise id outcome }

/-- The fuel of a run: more than any machine could use up. -/
def standardFuel : Nat := Nat.pow 2 60

/-- The engine of a run. -/
def standard : Engine := ofFuel standardFuel

end EcmaEval.Engine
