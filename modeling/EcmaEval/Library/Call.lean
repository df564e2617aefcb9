import EcmaEval.Library.Array
import EcmaEval.Library.Function
import EcmaEval.Library.Number
import EcmaEval.Library.Object
import EcmaEval.Library.Promise
import EcmaEval.Library.String

/-!
# Calls of the library

One place sends a call to the function of the library that it is for.
-/

namespace EcmaEval.Engine

open EcmaEval.Action

variable (engine : Engine)

/-- The line that values are written as. -/
def logLine (h : Heap) (args : List Value) : String := " ".intercalate (args.map h.show)

/-- Calls a function of the library. -/
def callBuiltin (f : Builtin) (this : Value) (args : List Value) : Action Value := do
  match f with
  | .object f => engine.callObject f this args
  | .function f => engine.callFunctionMethod f this args
  | .error kind => engine.callError kind this args
  | .errorToString => engine.errorSource this
  | .array f => engine.callArray f this args
  | .string f => engine.callString f this args
  | .number f => engine.callNumber f this args
  | .boolean f => callBoolean f this args
  | .bigint f => engine.callInteger f this args
  | .math f => engine.callMath f args
  | .promise f => engine.callPromise f this args
  | .global f => engine.callGlobal f args
  | .log =>
    writeLine (← readHeap (logLine · args))
    return .undefined
  | .logError =>
    writeDiagnostic (← readHeap (logLine · args))
    return .undefined

/-- What the machine does for a function of the host. -/
def answerHost : HostRequest → Action Value
  | .call callee this args => engine.callValue callee this args
  | .get target key => engine.get target key
  | .set target key value => do
    engine.set target key value
    return .undefined
  | .toNumber v => return .number (← engine.toNumber v)

/-- Runs the steps of a function of the host. -/
def runHost : HostSteps → Action Value
  | .give v => return v
  | .throw v => throwValue v
  | .fail feature => breakDown (.unsupported feature)
  | .ask request next => do
    let answer ← attempt (engine.answerHost request)
    runHost (next answer)

/-- Calls a function of the host. -/
def callHost (f : HostFunction) (this : Value) (args : List Value) : Action Value :=
  engine.runHost (f.steps this args)

end EcmaEval.Engine
