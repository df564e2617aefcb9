import EcmaEval.Suite.Check

/-!
# Tests and groups

A program declares tests and groups of them, and inside a test it states expectations.  The
assertions of a test are numbered from one; a test fails when one of them fails, when it has none,
or when it throws.

## Main definitions

* `Engine.callSuite`: the functions of a suite
* `Engine.runTest`, `Engine.runGroup`: a test and a group of tests
* `Action.newExpectation`: the object whose methods check a value
-/

namespace EcmaEval

/-- How a test ended that did not throw. -/
def RunningTest.outcome (t : RunningTest) : TestOutcome :=
  if t.assertions = 0 then .noAssertions
  else if t.failures.isEmpty then .passed
  else .failed t.failures

namespace Action

/-- Records how a test of the groups at hand ended. -/
def record (name : String) (outcome : TestOutcome) : Action Unit :=
  modifyTests fun log => { log with results := log.results ++ [⟨log.groups, name, outcome⟩] }

/-- Runs an action, and changes the record of the tests behind it.  The record is changed also when the
action ends without a value. -/
def leavingTests {α : Type} (leave : TestLog → TestLog) (a : Action α) : Action α := fun m =>
  match a m with
  | .ok x m => .ok x { m with tests := leave m.tests }
  | .error e m => .error e { m with tests := leave m.tests }

/-- Runs an action inside a group. -/
def insideGroup {α : Type} (name : String) (a : Action α) : Action α := do
  modifyTests fun log => { log with groups := log.groups ++ [name] }
  leavingTests (fun log => { log with groups := log.groups.dropLast }) a

/-- Runs an action as a test, and gives its record too. -/
def asTest {α : Type} (a : Action α) : Action (α × RunningTest) := do
  -- A test inside a test counts on its own, and the outer one goes on behind it.
  let previous ← readTests (·.current)
  modifyTests ({ · with current := some {} })
  leavingTests ({ · with current := previous }) do
    let x ← a
    let running ← readTests (·.current)
    return (x, running.getD {})

/-- Counts an assertion of the running test, and gives its number. -/
def countAssertion : Action Nat := do
  match ← readTests (·.current) with
  | none => throwFault .expectOutsideTest
  | some t =>
    let number := t.assertions + 1
    modifyTests ({ · with current := some { t with assertions := number } })
    return number

/-- Notes that an assertion of the running test failed. -/
def failAssertion (number : Nat) : Action Unit :=
  modifyTests fun log =>
    { log with current := log.current.map fun t => { t with failures := t.failures ++ [number] } }

/-- Gives an object the check functions of an assertion. -/
def installChecks (target : ObjectId) (matchers : List Matcher) (negated : Bool) (actual : Value)
    (number : Nat) : Action Unit :=
  matchers.forM fun m => do
    let f ← newNative (.suite (.check m negated actual number))
    modifyObject target (·.insertHidden m.signature.1 f)

/-- The object whose functions check a value. -/
def newExpectation (actual : Value) : Action Value := do
  let number ← countAssertion
  let positive ← newObject
  let negative ← newObject
  installChecks positive Matcher.all false actual number
  installChecks negative (Matcher.all.filter Matcher.isNegatable) true actual number
  modifyObject positive (·.setOwn "not" (.object negative))
  return .object positive

/-- Declares the functions of a suite in the frame of programs. -/
def installSuite : Action Unit := do
  let scope ← readRealm (·.programFrame)
  for f in [SuiteFunction.test, .describe, .expect] do
    let v ← newNative (.suite f)
    modifyFrame scope (·.declareVariable f.signature.1 v)

end Action

namespace Engine

open EcmaEval.Action

variable (engine : Engine)

/-- Runs a test. -/
def runTest (name body : Value) : Action Unit := do
  let name ← engine.toText name
  let (result, running) ← asTest (attempt (engine.callValue body .undefined []))
  match result with
  | .ok _ => record name running.outcome
  | .error thrown => record name (.threw (← readHeap (·.show thrown)))

/-- Runs a group.  A group that throws counts as a test of its name. -/
def runGroup (name body : Value) : Action Unit := do
  let name ← engine.toText name
  match ← insideGroup name (attempt (engine.callValue body .undefined [])) with
  | .ok _ => return
  | .error thrown => record name (.threw (← readHeap (·.show thrown)))

/-- Calls a function of a suite. -/
def callSuite (f : SuiteFunction) (args : List Value) : Action Value := do
  let first := Value.argument args 0
  match f with
  | .test =>
    engine.runTest first (.argument args 1)
    return .undefined
  | .describe =>
    engine.runGroup first (.argument args 1)
    return .undefined
  | .expect => newExpectation first
  | .check matcher negated actual number =>
    if (← engine.check matcher actual args) == negated then failAssertion number
    return .undefined

end Engine

end EcmaEval
