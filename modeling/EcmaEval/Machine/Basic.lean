import EcmaEval.Grammar.Parse
import EcmaEval.Machine.Fault
import EcmaEval.Store.Frame
import EcmaEval.Store.Heap

/-!
# Machines

A machine is all that a running program can change: its objects, its frames and what it has
written.  An action runs on a machine, and leaves one behind also when it ends without a value.

## Main definitions

* `Signal`: what a statement asks of the statements around it
* `Machine`: all that a running program can change
* `Abrupt`: why an action ends without a value
* `Action`: what runs on a machine
* `Action.attempt`: an action with what it threw as a value
* `Action.underTarget`, `Action.whileJoining`: an action under a target of `new`, or inside a join
-/

namespace EcmaEval

/-- The frames and prototypes that the constructs of the language refer to. -/
structure Realm where
  /-- The frame of the library. -/
  globalFrame : FrameId
  /-- The frame of programs, inside the global one. -/
  programFrame : FrameId
  objectPrototype : ObjectId
  functionPrototype : ObjectId
  arrayPrototype : ObjectId
  stringPrototype : ObjectId
  numberPrototype : ObjectId
  booleanPrototype : ObjectId
  bigintPrototype : ObjectId
  promisePrototype : ObjectId
  errorPrototype : ObjectId
  typeErrorPrototype : ObjectId
  referenceErrorPrototype : ObjectId
  rangeErrorPrototype : ObjectId
  syntaxErrorPrototype : ObjectId
  deriving Inhabited

namespace Realm

/-- The prototype of the errors of a kind. -/
def prototypeOf (r : Realm) : ErrorKind → ObjectId
  | .error => r.errorPrototype
  | .type => r.typeErrorPrototype
  | .reference => r.referenceErrorPrototype
  | .range => r.rangeErrorPrototype
  | .syntactic => r.syntaxErrorPrototype

/-- The object whose properties a primitive value has. -/
def primitivePrototype? (r : Realm) : Value → Option ObjectId
  | .string _ => some r.stringPrototype
  | .number _ => some r.numberPrototype
  | .boolean _ => some r.booleanPrototype
  | .bigint _ => some r.bigintPrototype
  | _ => none

end Realm

/-- How a test ended. -/
inductive TestOutcome where
  | passed
  /-- The numbers of the assertions that failed. -/
  | failed (assertions : List Nat)
  | noAssertions
  | threw (shown : String)
  deriving DecidableEq, Repr

/-- A test that has ended. -/
structure TestResult where
  /-- The groups around the test, outermost first. -/
  groups : List String
  name : String
  outcome : TestOutcome
  deriving DecidableEq, Repr

/-- The assertions of a test that is running. -/
structure RunningTest where
  /-- The number of assertions so far. -/
  assertions : Nat := 0
  /-- The numbers of those that failed. -/
  failures : List Nat := []
  deriving Inhabited

/-- The tests of a run. -/
structure TestLog where
  /-- The groups around the test to come, outermost first. -/
  groups : List String := []
  current : Option RunningTest := none
  results : List TestResult := []
  deriving Inhabited

/-- What a statement asks of the statements around it, or an `await` of what runs it.  The nearest
one that it is meant for takes it out of the machine. -/
inductive Signal where
  | return (value : Value)
  | break (label : Option String)
  | continue (label : Option String)
  | suspend (value : Value)

/-- All that a running program can change. -/
structure Machine where
  heap : Heap
  frames : Frames
  realm : Realm
  options : ParseOptions
  /-- What is asked for and not yet answered. -/
  signal : Option Signal
  /-- The target of `new`, while a function that is not written in the program constructs. -/
  newTarget : Option ObjectId
  /-- The arrays that are being joined, innermost first. -/
  joining : List ObjectId
  tests : TestLog
  /-- The text written for the user. -/
  output : String
  /-- The text written as diagnostics. -/
  diagnostics : String

/-- A failure that no program can handle. -/
inductive Breakdown where
  /-- The program has a node that cannot be evaluated. -/
  | unsupported (kind : String)
  /-- The program has a node of a shape that no text has. -/
  | malformed (expected found : String)
  /-- A part of an array was to be replaced that ends at `stop`, behind all of its `size` elements.  The
  host does not go on after it. -/
  | outOfBounds (stop size : Nat)
  deriving DecidableEq, Repr

/-- The text of a breakdown. -/
def Breakdown.message : Breakdown → String
  | .unsupported kind => "unsupported node kind: " ++ kind
  | .malformed expected found => "malformed node: expected " ++ expected ++ ", got " ++ found
  | .outOfBounds stop size =>
    "range end index " ++ toString stop ++ " out of range for slice of length " ++ toString size

/-- Why an action ended without a value. -/
inductive Abrupt where
  /-- The program threw a value. -/
  | thrown (value : Value)
  | broken (cause : Breakdown)
  /-- The steps granted to the run are used up. -/
  | exhausted

/-- What runs on a machine. -/
abbrev Action := EStateM Abrupt Machine

namespace Action

variable {α : Type}

/-- Throws a value. -/
def throwValue (v : Value) : Action α := fun m => .error (.thrown v) m

/-- Fails for good. -/
def breakDown (cause : Breakdown) : Action α := fun m => .error (.broken cause) m

/-- Ends because no steps are left. -/
def exhausted : Action α := fun m => .error .exhausted m

/-- Runs an action and gives its value, or what it threw.  Nothing else is caught. -/
def attempt (a : Action α) : Action (Except Value α) := fun m =>
  match a m with
  | .ok x m => .ok (.ok x) m
  | .error (.thrown v) m => .ok (.error v) m
  | .error e m => .error e m

/-- Looks at the heap. -/
def readHeap (f : Heap → α) : Action α := fun m => .ok (f m.heap) m

/-- Looks at the frames. -/
def readFrames (f : Frames → α) : Action α := fun m => .ok (f m.frames) m

/-- Looks at the realm. -/
def readRealm (f : Realm → α) : Action α := fun m => .ok (f m.realm) m

/-- Changes an object. -/
def modifyObject (id : ObjectId) (change : Object → Object) : Action Unit := fun m =>
  .ok () { m with heap := m.heap.modify id change }

/-- Creates an object. -/
def allocate (o : Object) : Action ObjectId := fun m =>
  let (id, heap) := m.heap.allocate o
  .ok id { m with heap }

/-- Changes a frame. -/
def modifyFrame (id : FrameId) (change : Frame → Frame) : Action Unit := fun m =>
  .ok () { m with frames := m.frames.modify id change }

/-- Makes a frame. -/
def addFrame (f : Frame) : Action FrameId := fun m =>
  let (id, frames) := m.frames.add f
  .ok id { m with frames }

/-- Makes a frame for a block. -/
def addBlock (outer : FrameId) : Action FrameId :=
  addFrame { parent := some outer, kind := .block }

/-- Changes the record of the tests. -/
def modifyTests (change : TestLog → TestLog) : Action Unit := fun m =>
  .ok () { m with tests := change m.tests }

/-- Looks at the record of the tests. -/
def readTests (f : TestLog → α) : Action α := fun m => .ok (f m.tests) m

/-- Writes a line for the user. -/
def writeLine (line : String) : Action Unit := fun m =>
  .ok () { m with output := m.output ++ line ++ "\n" }

/-- Writes a line of diagnostics. -/
def writeDiagnostic (line : String) : Action Unit := fun m =>
  .ok () { m with diagnostics := m.diagnostics ++ line ++ "\n" }

/-- Asks for an exit or a suspension. -/
def raise (s : Signal) : Action Unit := fun m => .ok () { m with signal := some s }

/-- Something is asked for. -/
def isSignaled : Action Bool := fun m => .ok m.signal.isSome m

/-- Takes out what is asked for. -/
def takeSignal : Action (Option Signal) := fun m => .ok m.signal { m with signal := none }

/-- Puts back what was asked for, unless something else is asked for now. -/
def reinstate (pending : Option Signal) : Action Unit := fun m =>
  .ok () { m with signal := m.signal.or pending }

/-- Takes out what is asked for if it is aimed here. -/
def absorb (aimed : Signal → Bool) : Action Unit := fun m =>
  .ok () { m with signal := m.signal.filter fun s => !aimed s }

/-- The target of `new`. -/
def readTarget : Action (Option ObjectId) := fun m => .ok m.newTarget m

/-- Runs an action under a target of `new`, or under none. -/
def underTarget (target : Option ObjectId) (a : Action α) : Action α := fun m =>
  let before := m.newTarget
  -- The target is put back also when the action ends without a value.
  match a { m with newTarget := target } with
  | .ok x m => .ok x { m with newTarget := before }
  | .error e m => .error e { m with newTarget := before }

/-- Runs an action while an array is being joined: the array is put in front of the list before, and
the front is taken off the list that the action leaves. -/
def whileJoining (id : ObjectId) (a : Action α) : Action α := fun m =>
  -- The front is taken off also when the action ends without a value.
  match a { m with joining := id :: m.joining } with
  | .ok x m => .ok x { m with joining := m.joining.tail }
  | .error e m => .error e { m with joining := m.joining.tail }

/-- An array is being joined. -/
def isJoining (id : ObjectId) : Action Bool := fun m => .ok (m.joining.contains id) m

/-- Gives the value of an option, or throws. -/
def orElseThrow (found : Option α) (otherwise : Action α) : Action α :=
  match found with
  | some x => pure x
  | none => otherwise

end Action

end EcmaEval
