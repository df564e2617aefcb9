import EcmaEval.Eval.Call

/-!
# Sessions

A session is a machine that a host runs programs on, one after the other.  What a program declares
stays, and a run that fails leaves the machine as it was when it failed.

## Main definitions

* `Machine.initial`: a machine with the library
* `Machine.evaluate`: runs the program of a text
* `Machine.call`: calls a value
* `RunError`: why a run has no value
-/

namespace EcmaEval

/-- Why a run has no value. -/
inductive RunError where
  | syntactic (error : SyntaxError)
  /-- The program threw a value, which is shown as `shown`. -/
  | uncaught (value : Value) (shown : String)
  | broken (cause : Breakdown)
  /-- The file of the program cannot be read. -/
  | unreadable (path : String)
  /-- The run was too deep. -/
  | exhausted

namespace RunError

/-- The report of an error. -/
def message : RunError → String
  | syntactic e => e.message
  | uncaught _ shown => "Uncaught " ++ shown
  | broken cause => cause.message
  | unreadable path => "failed to read " ++ path ++ ": No such file or directory (os error 2)"
  | exhausted => "Program too deep"

/-- The text stopped before the program was complete, so more of it may follow. -/
def isIncomplete : RunError → Bool
  | syntactic e => e.incomplete
  | _ => false

end RunError

/-- The end of a run: a value or an error, and the machine as the run left it. -/
structure RunResult where
  outcome : Except RunError Value
  machine : Machine

namespace Machine

/-- The machine without objects. -/
def empty : Machine where
  heap := default
  frames := default
  realm := default
  options := {}
  signal := none
  newTarget := none
  joining := []
  tests := {}
  output := ""
  diagnostics := ""

/-- The machine after an action, whatever its outcome. -/
def after (m : Machine) (a : Action Unit) : Machine :=
  match a m with
  | .ok _ m | .error _ m => m

/-- A machine with the library. -/
def initial : Machine := empty.after Action.enterNewRealm

/-- The machine with nothing asked for. -/
def clearSignal (m : Machine) : Machine := { m with signal := none }

/-- Runs an action for the host. -/
def perform (m : Machine) (a : Action Value) : RunResult :=
  match a m with
  | .ok v m => { outcome := .ok v, machine := m.clearSignal }
  | .error (.thrown v) m =>
    { outcome := .error (.uncaught v (m.heap.show v)), machine := m.clearSignal }
  | .error (.broken cause) m => { outcome := .error (.broken cause), machine := m.clearSignal }
  | .error .exhausted m => { outcome := .error .exhausted, machine := m.clearSignal }

/-- Runs a program. -/
def run (m : Machine) (p : Program) : RunResult :=
  m.perform (Engine.standard.executeProgram m.realm.programFrame p)

/-- Runs the program of a text, read with the options of the machine. -/
def evaluate (m : Machine) (source : String) : RunResult :=
  match Program.ofText m.options source with
  | .ok p => m.run p
  | .error e => { outcome := .error (.syntactic e), machine := m }

/-- Runs the program in a file; `contents` is missing when it cannot be read. -/
def evaluateFile (m : Machine) (path : String) (contents : Option String) : RunResult :=
  match contents with
  | some source => m.evaluate source
  | none => { outcome := .error (.unreadable path), machine := m }

/-- Calls a value, which has to be a function. -/
def call (m : Machine) (callee this : Value) (args : List Value) : RunResult :=
  m.perform (Engine.standard.callValue callee this args)

/-- The machine with a name bound for programs.  It hides a name of the library. -/
def define (m : Machine) (name : String) (value : Value) : Machine :=
  { m with frames := m.frames.modify m.realm.programFrame (·.declareVariable name value) }

/-- The machine with other options for reading programs. -/
def withOptions (m : Machine) (options : ParseOptions) : Machine := { m with options }

/-- The machine with a function of the host, and that function. -/
def hostFunction (m : Machine) (f : HostFunction) : RunResult :=
  m.perform (Action.newNative (.host f))

/-- The machine without the texts that were written so far. -/
def clearOutput (m : Machine) : Machine := { m with output := "", diagnostics := "" }

/-- The text of a value as it is shown to a user. -/
def inspect (m : Machine) (v : Value) : String := m.heap.inspect v

end Machine

/-- Runs a program on a new machine that binds some names. -/
def evaluate (source : String) (bindings : List (String × Value)) : RunResult :=
  (bindings.foldl (fun m (name, v) => m.define name v) Machine.initial).evaluate source

end EcmaEval
