import EcmaEval.Machine.Basic
import EcmaEval.Files.Tree
import EcmaEval.Session

/-!
# Reports, and running tests

What is written about the tests of a run.

A file of tests is a program that runs on a machine of its own, with the functions of a suite.

## Main definitions

* `Suite.runSource`: the report of a file of tests
* `Suite.runDirectory`: the report of the files of tests under a directory
-/

namespace EcmaEval

namespace TestResult

/-- The test passed. -/
def passed (t : TestResult) : Bool := t.outcome = .passed

/-- The name of a test behind those of its groups. -/
def fullName (t : TestResult) : String := " > ".intercalate (t.groups ++ [t.name])

/-- The line about a test. -/
def line (t : TestResult) : String :=
  match t.outcome with
  | .passed => "PASS " ++ t.fullName
  | .failed assertions =>
    "FAIL " ++ t.fullName ++ " (assertions " ++
      ", ".intercalate (assertions.map toString) ++ ")"
  | .noAssertions => "FAIL " ++ t.fullName ++ " (no assertions ran)"
  | .threw shown => "FAIL " ++ t.fullName ++ " (threw " ++ shown ++ ")"

end TestResult

/-- What happened in a file of tests. -/
structure FileReport where
  path : String
  tests : List TestResult
  /-- Why the file has no value, if it has none. -/
  error : Option String

namespace FileReport

/-- The file ran, and all its tests passed. -/
def passed (r : FileReport) : Bool := r.error.isNone && r.tests.all TestResult.passed

/-- The lines about a file. -/
def lines (r : FileReport) : List String :=
  r.path :: r.tests.map (fun t => "  " ++ t.line) ++
    (r.error.map fun e => "  ERROR " ++ e).toList

end FileReport

/-- What happened in the files of a run. -/
structure Report where
  files : List FileReport

namespace Report

/-- All tests of the run. -/
def tests (r : Report) : List TestResult := r.files.flatMap FileReport.tests

/-- The number of tests. -/
def total (r : Report) : Nat := r.tests.length

/-- The number of tests that failed. -/
def failed (r : Report) : Nat := r.tests.countP fun t => !t.passed

/-- The number of files that did not run to their end. -/
def fileErrors (r : Report) : Nat := r.files.countP fun f => f.error.isSome

/-- All files ran, and all tests passed. -/
def passed (r : Report) : Bool := r.files.all FileReport.passed

/-- The last line of a report. -/
def summary (r : Report) : String :=
  toString r.total ++ " tests, " ++ toString (r.total - r.failed) ++ " passed, " ++
    toString r.failed ++ " failed, " ++ toString r.fileErrors ++ " file error(s)"

/-- The text of a report. -/
def text (r : Report) : String :=
  "\n".intercalate (r.files.flatMap FileReport.lines ++ [r.summary])

end Report

end EcmaEval

/-! # Running tests -/

namespace EcmaEval

/-- What a run has written, and what it found. -/
structure SuiteRun (α : Type) where
  found : α
  /-- The text written for the user. -/
  output : String := ""
  /-- The text written as diagnostics. -/
  diagnostics : String := ""

namespace Suite

/-- Runs a file of tests.  The path only labels the report. -/
def runSource (path source : String) : SuiteRun FileReport :=
  let result := (Machine.initial.after Action.installSuite).evaluate source
  let error :=
    match result.outcome with
    | .ok _ => none
    | .error e => some e.message
  { found := { path, tests := result.machine.tests.results, error }
    output := result.machine.output
    diagnostics := result.machine.diagnostics }

/-- Why the tests of a directory are not run. -/
inductive Failure where
  /-- The path is not that of a directory. -/
  | unreadable (path : String)
  | noTests (path : String)
  deriving DecidableEq, Repr

/-- The report of a failure. -/
def Failure.message : Failure → String
  | unreadable path => (RunError.unreadable path).message
  | noTests path => "no test files found under " ++ path

/-- Runs files of tests in order. -/
def runScripts (scripts : List (String × String)) : SuiteRun Report :=
  let runs := scripts.map fun (path, source) => runSource path source
  { found := { files := runs.map (·.found) }
    output := String.join (runs.map (·.output))
    diagnostics := String.join (runs.map (·.diagnostics)) }

/-- Runs the scripts that were found under a path, if it is that of a directory. -/
def runFound (path : String) (found : Option (List (String × String))) :
    Except Failure (SuiteRun Report) :=
  match found with
  | none => .error (.unreadable path)
  | some [] => .error (.noTests path)
  | some scripts => .ok (runScripts scripts)

/-- Runs all tests under a directory. -/
def runDirectory (tree : FileTree) (path : String) : Except Failure (SuiteRun Report) :=
  runFound path (tree.scripts? path)

end Suite

end EcmaEval
