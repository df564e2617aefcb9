import EcmaEval.Command.Arguments
import EcmaEval.Suite.Run
import EcmaEval.Text.Blank

/-!
# The command

What each task of the command writes, and the code that it ends with.  A dialogue reads a line, and
more lines as long as what was read stops before a program is complete.

## Main definitions

* `Response`: the texts that a task writes and the code that it ends with
* `Dialogue`: the machine and the lines that wait for more
* `Dialogue.answer`: what a dialogue answers to a line
* `Command.run`: the answer to the arguments, for a tree of files and the lines of the input
-/

namespace EcmaEval.Command

/-- What the command has written, and the code that it ends with. -/
structure Response where
  code : Nat
  /-- The text written for the user. -/
  output : String := ""
  /-- The text written as diagnostics. -/
  diagnostics : String := ""

/-- A line of text. -/
def line (text : String) : String := text ++ "\n"

namespace Response

/-- The response to a run.  The value is written if that is wanted, and an error always. -/
def ofRun (r : RunResult) (showValue : Bool) : Response :=
  let m := r.machine
  match r.outcome with
  | .ok v =>
    { code := 0
      output := if showValue then m.output ++ line (m.inspect v) else m.output
      diagnostics := m.diagnostics }
  | .error e =>
    { code := 1, output := m.output, diagnostics := m.diagnostics ++ line e.message }

/-- Runs a program text and writes its value. -/
def ofCode (code : String) : Response := ofRun (Machine.initial.evaluate code) true

/-- Runs a file. -/
def ofFile (path : String) (contents : Option String) : Response :=
  ofRun (Machine.initial.evaluateFile path contents) false

/-- Runs the tests that were found under a path and writes the report. -/
def ofTests (path : String) (found : Option (List (String × String))) : Response :=
  match Suite.runFound path found with
  | .ok run =>
    { code := if run.found.passed then 0 else 1
      output := run.output ++ line run.found.text
      diagnostics := run.diagnostics }
  | .error e => { code := 2, diagnostics := line e.message }

/-- The response to arguments that cannot be understood. -/
def ofUsageError (e : UsageError) : Response := { code := 2, diagnostics := line e.message }

end Response

/-- The state of a dialogue. -/
structure Dialogue where
  machine : Machine
  /-- The lines that were read and are not a complete program. -/
  pending : String := ""

namespace Dialogue

/-- The name and version of the command. -/
def banner : String := "jsi v0.1.0\nType JavaScript expressions. Press Ctrl-D to exit.\n"

/-- A dialogue before its first line. -/
def initial : Dialogue := { machine := .initial }

/-- What is written before a line is read. -/
def prompt (d : Dialogue) : String := if d.pending.isEmpty then "> " else "... "

/-- The dialogue after a line, with what is written in answer to it. -/
def answer (d : Dialogue) (input : String) : Dialogue × Response :=
  let text := d.pending ++ input
  if text.toList.all Text.isWhiteSpace then ({ d with pending := "" }, { code := 0 })
  else
    let r := d.machine.evaluate text
    let incomplete :=
      match r.outcome with
      | .ok _ => false
      | .error e => e.isIncomplete
    if incomplete then ({ d with pending := text }, { code := 0 })
    else ({ machine := r.machine.clearOutput }, Response.ofRun r true)

/-- A dialogue over lines, with what was written before them. -/
def runLines (d : Dialogue) (written : Response) : List String → Response
  | [] => { written with output := written.output ++ d.prompt ++ "\n" }
  | input :: rest =>
    let (next, r) := d.answer input
    runLines next
      { code := 0
        output := written.output ++ d.prompt ++ r.output
        diagnostics := written.diagnostics ++ r.diagnostics } rest

/-- A text as lines, each with its line feed; `before` holds the line so far in reverse. -/
def splitLines (before : List Char) : List Char → List String
  | [] => if before.isEmpty then [] else [String.ofList before.reverse]
  | c :: rest =>
    if c = '\n' then String.ofList ('\n' :: before).reverse :: splitLines [] rest
    else splitLines (c :: before) rest

/-- The whole of a dialogue. -/
def run (input : String) : Response :=
  runLines initial { code := 0, output := banner } (splitLines [] input.toList)

end Dialogue

/-- Runs the command on arguments, files and the lines that it reads. -/
def run (arguments : List String) (tree : FileTree) (input : String) : Response :=
  match Arguments.read arguments with
  | .error e => .ofUsageError e
  | .ok a =>
    match a.task with
    | .test directory => .ofTests directory (tree.scripts? directory)
    | .evaluate code => .ofCode code
    | .runFile path => .ofFile path (tree.read? path)
    | .interact => Dialogue.run input

end EcmaEval.Command
