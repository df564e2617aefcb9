import EcmaEval.Command.Run

/-!
# The program

Reads files and lines for the command, and writes its responses.
-/

namespace EcmaEval.Command

/-- Writes a response, and gives its code. -/
def write (r : Response) : IO UInt32 := do
  (← IO.getStderr).putStr r.diagnostics
  let output ← IO.getStdout
  output.putStr r.output
  output.flush
  return r.code.toUInt32

/-- Reads a file, if that is possible. -/
def readFile? (path : String) : IO (Option String) := do
  try return some (← IO.FS.readFile path) catch _ => return none

/-- Reads a file or directory. -/
partial def readTree (entry : IO.FS.DirEntry) : IO FileTree := do
  if ← entry.path.isDir then
    let entries ← entry.path.readDir
    return .directory (← entries.toList.mapM fun e => do return (e.fileName, ← readTree e))
  else return .file ((← readFile? entry.path.toString).getD "")

/-- Reads the scripts under a directory, if that is possible. -/
def readScripts? (path : String) : IO (Option (List (String × String))) := do
  let top : IO.FS.DirEntry := { root := path, fileName := "." }
  if ← top.root.isDir then
    return some (FileTree.scriptsWithin path "" (← readTree top))
  else return none

/-- Answers lines until there are none left. -/
partial def converse (d : Dialogue) : IO UInt32 := do
  let output ← IO.getStdout
  output.putStr d.prompt
  output.flush
  let input ← (← IO.getStdin).getLine
  if input.isEmpty then
    output.putStrLn ""
    return 0
  let (next, r) := d.answer input
  let _ ← write r
  converse next

/-- Does what the arguments ask for. -/
def perform (arguments : List String) : IO UInt32 := do
  match Arguments.read arguments with
  | .error e => write (.ofUsageError e)
  | .ok a =>
    match a.task with
    | .test directory => write (.ofTests directory (← readScripts? directory))
    | .evaluate code => write (.ofCode code)
    | .runFile path => write (.ofFile path (← readFile? path))
    | .interact =>
      (← IO.getStdout).putStr Dialogue.banner
      converse .initial

end EcmaEval.Command

/-- The program. -/
def main (arguments : List String) : IO UInt32 := EcmaEval.Command.perform arguments
