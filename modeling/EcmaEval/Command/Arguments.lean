/-!
# Arguments

What the arguments of the command ask for.  An option with a value takes the next argument for it,
or what follows in the same one.

## Main definitions

* `Arguments.read`: what the arguments ask for, or why they cannot be read
* `Task`: what the command is to do
-/

namespace EcmaEval.Command

/-- What the command is asked to do. -/
structure Arguments where
  /-- The directory whose tests to run. -/
  tests : Option String := none
  /-- The program text to run. -/
  code : Option String := none
  /-- The file to run. -/
  file : Option String := none
  deriving DecidableEq, Repr

/-- What the command does.  Tests come before a program text, and that before a file. -/
inductive Task where
  | test (directory : String)
  | evaluate (code : String)
  | runFile (path : String)
  | interact
  deriving DecidableEq, Repr

/-- The arguments cannot be understood. -/
inductive UsageError where
  | unexpected (argument : String)
  | missingValue (option : String)
  | repeated (option : String)
  deriving DecidableEq, Repr

/-- The report of arguments that cannot be understood. -/
def UsageError.message : UsageError → String
  | unexpected argument => "error: unexpected argument '" ++ argument ++ "' found"
  | missingValue option => "error: a value is required for '" ++ option ++ "'"
  | repeated option => "error: the argument '" ++ option ++ "' cannot be used multiple times"

/-- An option with a value. -/
inductive ValueOption where
  | eval
  | test
  deriving DecidableEq, Repr

/-- The long form of an option. -/
def ValueOption.text : ValueOption → String
  | .eval => "--eval"
  | .test => "--test"

namespace Arguments

/-- What the arguments ask for. -/
def task (a : Arguments) : Task :=
  match a.tests, a.code, a.file with
  | some directory, _, _ => .test directory
  | none, some code, _ => .evaluate code
  | none, none, some path => .runFile path
  | none, none, none => .interact

/-- The arguments with the value of an option, which may be given once. -/
def withValue (a : Arguments) (o : ValueOption) (value : String) : Except UsageError Arguments :=
  match o, a.code, a.tests with
  | .eval, none, _ => .ok { a with code := value }
  | .test, _, none => .ok { a with tests := value }
  | o, _, _ => .error (.repeated o.text)

/-- The arguments with a file, which may be given once. -/
def withFile (a : Arguments) (path : String) : Except UsageError Arguments :=
  match a.file with
  | none => .ok { a with file := path }
  | some _ => .error (.unexpected path)

/-- What one argument stands for. -/
inductive Word where
  /-- Options without a value, then an option with a value that is given here or in the next
  argument. -/
  | option (o : ValueOption) (value : Option String)
  /-- Options without a value. -/
  | switches
  /-- All that follows are files. -/
  | separator
  | file
  | unknown

/-- The value that follows a short option in its argument; it may stand behind an equals sign. -/
def attached : List Char → Option String
  | [] => none
  | '=' :: value => some (String.ofList value)
  | value => some (String.ofList value)

/-- The short options of an argument. -/
def shortWord : List Char → Word
  | [] => .switches
  | 'v' :: rest => shortWord rest
  | 'e' :: rest => .option .eval (attached rest)
  | 't' :: rest => .option .test (attached rest)
  | _ => .unknown

/-- The long option of an argument. -/
def longWord (name : List Char) : Word :=
  let value? : Option String :=
    match name.dropWhile (· ≠ '=') with
    | [] => none
    | _ :: value => some (String.ofList value)
  match String.ofList (name.takeWhile (· ≠ '=')), value? with
  | "eval", value? => .option .eval value?
  | "test", value? => .option .test value?
  | "verbose", none => .switches
  | _, _ => .unknown

/-- What an argument stands for. -/
def word (argument : String) : Word :=
  match argument.toList with
  | ['-', '-'] => .separator
  | '-' :: '-' :: name => longWord name
  | ['-'] => .file
  | '-' :: letters => shortWord letters
  | _ => .file

/-- The next argument may be the value of an option. -/
def isValue (argument : String) : Bool := argument = "-" || !argument.startsWith "-"

/-- Reads arguments that may be options; `a` holds what came before. -/
def readFrom (a : Arguments) : List String → Except UsageError Arguments
  | [] => .ok a
  | argument :: rest =>
    match word argument with
    | .switches => a.readFrom rest
    -- Behind the separator nothing is an option any more.
    | .separator => rest.foldlM withFile a
    | .file => do (← a.withFile argument).readFrom rest
    | .unknown => .error (.unexpected argument)
    | .option o (some value) => do (← a.withValue o value).readFrom rest
    | .option o none =>
      match rest with
      | value :: rest =>
        if isValue value then do (← a.withValue o value).readFrom rest
        else .error (.missingValue o.text)
      | [] => .error (.missingValue o.text)

/-- Reads the arguments of the command. -/
def read (arguments : List String) : Except UsageError Arguments := readFrom {} arguments

end Arguments

end EcmaEval.Command
