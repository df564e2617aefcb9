import EcmaEval.Text.Units
import EcmaEval.Text.Blank
import EcmaEval.Text.CaseTable
import EcmaEval.Text.IdentifierTable
import EcmaEval.Text.VisibleTable
import EcmaEval.Text.Case
import EcmaEval.Text.Quoted
import EcmaEval.Number.Binary
import EcmaEval.Number.Arithmetic
import EcmaEval.Number.Shortest
import EcmaEval.Number.Words
import EcmaEval.Number.Read
import EcmaEval.Number.Text
import EcmaEval.Integer.Arithmetic
import EcmaEval.Integer.Text
import EcmaEval.Source.Cursor
import EcmaEval.Source.Scan
import EcmaEval.Token.Keyword
import EcmaEval.Token.Punctuator
import EcmaEval.Token.Basic
import EcmaEval.Token.Escape
import EcmaEval.Token.Numeral
import EcmaEval.Token.Lexer
import EcmaEval.Program.Operator
import EcmaEval.Program.Tree
import EcmaEval.Grammar.Error
import EcmaEval.Grammar.Parse
import EcmaEval.Grammar.Pattern
import EcmaEval.Grammar.Class
import EcmaEval.Grammar.Literal
import EcmaEval.Grammar.Operand
import EcmaEval.Grammar.Expression
import EcmaEval.Grammar.Statement
import EcmaEval.Parser.Flags
import EcmaEval.Parser.Expression
import EcmaEval.Parser.Statement
import EcmaEval.Store.NameMap
import EcmaEval.Value.Basic
import EcmaEval.Value.Primitive
import EcmaEval.Object.Builtin
import EcmaEval.Object.Callable
import EcmaEval.Object.Property
import EcmaEval.Object.PropertyTable
import EcmaEval.Object.ArrayIndex
import EcmaEval.Object.Basic
import EcmaEval.Store.Frame
import EcmaEval.Store.Heap
import EcmaEval.Machine.Fault
import EcmaEval.Machine.Basic
import EcmaEval.Machine.Create
import EcmaEval.Inspect
import EcmaEval.Engine.Basic
import EcmaEval.Engine.Access
import EcmaEval.Engine.Convert
import EcmaEval.Engine.Operator
import EcmaEval.Library.Realm
import EcmaEval.Library.Array
import EcmaEval.Library.Function
import EcmaEval.Library.Number
import EcmaEval.Library.Object
import EcmaEval.Library.Promise
import EcmaEval.Library.String
import EcmaEval.Library.Call
import EcmaEval.Eval.Hoist
import EcmaEval.Eval.Reference
import EcmaEval.Eval.Function
import EcmaEval.Eval.Class
import EcmaEval.Eval.Loop
import EcmaEval.Eval.Expression
import EcmaEval.Eval.Statement
import EcmaEval.Eval.Call
import EcmaEval.Suite.Check
import EcmaEval.Suite.Run
import EcmaEval.Suite.Declare
import EcmaEval.Files.Tree
import EcmaEval.Session
import EcmaEval.Command.Arguments
import EcmaEval.Command.Run
import EcmaEval.Main
import EcmaEval.Proofs.Syntax.Site
import EcmaEval.Proofs.Syntax.Rules
import EcmaEval.Proofs.Syntax.InStep
import EcmaEval.Proofs.Syntax.Numeral
import EcmaEval.Proofs.Syntax.Admitted
import EcmaEval.Proofs.Syntax.Parts
import EcmaEval.Proofs.Syntax.Expression
import EcmaEval.Proofs.Syntax.Statement
import EcmaEval.Proofs.Run.Discipline
import EcmaEval.Proofs.Run.Steady
import EcmaEval.Proofs.Run.Engine
import EcmaEval.Proofs.Run.Library
import EcmaEval.Proofs.Run.Class
import EcmaEval.Proofs.Run.Expression
import EcmaEval.Proofs.Run.Statement
import EcmaEval.Proofs.Run.Session
import EcmaEval.Proofs.Run.Registers
import EcmaEval.Proofs.Run.Jumps
import EcmaEval.Proofs.Part.Basic
import EcmaEval.Proofs.Part.Library
import EcmaEval.Proofs.Part.Evaluation
import EcmaEval.Proofs.Part.Breakdown
import EcmaEval.Proofs.Conduct.Fact
import EcmaEval.Proofs.Conduct.Ancestry
import EcmaEval.Proofs.Conduct.Content
import EcmaEval.Proofs.Conduct.Scope
import EcmaEval.Proofs.Conduct.Judgement
import EcmaEval.Proofs.Conduct.Store
import EcmaEval.Proofs.Conduct.Engine
import EcmaEval.Proofs.Conduct.Library
import EcmaEval.Proofs.Conduct.Settlement
import EcmaEval.Proofs.Conduct.Body
import EcmaEval.Proofs.Conduct.Class
import EcmaEval.Proofs.Conduct.Expression
import EcmaEval.Proofs.Conduct.Statement
import EcmaEval.Proofs.Conduct.Names
import EcmaEval.Proofs.Conduct.Realm
import EcmaEval.Proofs.Conduct.Call
import EcmaEval.Proofs.Conduct.Session
import EcmaEval.Proofs.Conduct.Part
import EcmaEval.Proofs.Conduct.Promises
import EcmaEval.Proofs.Conduct.Asynchronous
import EcmaEval.Proofs.Conduct.Arrays
import EcmaEval.Proofs.Syntax.Pairing
import EcmaEval.Proofs.Syntax.Completion
import EcmaEval.Proofs.Syntax.Climbing
import EcmaEval.Proofs.Text.CodeUnits
import EcmaEval.Proofs.Text.Concatenation
import EcmaEval.Proofs.Object.PropertyOrder
import EcmaEval.Proofs.Store.Lookup
import EcmaEval.Proofs.Object.LoopKeys
import EcmaEval.Proofs.Object.Descriptor
import EcmaEval.Proofs.Suite.Bisimulation
import EcmaEval.Proofs.Syntax.ShownToken
import EcmaEval.Proofs.Syntax.Steps
import EcmaEval.Proofs.Syntax.Rereading
import EcmaEval.Proofs.Session.Inspection
import EcmaEval.Proofs.Syntax.ArrowParameters
import EcmaEval.Proofs.Object.KeyWrites
import EcmaEval.Proofs.Session.ArrayKeys
import EcmaEval.Proofs.Text.SplitJoin
import EcmaEval.Proofs.Syntax.Progress
import EcmaEval.Proofs.Flags.Methods
import EcmaEval.Proofs.Construction.Chain
import EcmaEval.Proofs.Construction.SuperCall
import EcmaEval.Proofs.Placement.Readers
import EcmaEval.Proofs.Placement.Hoisting
import EcmaEval.Proofs.Labels.Aim
import EcmaEval.Proofs.Returns.Readers
import EcmaEval.Proofs.Suite.Nesting
import EcmaEval.Proofs.Arrays.Write
import EcmaEval.Proofs.Arrays.Sort
import EcmaEval.Proofs.Token.Basic
import EcmaEval.Proofs.Token.Name
import EcmaEval.Proofs.Token.Position
import EcmaEval.Proofs.Token.CutShort
import EcmaEval.Proofs.Syntax.UnixProgram
import EcmaEval.Proofs.Number.Value
import EcmaEval.Proofs.Number.Nearest
import EcmaEval.Proofs.Integer.Operators
import EcmaEval.Proofs.Integer.Numeral
import EcmaEval.Proofs.Inspect.Key
import EcmaEval.Proofs.Inspect.Picture
import EcmaEval.Proofs.Conduct.Chains
import EcmaEval.Proofs.Object.Copies
import EcmaEval.Proofs.Labels.Finalizers
import EcmaEval.Proofs.Text.Trimmed
import EcmaEval.Proofs.Arrays.IndexArguments
import EcmaEval.Proofs.Expression.Assignment
import EcmaEval.Proofs.Expression.Calculation
import EcmaEval.Proofs.Object.IndexText
import EcmaEval.Proofs.Text.Pieces
