import EcmaEval.Token.Basic
import EcmaEval.Source.Scan

/-!
# Syntax errors

Why a text is no program.  An error also tells whether the text only stopped too early, so that
more lines could still complete it.

## Main definitions

* `SyntaxCause`: why a text is no program
* `SyntaxError`: a cause, its place, and whether more text could help
-/

namespace EcmaEval

/-- Why a text is not a program. -/
inductive SyntaxCause where
  /-- A token cannot be read. -/
  | lexical (cause : LexCause)
  /-- A token does not continue the phrase. -/
  | unexpected (token : Token)
  | declarationAsStatement
  | importOutsideModule
  | letAsName
  | missingInitializer
  | awaitingLoop
  | invalidLoopTarget
  | illegalReturn
  | illegalBreak
  | illegalContinue
  | undefinedLabel (label : String)
  | repeatedLabel (label : String)
  /-- A continue names a label that is not on a loop. -/
  | notALoop (label : String)
  | lineEndAfterThrow
  | missingHandler
  | repeatedDefault
  | invalidTarget
  | invalidPattern
  | unaryBeforePower
  | missingMemberName
  | missingTarget
  | misplacedTarget
  | misplacedSuper
  | invalidTemplateEscape
  | restNotLast
  | restInObjectPattern
  | shorthandWithValue
  | repeatedConstructor
  | accessorConstructor
  | asyncConstructor
  | constructorField
  /-- The steps granted to the reader ran out.  A reader of a whole text is granted more steps
  than the text has characters, and takes fewer. -/
  | exhausted
  deriving Inhabited

namespace SyntaxCause

/-- The text for a token that was not expected. -/
def unexpectedText : Token → String
  | .endOfInput => "Unexpected end of input"
  | .identifier name => "Unexpected identifier '" ++ name ++ "'"
  | .keyword word => "Unexpected token '" ++ word.text ++ "'"
  | .string _ => "Unexpected string"
  | .numeric _ | .bigint _ => "Unexpected number"
  | token => "Unexpected token " ++ token.shown

/-- The text of a cause. -/
def text : SyntaxCause → String
  | .lexical cause => cause.message
  | .unexpected token => unexpectedText token
  | .declarationAsStatement => "Declarations are not allowed in a single-statement context"
  | .importOutsideModule => "Cannot use import statement outside a module"
  | .letAsName => "let is disallowed as a lexically bound name"
  | .missingInitializer => "Missing initializer in declaration"
  | .awaitingLoop => "for await is not supported"
  | .invalidLoopTarget => "Invalid left-hand side in for-loop"
  | .illegalReturn => "Illegal return statement"
  | .illegalBreak => "Illegal break statement"
  | .illegalContinue => "Illegal continue statement: no surrounding iteration statement"
  | .undefinedLabel label => "Undefined label '" ++ label ++ "'"
  | .repeatedLabel label => "Label '" ++ label ++ "' has already been declared"
  | .notALoop label =>
    "Illegal continue statement: '" ++ label ++ "' does not denote an iteration statement"
  | .lineEndAfterThrow => "Illegal newline after throw"
  | .missingHandler => "Missing catch or finally after try"
  | .repeatedDefault => "More than one default clause in switch statement"
  | .invalidTarget => "Invalid left-hand side in assignment"
  | .invalidPattern => "Invalid destructuring assignment target"
  | .unaryBeforePower =>
    "Unary operator used immediately before exponentiation expression. " ++
      "Parenthesis must be used to disambiguate operator precedence"
  | .missingMemberName => "Expected identifier after '.'"
  | .missingTarget => "Expected 'target' after 'new.'"
  | .misplacedTarget => "new.target expression is not allowed here"
  | .misplacedSuper => "'super' keyword unexpected here"
  | .invalidTemplateEscape => "Invalid escape sequence in template"
  | .restNotLast => "Rest parameter must be last formal parameter"
  | .restInObjectPattern => "Object rest patterns are not supported"
  | .shorthandWithValue => "Invalid shorthand property initializer"
  | .repeatedConstructor => "A class may only have one constructor"
  | .accessorConstructor => "Class constructor may not be an accessor"
  | .asyncConstructor => "Class constructor may not be an async method or generator"
  | .constructorField => "Classes may not have a field named 'constructor'"
  | .exhausted => "Program too deep"

end SyntaxCause

/-- A text is not a program. -/
structure SyntaxError where
  /-- The cause. -/
  cause : SyntaxCause
  /-- The place reached: behind the token at hand, or where reading that token stopped. -/
  position : Position
  /-- The text stopped before the program was complete. -/
  incomplete : Bool

/-- The report of an error. -/
def SyntaxError.message (e : SyntaxError) : String :=
  "SyntaxError: " ++ e.cause.text

end EcmaEval
