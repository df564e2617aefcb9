/-!
# Reserved words

The words that the lexer does not read as identifiers.  Some of them still name things where the
grammar allows it.
-/

namespace EcmaEval

/-- A reserved word. -/
inductive Keyword where
  | asyncWord
  | awaitWord
  | breakWord
  | caseWord
  | catchWord
  | classWord
  | constWord
  | continueWord
  | debuggerWord
  | defaultWord
  | deleteWord
  | doWord
  | elseWord
  | enumWord
  | exportWord
  | extendsWord
  | finallyWord
  | forWord
  | functionWord
  | ifWord
  | importWord
  | inWord
  | instanceofWord
  | letWord
  | newWord
  | ofWord
  | returnWord
  | staticWord
  | superWord
  | switchWord
  | thisWord
  | throwWord
  | tryWord
  | typeofWord
  | varWord
  | voidWord
  | whileWord
  | withWord
  | yieldWord
  deriving DecidableEq, Repr

namespace Keyword

/-- The spelling of the word. -/
def text : Keyword → String
  | .asyncWord => "async"
  | .awaitWord => "await"
  | .breakWord => "break"
  | .caseWord => "case"
  | .catchWord => "catch"
  | .classWord => "class"
  | .constWord => "const"
  | .continueWord => "continue"
  | .debuggerWord => "debugger"
  | .defaultWord => "default"
  | .deleteWord => "delete"
  | .doWord => "do"
  | .elseWord => "else"
  | .enumWord => "enum"
  | .exportWord => "export"
  | .extendsWord => "extends"
  | .finallyWord => "finally"
  | .forWord => "for"
  | .functionWord => "function"
  | .ifWord => "if"
  | .importWord => "import"
  | .inWord => "in"
  | .instanceofWord => "instanceof"
  | .letWord => "let"
  | .newWord => "new"
  | .ofWord => "of"
  | .returnWord => "return"
  | .staticWord => "static"
  | .superWord => "super"
  | .switchWord => "switch"
  | .thisWord => "this"
  | .throwWord => "throw"
  | .tryWord => "try"
  | .typeofWord => "typeof"
  | .varWord => "var"
  | .voidWord => "void"
  | .whileWord => "while"
  | .withWord => "with"
  | .yieldWord => "yield"

/-- All words. -/
def all : List Keyword :=
  [.asyncWord, .awaitWord, .breakWord, .caseWord, .catchWord, .classWord, .constWord,
   .continueWord, .debuggerWord, .defaultWord, .deleteWord, .doWord, .elseWord, .enumWord,
   .exportWord, .extendsWord, .finallyWord, .forWord, .functionWord, .ifWord, .importWord,
   .inWord, .instanceofWord, .letWord, .newWord, .ofWord, .returnWord, .staticWord,
   .superWord, .switchWord, .thisWord, .throwWord, .tryWord, .typeofWord, .varWord,
   .voidWord, .whileWord, .withWord, .yieldWord]

/-- The word with a given spelling. -/
def ofText? (s : String) : Option Keyword :=
  all.find? fun word => word.text == s

end Keyword

end EcmaEval
