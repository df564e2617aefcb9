/-!
# Punctuators

The operators and brackets of the language.  A source text is read with the longest punctuator
that it continues with.

## Main definitions

* `Punctuator`: the operators and brackets
* `Punctuator.longestAt?`: the longest punctuator that a text continues with

## Main results

* `Punctuator.mem_byLength`: every punctuator is tried
-/

namespace EcmaEval

/-- An operator or a bracket. -/
inductive Punctuator where
  | leftBrace
  | rightBrace
  | leftParen
  | rightParen
  | leftBracket
  | rightBracket
  | dot
  | ellipsis
  | semicolon
  | comma
  | lessThan
  | greaterThan
  | lessThanEqual
  | greaterThanEqual
  | equal
  | notEqual
  | strictEqual
  | strictNotEqual
  | plus
  | minus
  | star
  | slash
  | percent
  | exponent
  | increment
  | decrement
  | leftShift
  | rightShift
  | unsignedRightShift
  | ampersand
  | pipe
  | caret
  | bang
  | tilde
  | logicalAnd
  | logicalOr
  | nullishCoalescing
  | question
  | optionalChain
  | colon
  | arrow
  | assign
  | plusAssign
  | minusAssign
  | starAssign
  | slashAssign
  | percentAssign
  | exponentAssign
  | leftShiftAssign
  | rightShiftAssign
  | unsignedRightShiftAssign
  | ampersandAssign
  | pipeAssign
  | caretAssign
  | logicalAndAssign
  | logicalOrAssign
  | nullishAssign
  deriving DecidableEq, Repr

namespace Punctuator

/-- The name under which diagnostics report the punctuator. -/
def name : Punctuator → String
  | .leftBrace => "LeftBrace"
  | .rightBrace => "RightBrace"
  | .leftParen => "LeftParen"
  | .rightParen => "RightParen"
  | .leftBracket => "LeftBracket"
  | .rightBracket => "RightBracket"
  | .dot => "Dot"
  | .ellipsis => "Ellipsis"
  | .semicolon => "Semicolon"
  | .comma => "Comma"
  | .lessThan => "LessThan"
  | .greaterThan => "GreaterThan"
  | .lessThanEqual => "LessThanEqual"
  | .greaterThanEqual => "GreaterThanEqual"
  | .equal => "Equal"
  | .notEqual => "NotEqual"
  | .strictEqual => "StrictEqual"
  | .strictNotEqual => "StrictNotEqual"
  | .plus => "Plus"
  | .minus => "Minus"
  | .star => "Star"
  | .slash => "Slash"
  | .percent => "Percent"
  | .exponent => "Exponent"
  | .increment => "Increment"
  | .decrement => "Decrement"
  | .leftShift => "LeftShift"
  | .rightShift => "RightShift"
  | .unsignedRightShift => "UnsignedRightShift"
  | .ampersand => "Ampersand"
  | .pipe => "Pipe"
  | .caret => "Caret"
  | .bang => "Bang"
  | .tilde => "Tilde"
  | .logicalAnd => "LogicalAnd"
  | .logicalOr => "LogicalOr"
  | .nullishCoalescing => "NullishCoalescing"
  | .question => "Question"
  | .optionalChain => "OptionalChain"
  | .colon => "Colon"
  | .arrow => "Arrow"
  | .assign => "Assign"
  | .plusAssign => "PlusAssign"
  | .minusAssign => "MinusAssign"
  | .starAssign => "StarAssign"
  | .slashAssign => "SlashAssign"
  | .percentAssign => "PercentAssign"
  | .exponentAssign => "ExponentAssign"
  | .leftShiftAssign => "LeftShiftAssign"
  | .rightShiftAssign => "RightShiftAssign"
  | .unsignedRightShiftAssign => "UnsignedRightShiftAssign"
  | .ampersandAssign => "AmpersandAssign"
  | .pipeAssign => "PipeAssign"
  | .caretAssign => "CaretAssign"
  | .logicalAndAssign => "LogicalAndAssign"
  | .logicalOrAssign => "LogicalOrAssign"
  | .nullishAssign => "NullishAssign"

/-- The characters of the punctuator. -/
def spelling : Punctuator → List Char
  | .leftBrace => ['\x7b']
  | .rightBrace => ['\x7d']
  | .leftParen => ['(']
  | .rightParen => [')']
  | .leftBracket => ['[']
  | .rightBracket => [']']
  | .dot => ['.']
  | .ellipsis => ['.', '.', '.']
  | .semicolon => [';']
  | .comma => [',']
  | .lessThan => ['<']
  | .greaterThan => ['>']
  | .lessThanEqual => ['<', '=']
  | .greaterThanEqual => ['>', '=']
  | .equal => ['=', '=']
  | .notEqual => ['!', '=']
  | .strictEqual => ['=', '=', '=']
  | .strictNotEqual => ['!', '=', '=']
  | .plus => ['+']
  | .minus => ['-']
  | .star => ['*']
  | .slash => ['/']
  | .percent => ['%']
  | .exponent => ['*', '*']
  | .increment => ['+', '+']
  | .decrement => ['-', '-']
  | .leftShift => ['<', '<']
  | .rightShift => ['>', '>']
  | .unsignedRightShift => ['>', '>', '>']
  | .ampersand => ['&']
  | .pipe => ['|']
  | .caret => ['^']
  | .bang => ['!']
  | .tilde => ['~']
  | .logicalAnd => ['&', '&']
  | .logicalOr => ['|', '|']
  | .nullishCoalescing => ['?', '?']
  | .question => ['?']
  | .optionalChain => ['?', '.']
  | .colon => [':']
  | .arrow => ['=', '>']
  | .assign => ['=']
  | .plusAssign => ['+', '=']
  | .minusAssign => ['-', '=']
  | .starAssign => ['*', '=']
  | .slashAssign => ['/', '=']
  | .percentAssign => ['%', '=']
  | .exponentAssign => ['*', '*', '=']
  | .leftShiftAssign => ['<', '<', '=']
  | .rightShiftAssign => ['>', '>', '=']
  | .unsignedRightShiftAssign => ['>', '>', '>', '=']
  | .ampersandAssign => ['&', '=']
  | .pipeAssign => ['|', '=']
  | .caretAssign => ['^', '=']
  | .logicalAndAssign => ['&', '&', '=']
  | .logicalOrAssign => ['|', '|', '=']
  | .nullishAssign => ['?', '?', '=']

/-- All punctuators, the longer ones first. -/
def byLength : List Punctuator :=
  [.unsignedRightShiftAssign, .ellipsis, .strictEqual, .strictNotEqual, .unsignedRightShift,
   .exponentAssign, .leftShiftAssign, .rightShiftAssign, .logicalAndAssign, .logicalOrAssign,
   .nullishAssign, .lessThanEqual, .greaterThanEqual, .equal, .notEqual, .exponent,
   .increment, .decrement, .leftShift, .rightShift, .logicalAnd, .logicalOr,
   .nullishCoalescing, .optionalChain, .arrow, .plusAssign, .minusAssign, .starAssign,
   .slashAssign, .percentAssign, .ampersandAssign, .pipeAssign, .caretAssign, .leftBrace,
   .rightBrace, .leftParen, .rightParen, .leftBracket, .rightBracket, .dot, .semicolon,
   .comma, .lessThan, .greaterThan, .plus, .minus, .star, .slash, .percent, .ampersand, .pipe,
   .caret, .bang, .tilde, .question, .colon, .assign]

/-- The punctuator stands at the front of a text.  A question mark and a point before a digit are
not one punctuator, so that `a?.5:b` is a conditional. -/
def isAt (p : Punctuator) (cs : List Char) : Bool :=
  p.spelling.isPrefixOf cs &&
    match p with
    | .optionalChain => !((cs.drop 2).head?.any Char.isDigit)
    | _ => true

/-- The longest punctuator at the front of a text. -/
def longestAt? (cs : List Char) : Option Punctuator :=
  byLength.find? fun p => p.isAt cs

theorem mem_byLength (p : Punctuator) : p ∈ byLength := by
  cases p <;> decide

end Punctuator

end EcmaEval
