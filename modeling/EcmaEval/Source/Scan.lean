import EcmaEval.Source.Cursor

/-!
# Scanning

Reading at a cursor ends with a value or with an error, and in both cases at a cursor: an error is
located where reading stopped.

## Main definitions

* `LexError`: why and where reading characters stopped
* `Scan.Result`: a value or an error, at a cursor
-/

namespace EcmaEval

/-- Why a text cannot be read as a token. -/
inductive LexCause where
  | unterminatedComment
  | unterminatedString
  | unterminatedEscape
  | unterminatedTemplate
  | unterminatedRegExp
  | unterminatedCodePoint
  | invalidHexEscape
  | invalidUnicodeEscape
  | undefinedCodePoint
  | invalidNumeral
  | invalidToken
  /-- A character that begins no token. -/
  | strayCharacter (ch : Char)
  deriving DecidableEq, Repr

/-- The text of a cause. -/
def LexCause.message : LexCause → String
  | .unterminatedComment => "Unterminated block comment"
  | .unterminatedString => "Unterminated string literal"
  | .unterminatedEscape => "Unterminated escape sequence"
  | .unterminatedTemplate => "Unterminated template literal"
  | .unterminatedRegExp => "Invalid regular expression: missing /"
  | .unterminatedCodePoint => "Unterminated Unicode escape sequence"
  | .invalidHexEscape => "Invalid hexadecimal escape sequence"
  | .invalidUnicodeEscape => "Invalid Unicode escape sequence"
  | .undefinedCodePoint => "Undefined Unicode code-point"
  | .invalidNumeral => "Invalid numeric literal"
  | .invalidToken => "Invalid or unexpected token"
  | .strayCharacter ch => "Invalid or unexpected token '" ++ ch.toString ++ "'"

/-- A failure to read a token. -/
structure LexError where
  /-- The cause. -/
  cause : LexCause
  /-- The text ended before the token was complete. -/
  atEnd : Bool
  deriving DecidableEq, Repr

/-- The report of a failure at a place. -/
def LexError.report (e : LexError) (p : Position) : String :=
  toString p.line ++ ":" ++ toString p.column ++ ": " ++ e.cause.message

/-- Reading at a cursor. -/
abbrev Scan := EStateM LexError Cursor

namespace Scan

/-- The outcome of reading, with the cursor at which it stopped. -/
abbrev Result := EStateM.Result LexError Cursor

/-- Reading stops at `c` because of `cause`. -/
def stop {α : Type} (cause : LexCause) (c : Cursor) : Result α :=
  .error ⟨cause, false⟩ c

/-- Reading stops at the end of the text. -/
def stopAtEnd {α : Type} (cause : LexCause) (c : Cursor) : Result α :=
  .error ⟨cause, true⟩ c

/-- The cursor at which reading stopped. -/
def Result.cursor {α : Type} : Result α → Cursor
  | .ok _ c => c
  | .error _ c => c

/-- The outcome with its value changed. -/
def Result.map {α β : Type} (f : α → β) : Result α → Result β
  | .ok a c => .ok (f a) c
  | .error e c => .error e c

end Scan

end EcmaEval
