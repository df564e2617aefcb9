import EcmaEval.Token.Keyword
import EcmaEval.Token.Punctuator
import EcmaEval.Text.Quoted

/-!
# Tokens

The units of a program text.  Line ends are tokens too, because a statement may end at one.
-/

namespace EcmaEval

/-- The place of a template token between the quotes and the substitutions. -/
inductive TemplatePart where
  /-- From quote to quote, without substitution. -/
  | whole
  /-- From the opening quote to the first substitution. -/
  | head
  /-- From one substitution to the next. -/
  | middle
  /-- From the last substitution to the closing quote. -/
  | tail
  deriving DecidableEq, Repr

/-- The name under which diagnostics report a template token. -/
def TemplatePart.name : TemplatePart → String
  | .whole => "NoSubstitutionTemplate"
  | .head => "TemplateHead"
  | .middle => "TemplateMiddle"
  | .tail => "TemplateTail"

/-- A token.  A template token has the text after its escapes are read, if they can be, and the
text as it is written. -/
inductive Token where
  | identifier (name : String)
  | keyword (word : Keyword)
  | numeric (value : Float)
  | bigint (digits : String)
  | string (value : String)
  | boolean (value : Bool)
  | null
  | regExp (pattern flags : String)
  | template (part : TemplatePart) (cooked : Option String) (raw : String)
  | punctuator (mark : Punctuator)
  | lineEnd
  | endOfInput
  deriving Inhabited

namespace Token

/-- The token is a given punctuator. -/
def isMark (t : Token) (p : Punctuator) : Bool :=
  match t with
  | punctuator q => q == p
  | _ => false

/-- The token is a given word. -/
def isWord (t : Token) (k : Keyword) : Bool :=
  match t with
  | keyword l => l == k
  | _ => false

theorem eq_of_isMark {t : Token} {mark : Punctuator} (h : t.isMark mark = true) :
    t = .punctuator mark := by
  cases t <;> simp_all [isMark]

theorem eq_of_isWord {t : Token} {word : Keyword} (h : t.isWord word = true) :
    t = .keyword word := by
  cases t <;> simp_all [isWord]

/-- The token stands for the end of the text. -/
def isEnd : Token → Bool
  | endOfInput => true
  | _ => false

/-- The token as a diagnostic writes it where it was not expected. -/
def shown : Token → String
  | identifier name => "Identifier(" ++ Text.quoteVisibly name ++ ")"
  | keyword word => "Keyword(" ++ word.text ++ ")"
  | numeric _ => "NumericLiteral"
  | bigint digits => "BigIntLiteral(" ++ Text.quoteVisibly digits ++ ")"
  | string value => "StringLiteral(" ++ Text.quoteVisibly value ++ ")"
  | boolean value => "BooleanLiteral(" ++ (if value then "true" else "false") ++ ")"
  | null => "NullLiteral"
  | regExp pattern flags =>
    "RegExpLiteral(" ++ Text.quoteVisibly pattern ++ ", " ++ Text.quoteVisibly flags ++ ")"
  | template part cooked raw =>
    part.name ++ "(" ++ Text.quoteOptionVisibly cooked ++ ", " ++ Text.quoteVisibly raw ++ ")"
  | punctuator mark => mark.name
  | lineEnd => "LineTerminator"
  | endOfInput => "Eof"

end Token

end EcmaEval
