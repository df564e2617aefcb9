import EcmaEval.Text.VisibleTable

/-!
# Quoted text

Two ways to write a text between double quotes.  `quote` is the form in which values are shown:
only the quote, the backslash and the controls are escaped, so that the result is a string literal
of the evaluated language.  `quoteVisibly` is the form of diagnostics, which also escapes every
character that would not be seen.
-/

namespace EcmaEval.Text

/-- The digits of `n` in base sixteen, in lower case. -/
def hexDigits (n : Nat) : List Char :=
  Nat.toDigits 16 n

/-- The last four base-sixteen digits of `n`, with zeros in front. -/
def hexQuad (n : Nat) : List Char :=
  [n / 0x1000, n / 0x100, n / 0x10, n].map fun d => Nat.digitChar (d % 0x10)

/-- A character between the quotes of a shown value. -/
def quoteChar (c : Char) : List Char :=
  if c == '"' then ['\\', '"']
  else if c == '\\' then ['\\', '\\']
  else if c == '\n' then ['\\', 'n']
  else if c == '\r' then ['\\', 'r']
  else if c == '\t' then ['\\', 't']
  else if c.toNat == 0x8 then ['\\', 'b']
  else if c.toNat == 0xC then ['\\', 'f']
  else if c.toNat < 0x20 then '\\' :: 'u' :: hexQuad c.toNat
  else [c]

/-- A text as a string literal. -/
def quote (s : String) : String :=
  String.ofList ('"' :: (s.toList.flatMap quoteChar ++ ['"']))

/-- A character between the quotes of a diagnostic. -/
def quoteCharVisibly (c : Char) : List Char :=
  if c.toNat == 0 then ['\\', '0']
  else if c == '\t' then ['\\', 't']
  else if c == '\r' then ['\\', 'r']
  else if c == '\n' then ['\\', 'n']
  else if c == '"' then ['\\', '"']
  else if c == '\\' then ['\\', '\\']
  else if isVisible c then [c]
  else ['\\', 'u', '\x7b'] ++ hexDigits c.toNat ++ ['\x7d']

/-- A text as a diagnostic quotes it. -/
def quoteVisibly (s : String) : String :=
  String.ofList ('"' :: (s.toList.flatMap quoteCharVisibly ++ ['"']))

/-- A text that may be missing, as a diagnostic quotes it. -/
def quoteOptionVisibly : Option String → String
  | some s => "Some(" ++ quoteVisibly s ++ ")"
  | none => "None"

end EcmaEval.Text
