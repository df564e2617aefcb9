import EcmaEval.Text.CaseTable

/-!
# Upper and lower case

Case conversion of whole texts.  Every character is mapped on its own, with one exception: the
capital sigma becomes a final sigma at the end of a word.
-/

namespace EcmaEval.Text

/-- The image of a code point under a case mapping given by runs and expansions. -/
private def mapCodePoint (runs : List CaseRun) (expansions : List (Nat × List Nat))
    (c : Char) : List Char :=
  match expansions.lookup c.toNat with
  | some image => image.map Char.ofNat
  | none =>
    match runs.findSome? fun run => run.image? c.toNat with
    | some n => [Char.ofNat n]
    | none => [c]

/-- The upper-case form of one character. -/
def upperChar (c : Char) : List Char :=
  if c.toNat < 0x80 then [c.toUpper] else mapCodePoint upperRuns upperExpansions c

/-- The lower-case form of one character, wherever it stands. -/
def lowerChar (c : Char) : List Char :=
  if c.toNat < 0x80 then [c.toLower] else mapCodePoint lowerRuns lowerExpansions c

/-- The first character that is not case-ignorable is cased. -/
def casedAhead (cs : List Char) : Bool :=
  match cs.find? fun c => !caseIgnorableRanges.contains c with
  | some c => casedRanges.contains c
  | none => false

/-- The capital sigma, the one character whose lower-case form depends on its neighbours. -/
def capitalSigma : Char := Char.ofNat 0x3A3

/-- A capital sigma ends a word when a cased character stands before it and none after it. -/
def lowerSigma (before after : List Char) : Char :=
  if casedAhead before && !casedAhead after then Char.ofNat 0x3C2 else Char.ofNat 0x3C3

/-- The upper-case form of a text. -/
def toUpper (cs : List Char) : List Char :=
  cs.flatMap upperChar

/-- The lower-case form of a text; `before` holds what was passed, nearest character first. -/
def toLowerAfter (before : List Char) : List Char → List Char
  | [] => []
  | c :: rest =>
    (if c == capitalSigma then [lowerSigma before rest] else lowerChar c)
      ++ toLowerAfter (c :: before) rest

/-- The lower-case form of a text. -/
def toLower (cs : List Char) : List Char :=
  toLowerAfter [] cs

end EcmaEval.Text
