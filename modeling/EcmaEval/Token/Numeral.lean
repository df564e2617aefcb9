import EcmaEval.Token.Basic
import EcmaEval.Source.Scan
import EcmaEval.Number.Read
import EcmaEval.Text.IdentifierTable

/-!
# Numeric literals

A literal in radix ten may have a fraction and an exponent; one that begins with a zero and only
octal digits is octal; marks introduce the radices 2, 8 and 16.  Underscores among the digits are
dropped.  The letter `n` behind a literal makes it an unbounded integer.

## Main definitions

* `Numeral.read`: the literal that a digit or a point begins

## Main results

* `Numeral.length_read_le`: a literal leaves no more text than there was
-/

namespace EcmaEval

/-- The character may begin an identifier. -/
def isIdentifierStart (c : Char) : Bool :=
  c == '_' || c == '$' || c.isAlpha || (0x80 ≤ c.toNat && Text.isIdentifierStart c)

/-- The character may go on an identifier. -/
def isIdentifierPart (c : Char) : Bool :=
  c == '_' || c == '$' || c.isAlphanum || c.toNat == 0x200C || c.toNat == 0x200D ||
    (0x80 ≤ c.toNat && Text.isIdentifierContinue c)

namespace Numeral

open Scan Number

/-- The digits of a class at the cursor, without underscores. -/
def spanDigits (c : Cursor) (digit : Char → Bool) : List Char × Cursor :=
  let (taken, d) := c.span fun ch => digit ch || ch == '_'
  (taken.filter (· != '_'), d)

/-- The exponent part at the cursor, or nothing. -/
def spanExponent (c : Cursor) : List Char × Cursor :=
  match c.peek? with
  | some e =>
    if e == 'e' || e == 'E' then
      let d := c.skip
      let (sign, d) :=
        match d.peek? with
        | some s => if s == '+' || s == '-' then ([s], d.skip) else ([], d)
        | none => ([], d)
      let (digits, d) := spanDigits d isDecimalDigit
      (e :: (sign ++ digits), d)
    else ([], c)
  | none => ([], c)

/-- A point and the digits behind it, or nothing. -/
def spanFraction (c : Cursor) : List Char × Cursor :=
  match c.skipIf? '.' with
  | some d =>
    let (digits, d) := spanDigits d isDecimalDigit
    ('.' :: digits, d)
  | none => ([], c)

/-- A literal must not run into an identifier or a digit. -/
def finish (c : Cursor) (token : Result Token) : Result Token :=
  match c.peek? with
  | some ch =>
    if isIdentifierStart ch || isDecimalDigit ch then stop .invalidToken c else token
  | none => token

/-- A literal in radix ten from its characters. -/
def finishDecimal (c : Cursor) (cs : List Char) : Result Token :=
  finish c <|
    match readNumeral? cs with
    | some x => .ok (.numeric x) c
    | none => stop .invalidNumeral c

/-- The number of digits in a radix, rounded after each digit. -/
def radixValue (radix : Nat) (digits : List Char) : Float :=
  (digits.filterMap (digitValue? radix)).foldl
    (fun acc d => acc * Float.ofNat radix + Float.ofNat d) 0.0

/-- The literal behind the mark of a radix. -/
def readMarked (c : Cursor) (radix : Nat) (mark : String) : Result Token :=
  let (digits, d) := spanDigits c fun ch => (digitValue? radix ch).isSome
  if digits.isEmpty then stop .invalidToken d
  else
    match d.skipIf? 'n' with
    | some e => .ok (.bigint (mark ++ String.ofList digits)) e
    | none => finish d (.ok (.numeric (radixValue radix digits)) d)

/-- A literal that begins with a zero and another digit. -/
def readZeroLed (c : Cursor) : Result Token :=
  let (digits, d) := spanDigits c isDecimalDigit
  let octal := digits.all fun ch => '0' ≤ ch && ch ≤ '7'
  if octal && !(d.peek?.any fun ch => ch == '.' || ch == 'e' || ch == 'E') then
    finish d (.ok (.numeric (radixValue 8 digits)) d)
  else
    let (fraction, d) := spanFraction d
    let (exponent, d) := spanExponent d
    finishDecimal d ('0' :: (digits ++ fraction ++ exponent))

/-- The radix of a mark behind a leading zero, with its normal spelling. -/
def markOf? (ch : Char) : Option (Nat × String) :=
  if ch == 'x' || ch == 'X' then some (16, "0x")
  else if ch == 'o' || ch == 'O' then some (8, "0o")
  else if ch == 'b' || ch == 'B' then some (2, "0b")
  else none

/-- A literal in radix ten whose first character is `first`. -/
def readDecimal (c : Cursor) (first : Char) : Result Token :=
  let (whole, d) := spanDigits c isDecimalDigit
  let (fraction, d) := if first == '.' then ([], d) else spanFraction d
  let (exponent, d) := spanExponent d
  let cs := first :: (whole ++ fraction ++ exponent)
  match d.skipIf? 'n' with
  | some e => .ok (.bigint (String.ofList cs)) e
  | none => finishDecimal d cs

/-- The literal whose first character, a digit or a point, was passed. -/
def read (c : Cursor) (first : Char) : Result Token :=
  if first == '0' then
    match c.peek? with
    | some ch =>
      match markOf? ch with
      | some (radix, mark) => readMarked c.skip radix mark
      | none => if isDecimalDigit ch then readZeroLed c else readDecimal c first
    | none => readDecimal c first
  else readDecimal c first

/-! ## What is left after a literal -/

theorem length_spanDigits_le (c : Cursor) (digit : Char → Bool) :
    (spanDigits c digit).2.rest.length ≤ c.rest.length :=
  c.length_skipWhile_le _

theorem length_spanExponent_le (c : Cursor) :
    (spanExponent c).2.rest.length ≤ c.rest.length := by
  have hskip := c.length_skip_le
  have hskip' := c.skip.length_skip_le
  have hdigits := length_spanDigits_le c.skip isDecimalDigit
  have hdigits' := length_spanDigits_le c.skip.skip isDecimalDigit
  unfold spanExponent
  split
  · split
    · dsimp only
      split
      · split <;> dsimp only <;> omega
      · dsimp only; omega
    · exact Nat.le_refl _
  · exact Nat.le_refl _

theorem length_spanFraction_le (c : Cursor) :
    (spanFraction c).2.rest.length ≤ c.rest.length := by
  unfold spanFraction
  split
  · next d h =>
    exact Nat.le_trans (length_spanDigits_le _ _) (Nat.le_of_lt (Cursor.length_skipIf?_lt h))
  · exact Nat.le_refl _

theorem cursor_finish (c : Cursor) (token : Result Token) (h : token.cursor = c) :
    (finish c token).cursor = c := by
  unfold finish
  split
  · split
    · rfl
    · exact h
  · exact h

theorem cursor_finish_ok (c : Cursor) (token : Token) :
    (finish c (.ok token c)).cursor = c :=
  cursor_finish c _ rfl

theorem cursor_finishDecimal (c : Cursor) (cs : List Char) :
    (finishDecimal c cs).cursor = c := by
  unfold finishDecimal
  apply cursor_finish
  split <;> rfl

theorem length_readMarked_le (c : Cursor) (radix : Nat) (mark : String) :
    (readMarked c radix mark).cursor.rest.length ≤ c.rest.length := by
  have h := length_spanDigits_le c fun ch => (digitValue? radix ch).isSome
  unfold readMarked
  dsimp only
  split
  · exact h
  · split
    · next e he => exact Nat.le_trans (Nat.le_of_lt (Cursor.length_skipIf?_lt he)) h
    · rw [cursor_finish_ok]
      exact h

theorem length_readZeroLed_le (c : Cursor) :
    (readZeroLed c).cursor.rest.length ≤ c.rest.length := by
  have h := length_spanDigits_le c isDecimalDigit
  unfold readZeroLed
  dsimp only
  split
  · rw [cursor_finish_ok]
    exact h
  · rw [cursor_finishDecimal]
    exact Nat.le_trans (length_spanExponent_le _) (Nat.le_trans (length_spanFraction_le _) h)

theorem length_readDecimal_le (c : Cursor) (first : Char) :
    (readDecimal c first).cursor.rest.length ≤ c.rest.length := by
  have h := length_spanDigits_le c isDecimalDigit
  have hf : ∀ d : Cursor,
      (if first == '.' then (([] : List Char), d) else spanFraction d).2.rest.length
        ≤ d.rest.length := by
    intro d
    split
    · exact Nat.le_refl _
    · exact length_spanFraction_le d
  have he := Nat.le_trans (length_spanExponent_le _) (Nat.le_trans (hf _) h)
  unfold readDecimal
  dsimp only
  split
  · next e h' => exact Nat.le_trans (Nat.le_of_lt (Cursor.length_skipIf?_lt h')) he
  · rw [cursor_finishDecimal]
    exact he

theorem length_read_le (c : Cursor) (first : Char) :
    (read c first).cursor.rest.length ≤ c.rest.length := by
  unfold read
  split
  · split
    · split
      · exact Nat.le_trans (length_readMarked_le _ _ _) c.length_skip_le
      · split
        · exact length_readZeroLed_le _
        · exact length_readDecimal_le _ _
    · exact length_readDecimal_le _ _
  · exact length_readDecimal_le _ _

end Numeral

end EcmaEval
