import EcmaEval.Source.Scan
import EcmaEval.Number.Read

/-!
# Escape sequences

What may follow a backslash in a string, a template or an identifier.  A cursor handed to these
functions stands behind the backslash.

## Main definitions

* `Escape.read`: the text of an escape sequence
* `Escape.readCodePoint`: a character by its number

## Main results

* `Escape.length_read_le`: an escape sequence leaves no more text than there was
-/

namespace EcmaEval.Escape

open Scan

/-- The value of a hexadecimal digit. -/
def hexValue? (c : Char) : Option Nat :=
  Number.digitValue? 16 c

/-- The character of a code point; a surrogate has none and gives the replacement character. -/
def charOf (n : Nat) : Char :=
  if n.isValidChar then Char.ofNat n else Char.ofNat 0xFFFD

/-- Reads the digits of a code point up to the closing brace; `value` is what was read so far. -/
def readBraced (c : Cursor) (value : Nat) (started : Bool) : Result Char :=
  match h : c.next? with
  | none => stopAtEnd .unterminatedCodePoint c
  | some (ch, d) =>
    have : d.rest.length < c.rest.length := by have := Cursor.length_of_next? h; omega
    if ch == '\x7d' && started then .ok (charOf value) d
    else
      match hexValue? ch with
      | none => stop .invalidUnicodeEscape d
      | some digit =>
        if 0x10FFFF < value * 16 + digit then stop .undefinedCodePoint d
        else readBraced d (value * 16 + digit) true
termination_by c.rest.length

/-- Reads exactly `count` hexadecimal digits. -/
def readQuad (c : Cursor) (value : Nat) : (count : Nat) → Result Char
  | 0 => .ok (charOf value) c
  | count + 1 =>
    match c.next? with
    | none => stop .invalidUnicodeEscape c
    | some (ch, d) =>
      match hexValue? ch with
      | none => stop .invalidUnicodeEscape d
      | some digit => readQuad d (value * 16 + digit) count

/-- A code point: four hexadecimal digits, or any number of them in braces.  The cursor stands
behind the `u`. -/
def readCodePoint (c : Cursor) : Result Char :=
  match c.skipIf? '\x7b' with
  | some d => readBraced d 0 false
  | none => readQuad c 0 4

/-- A code point with its `u`, the one escape of identifiers. -/
def readIdentifierEscape (c : Cursor) : Result Char :=
  match c.skipIf? 'u' with
  | some d => readCodePoint d
  | none => stop .invalidToken c

/-- Up to `count` more octal digits. -/
def readOctal (c : Cursor) (value : Nat) : (count : Nat) → Result (List Char)
  | 0 => .ok [Char.ofNat value] c
  | count + 1 =>
    match c.peek? with
    | some d =>
      if '0' ≤ d && d ≤ '7' then readOctal c.skip (value * 8 + (d.toNat - 0x30)) count
      else .ok [Char.ofNat value] c
    | none => .ok [Char.ofNat value] c

/-- Two hexadecimal digits.  Both characters are passed before either is looked at. -/
def readHexPair (c : Cursor) : Result (List Char) :=
  match c.next? with
  | none => stop .invalidHexEscape c
  | some (high, d) =>
    match d.next? with
    | none => stop .invalidHexEscape d
    | some (low, e) =>
      match hexValue? high, hexValue? low with
      | some a, some b => .ok [Char.ofNat (a * 16 + b)] e
      | _, _ => stop .invalidHexEscape e

/-- The character of an escape by a single letter. -/
def letterEscape? (c : Char) : Option Char :=
  if c == 'n' then some '\n'
  else if c == 'r' then some '\r'
  else if c == 't' then some '\t'
  else if c == 'b' then some (Char.ofNat 0x8)
  else if c == 'f' then some (Char.ofNat 0xC)
  else if c == 'v' then some (Char.ofNat 0xB)
  else none

/-- The characters that an escape in a string or template stands for.  A line end stands for
none, and a character without meaning for itself. -/
def read (c : Cursor) : Result (List Char) :=
  match c.next? with
  | none => stopAtEnd .unterminatedEscape c
  | some (ch, d) =>
    match letterEscape? ch with
    | some e => .ok [e] d
    | none =>
      if ch == '0' && !(d.peek?.any Number.isDecimalDigit) then .ok [Char.ofNat 0] d
      else if '0' ≤ ch && ch ≤ '7' then
        readOctal d (ch.toNat - 0x30) (if ch ≤ '3' then 2 else 1)
      else if ch == 'x' then readHexPair d
      else if ch == 'u' then (readCodePoint d).map fun c => [c]
      else if Text.isLineEnd ch then .ok [] (d.breakLine ch)
      else .ok [ch] d

/-! ## What is left after an escape -/

theorem length_readBraced_le (c : Cursor) (value : Nat) (started : Bool) :
    (readBraced c value started).cursor.rest.length ≤ c.rest.length := by
  fun_induction readBraced c value started with
  | case1 => exact Nat.le_refl _
  | case2 => simp only [Result.cursor]; omega
  | case3 => simp only [Result.cursor, stop]; omega
  | case4 => simp only [Result.cursor, stop]; omega
  | case5 => omega

theorem length_readQuad_le (c : Cursor) (value count : Nat) :
    (readQuad c value count).cursor.rest.length ≤ c.rest.length := by
  induction count generalizing c value with
  | zero => exact Nat.le_refl _
  | succ count ih =>
    unfold readQuad
    split
    · exact Nat.le_refl _
    · next ch d h =>
      have hd := Cursor.length_of_next? h
      split
      · simp [Result.cursor, stop]; omega
      · exact Nat.le_trans (ih _ _) (by omega)

theorem length_readCodePoint_le (c : Cursor) :
    (readCodePoint c).cursor.rest.length ≤ c.rest.length := by
  unfold readCodePoint
  split
  · next h =>
    exact Nat.le_trans (length_readBraced_le _ _ _) (Nat.le_of_lt (Cursor.length_skipIf?_lt h))
  · exact length_readQuad_le _ _ _

theorem length_readIdentifierEscape_le (c : Cursor) :
    (readIdentifierEscape c).cursor.rest.length ≤ c.rest.length := by
  unfold readIdentifierEscape
  split
  · next h =>
    exact Nat.le_trans (length_readCodePoint_le _) (Nat.le_of_lt (Cursor.length_skipIf?_lt h))
  · exact Nat.le_refl _

theorem length_readOctal_le (c : Cursor) (value count : Nat) :
    (readOctal c value count).cursor.rest.length ≤ c.rest.length := by
  induction count generalizing c value with
  | zero => exact Nat.le_refl _
  | succ count ih =>
    unfold readOctal
    split
    · split
      · exact Nat.le_trans (ih _ _) c.length_skip_le
      · exact Nat.le_refl _
    · exact Nat.le_refl _

theorem length_readHexPair_le (c : Cursor) :
    (readHexPair c).cursor.rest.length ≤ c.rest.length := by
  unfold readHexPair
  split
  · exact Nat.le_refl _
  · next h =>
    have := Cursor.length_of_next? h
    split
    · simp [Result.cursor, stop]; omega
    · next h' =>
      have := Cursor.length_of_next? h'
      split <;> simp [Result.cursor, stop] <;> omega

theorem Result.cursor_map {α β : Type} (f : α → β) (r : Scan.Result α) :
    (r.map f).cursor = r.cursor := by
  cases r <;> rfl

theorem length_read_le (c : Cursor) : (read c).cursor.rest.length ≤ c.rest.length := by
  unfold read
  split
  · exact Nat.le_refl _
  · next h =>
    have hd := Cursor.length_of_next? h
    split
    · simp [Result.cursor]; omega
    · split
      · simp [Result.cursor]; omega
      · split
        · exact Nat.le_trans (length_readOctal_le _ _ _) (by omega)
        · split
          · exact Nat.le_trans (length_readHexPair_le _) (by omega)
          · split
            · rw [Result.cursor_map]
              exact Nat.le_trans (length_readCodePoint_le _) (by omega)
            · split
              · exact Nat.le_trans (Cursor.length_breakLine_le _ _) (by omega)
              · simp [Result.cursor]; omega

theorem length_of_read_ok {c d : Cursor} {cs : List Char} (h : read c = .ok cs d) :
    d.rest.length ≤ c.rest.length := by
  simpa [h, Result.cursor] using length_read_le c

theorem length_of_read_error {c d : Cursor} {e : LexError} (h : read c = .error e d) :
    d.rest.length ≤ c.rest.length := by
  simpa [h, Result.cursor] using length_read_le c

theorem length_of_readIdentifierEscape_ok {c d : Cursor} {ch : Char}
    (h : readIdentifierEscape c = .ok ch d) : d.rest.length ≤ c.rest.length := by
  simpa [h, Result.cursor] using length_readIdentifierEscape_le c

theorem length_of_readIdentifierEscape_error {c d : Cursor} {e : LexError}
    (h : readIdentifierEscape c = .error e d) : d.rest.length ≤ c.rest.length := by
  simpa [h, Result.cursor] using length_readIdentifierEscape_le c

end EcmaEval.Escape
