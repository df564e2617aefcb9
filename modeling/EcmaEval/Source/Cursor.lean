import EcmaEval.Text.Blank

/-!
# Cursors

A cursor stands between two characters of a source text.  It holds the text still to be read and
the place reached so far.

## Main definitions

* `Cursor`: the text to be read and the place reached
* `Cursor.next?`: the next character, and the cursor behind it
* `Cursor.breakLine`: the cursor behind the end of a line

## Main results

* `length_skip_lt`, `length_skipWhile_le`: reading leaves less text, or as much
-/

namespace EcmaEval

/-- A place in a source text. -/
structure Position where
  /-- The line, counted from one. -/
  line : Nat
  /-- The characters of the line before the place. -/
  column : Nat
  /-- The bytes of the text before the place, in UTF-8. -/
  offset : Nat
  deriving DecidableEq, Repr

/-- A place in a source text together with the text after it. -/
structure Cursor extends Position where
  /-- The characters still to be read. -/
  rest : List Char

namespace Cursor

/-- The cursor at the front of a text. -/
def ofText (source : String) : Cursor where
  line := 1
  column := 0
  offset := 0
  rest := source.toList

/-- The next character. -/
def peek? (c : Cursor) : Option Char := c.rest.head?

/-- The next character and the cursor behind it. -/
def next? (c : Cursor) : Option (Char × Cursor) :=
  match c.rest with
  | [] => none
  | ch :: rest =>
    some (ch, { c with rest, column := c.column + 1, offset := c.offset + ch.utf8Size })

/-- The cursor behind the next character, or where it was at the end. -/
def skip (c : Cursor) : Cursor :=
  match c.next? with
  | some (_, d) => d
  | none => c

/-- The cursor `n` characters on. -/
def skipBy (c : Cursor) : Nat → Cursor
  | 0 => c
  | n + 1 => c.skip.skipBy n

/-- The cursor behind the next character, if that is `ch`. -/
def skipIf? (c : Cursor) (ch : Char) : Option Cursor :=
  if c.peek? == some ch then some c.skip else none

/-- The bytes of a text in UTF-8. -/
def byteCount (cs : List Char) : Nat :=
  cs.foldl (fun n ch => n + ch.utf8Size) 0

/-- The characters of a class at the cursor, and the cursor behind them. -/
def span (c : Cursor) (p : Char → Bool) : List Char × Cursor :=
  let taken := c.rest.takeWhile p
  (taken,
    { c with
      rest := c.rest.dropWhile p
      column := c.column + taken.length
      offset := c.offset + byteCount taken })

/-- The cursor behind the characters of a class. -/
def skipWhile (c : Cursor) (p : Char → Bool) : Cursor :=
  (c.span p).2

/-- The start of the next line, for a cursor behind the line end `ch`.  A line feed after a
carriage return belongs to the same line end. -/
def breakLine (c : Cursor) (ch : Char) : Cursor :=
  let c := if ch == '\r' then (c.skipIf? '\n').getD c else c
  { c with line := c.line + 1, column := 0 }

/-- The characters between two cursors of one text. -/
def between (start stop : Cursor) : List Char :=
  start.rest.take (start.rest.length - stop.rest.length)

/-! ## What is left after a step -/

theorem length_of_next? {c d : Cursor} {ch : Char} (h : c.next? = some (ch, d)) :
    d.rest.length + 1 = c.rest.length := by
  unfold next? at h
  split at h
  · cases h
  · next heq =>
    cases h
    simp [heq]

theorem length_skip_le (c : Cursor) : c.skip.rest.length ≤ c.rest.length := by
  unfold skip
  split
  · next h => exact Nat.le_of_lt (by have := length_of_next? h; omega)
  · exact Nat.le_refl _

theorem length_skip_lt {c : Cursor} {ch : Char} (h : c.peek? = some ch) :
    c.skip.rest.length < c.rest.length := by
  cases hr : c.rest with
  | nil => simp [peek?, hr] at h
  | cons a r => simp [skip, next?, hr]

theorem length_skipIf?_lt {c d : Cursor} {ch : Char} (h : c.skipIf? ch = some d) :
    d.rest.length < c.rest.length := by
  unfold skipIf? at h
  split at h
  · next hp =>
    cases h
    exact length_skip_lt (by simpa using hp)
  · cases h

theorem length_skipBy_le (c : Cursor) (n : Nat) :
    (c.skipBy n).rest.length ≤ c.rest.length := by
  induction n generalizing c with
  | zero => exact Nat.le_refl _
  | succ n ih => exact Nat.le_trans (ih c.skip) c.length_skip_le

theorem length_skipWhile_le (c : Cursor) (p : Char → Bool) :
    (c.skipWhile p).rest.length ≤ c.rest.length := by
  simpa [skipWhile, span] using (List.dropWhile_sublist p).length_le

theorem length_breakLine_le (c : Cursor) (ch : Char) :
    (c.breakLine ch).rest.length ≤ c.rest.length := by
  unfold breakLine
  split
  · cases h : c.skipIf? '\n' with
    | none => exact Nat.le_refl _
    | some d => exact Nat.le_of_lt (by simpa using length_skipIf?_lt h)
  · exact Nat.le_refl _

end Cursor

end EcmaEval
