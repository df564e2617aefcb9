/-!
# Classes of characters

A class of characters is a list of inclusive ranges of code points.

Three classes of blank characters are in use, and they differ.

* `isWhiteSpace` is the Unicode property `White_Space`.  The conversion of a text to a number
  drops these characters from both ends.
* `isBlankUnit` is the class that `trim` removes from a string.  It has the byte order mark and
  lacks the next-line control.
* `isLineEnd` holds of the four characters that end a line of source text.
-/

namespace EcmaEval.Text

/-- Inclusive ranges of code points. -/
abbrev Ranges := List (Nat × Nat)

/-- Whether the code point of `c` lies in one of the ranges. -/
def Ranges.contains (ranges : Ranges) (c : Char) : Bool :=
  ranges.any fun range => range.1 ≤ c.toNat && c.toNat ≤ range.2

theorem Ranges.contains_iff (ranges : Ranges) (c : Char) :
    ranges.contains c = true ↔ ∃ r ∈ ranges, r.1 ≤ c.toNat ∧ c.toNat ≤ r.2 := by
  simp [Ranges.contains, List.any_eq_true]

/-- The ranges of the property `White_Space`. -/
def whiteSpaceRanges : Ranges :=
  [(0x9, 0xD), (0x20, 0x20), (0x85, 0x85), (0xA0, 0xA0), (0x1680, 0x1680),
   (0x2000, 0x200A), (0x2028, 0x2029), (0x202F, 0x202F), (0x205F, 0x205F), (0x3000, 0x3000)]

/-- `White_Space` holds of `c`. -/
def isWhiteSpace (c : Char) : Bool :=
  whiteSpaceRanges.contains c

/-- The characters that end a line: line feed, carriage return and the two separators. -/
def isLineEnd (c : Char) : Bool :=
  c == '\n' || c == '\r' || c.toNat == 0x2028 || c.toNat == 0x2029

/-- The byte order mark, a blank wherever it stands. -/
def byteOrderMark : Char := Char.ofNat 0xFEFF

/-- A blank between two tokens on one line. -/
def isSeparator (c : Char) : Bool :=
  c == byteOrderMark || (isWhiteSpace c && !isLineEnd c)

/-- The code units that `trim` removes. -/
def isBlankUnit (u : UInt16) : Bool :=
  let n := u.toNat
  (0x9 ≤ n && n ≤ 0xD) || n == 0x20 || n == 0xA0 || n == 0x1680 ||
    (0x2000 ≤ n && n ≤ 0x200A) || n == 0x2028 || n == 0x2029 || n == 0x202F ||
    n == 0x205F || n == 0x3000 || n == 0xFEFF

/-- The text without the characters of a class at its two ends. -/
def trimBoth (blank : Char → Bool) (cs : List Char) : List Char :=
  ((cs.dropWhile blank).reverse.dropWhile blank).reverse

end EcmaEval.Text
