import EcmaEval.Token.Escape
import EcmaEval.Token.Numeral

/-!
# Reading tokens

`Lexer.next` reads the token at a cursor, past blanks and comments.  Two kinds of token depend on
the grammar and have readers of their own: a regular expression, which begins like a division, and
the part of a template behind a substitution, which begins like the end of a block.

## Main definitions

* `Lexer.next`: the next token
* `Lexer.readRegExp`: the regular expression at a cursor
* `Lexer.readTemplateContinuation`: the part of a template behind a substitution
* `Lexer.tokens`: all tokens of a text

## Main results

* `Lexer.length_next_lt`: a token that is not the end takes some text
-/

namespace EcmaEval.Lexer

open Scan

/-- Passes a block comment, behind its opening mark.  The value tells whether it had a line end. -/
def skipBlockComment (c : Cursor) (seenLine : Bool) : Result Bool :=
  match h : c.next? with
  | none => stopAtEnd .unterminatedComment c
  | some (ch, d) =>
    have := Cursor.length_of_next? h
    have := d.length_breakLine_le ch
    if ch == '*' && d.peek? == some '/' then .ok seenLine d.skip
    else if Text.isLineEnd ch then skipBlockComment (d.breakLine ch) true
    else skipBlockComment d seenLine
termination_by c.rest.length

/-- Reads a string up to its quote; `seen` is the part read so far. -/
def readString (c : Cursor) (quote : Char) (seen : String) : Result Token :=
  match h : c.next? with
  | none => stopAtEnd .unterminatedString c
  | some (ch, d) =>
    have := Cursor.length_of_next? h
    if ch == quote then .ok (.string seen) d
    else if Text.isLineEnd ch then stop .unterminatedString d
    else if ch == '\\' then
      match he : Escape.read d with
      | .ok cs e =>
        have := Escape.length_of_read_ok he
        readString e quote (cs.foldl String.push seen)
      | .error x e => .error x e
    else readString d quote (seen.push ch)
termination_by c.rest.length

/-- Reads the rest of an identifier and tells whether it has an escape.  A backslash that begins
no escape ends the name. -/
def readName (c : Cursor) (name : String) (escaped : Bool) : (String × Bool) × Cursor :=
  match h : c.next? with
  | none => ((name, escaped), c)
  | some (ch, d) =>
    have := Cursor.length_of_next? h
    if isIdentifierPart ch then readName d (name.push ch) escaped
    else if ch == '\\' then
      match he : Escape.readIdentifierEscape d with
      | .ok esc e =>
        have := Escape.length_of_readIdentifierEscape_ok he
        readName e (name.push esc) true
      | .error _ e => ((name, escaped), e)
    else ((name, escaped), c)
termination_by c.rest.length

/-- The token that a name is.  A name with an escape is never a reserved word. -/
def nameToken (name : String) (escaped : Bool) : Token :=
  if escaped then .identifier name
  else if name == "true" then .boolean true
  else if name == "false" then .boolean false
  else if name == "null" then .null
  else
    match Keyword.ofText? name with
    | some word => .keyword word
    | none => .identifier name

/-- The name that begins with the character `first`. -/
def readIdentifier (c : Cursor) (first : Char) (escaped : Bool) : Result Token :=
  let ((name, escaped), d) := readName c first.toString escaped
  .ok (nameToken name escaped) d

/-- Reads the characters of a template up to its quote or the next substitution.  The value holds
the text with escapes read, unless one is invalid, the text as written, and whether the quote was
found.  Every line end counts as a line feed. -/
def readTemplate (c : Cursor) (cooked : Option String) (raw : String) :
    Result (Option String × String × Bool) :=
  match h : c.next? with
  | none => stopAtEnd .unterminatedTemplate c
  | some (ch, d) =>
    have := Cursor.length_of_next? h
    if ch == '\x60' then .ok (cooked, raw, true) d
    else if ch == '$' && d.peek? == some '\x7b' then .ok (cooked, raw, false) d.skip
    else if ch == '\\' then
      match he : Escape.read d with
      | .ok cs e =>
        have := Escape.length_of_read_ok he
        readTemplate e (cooked.map fun s => cs.foldl String.push s)
          ((Cursor.between d e).foldl String.push (raw.push ch))
      | .error x e =>
        have := Escape.length_of_read_error he
        -- An invalid escape takes only the read text away, unless the source ends in it.
        if x.atEnd then .error x e
        else readTemplate e none ((Cursor.between d e).foldl String.push (raw.push ch))
    else if Text.isLineEnd ch then
      have := d.length_breakLine_le ch
      readTemplate (d.breakLine ch) (cooked.map (·.push '\n')) (raw.push '\n')
    else readTemplate d (cooked.map (·.push ch)) (raw.push ch)
termination_by c.rest.length

/-- A template token, as the part of a template that begins behind `c`. -/
def readTemplatePart (c : Cursor) (closed opened : TemplatePart) : Result Token :=
  (readTemplate c (some "") "").map fun (cooked, raw, isTail) =>
    .template (if isTail then closed else opened) cooked raw

/-- The part of a template behind the brace that closes a substitution. -/
def readTemplateContinuation (c : Cursor) : Result Token :=
  readTemplatePart c .tail .middle

/-- Reads the pattern of a regular expression up to its closing slash.  A slash in a character
class does not close it, and a backslash takes the next character along. -/
def readPattern (c : Cursor) (pattern : String) (inClass : Bool) : Result String :=
  match h : c.next? with
  | none => stopAtEnd .unterminatedRegExp c
  | some (ch, d) =>
    have := Cursor.length_of_next? h
    -- The error stands before the line end, which is not part of the expression.
    if Text.isLineEnd ch then stop .unterminatedRegExp c
    else if ch == '/' && !inClass then .ok pattern d
    else if ch == '\\' then
      match h' : d.next? with
      | none => stopAtEnd .unterminatedRegExp d
      | some (ch', e) =>
        have := Cursor.length_of_next? h'
        readPattern e ((pattern.push ch).push ch') inClass
    else readPattern d (pattern.push ch) (ch == '[' || (inClass && ch != ']'))
termination_by c.rest.length

/-- A regular expression behind its opening slash. -/
def readRegExp (c : Cursor) : Result Token :=
  match readPattern c "" false with
  | .ok pattern d =>
    let (flags, e) := d.span isIdentifierPart
    .ok (.regExp pattern (String.ofList flags)) e
  | .error x d => .error x d

/-- The longest punctuator at `c`, whose first character is `ch`. -/
def readPunctuator (c : Cursor) (ch : Char) : Result Token :=
  match Punctuator.longestAt? c.rest with
  | some p => .ok (.punctuator p) (c.skipBy p.spelling.length)
  | none => stop (.strayCharacter ch) c.skip

/-- The token at `c`, where neither a blank nor a comment nor a line end stands; `ch` is its first
character and `d` the cursor behind that. -/
def readAt (c : Cursor) (ch : Char) (d : Cursor) : Result Token :=
  if ch == '\x27' || ch == '"' then readString d ch ""
  else if ch == '\x60' then readTemplatePart d .whole .head
  else if Number.isDecimalDigit ch || (ch == '.' && d.peek?.any Number.isDecimalDigit) then
    Numeral.read d ch
  else if ch == '\\' then
    match Escape.readIdentifierEscape d with
    | .ok first e => readIdentifier e first true
    | .error x e => .error x e
  else if isIdentifierStart ch then readIdentifier d ch false
  else readPunctuator c ch

/-- The character does not end a line. -/
def onLine (ch : Char) : Bool := !Text.isLineEnd ch

theorem length_skipBlockComment_le (c : Cursor) (seenLine : Bool) :
    (skipBlockComment c seenLine).cursor.rest.length ≤ c.rest.length := by
  fun_induction skipBlockComment c seenLine with
  | case1 => exact Nat.le_refl _
  | case2 c _ _ d =>
    have := d.length_skip_le
    simp only [Result.cursor]
    omega
  | case3 => omega
  | case4 => omega

/-- The next token.  A comment that spans lines counts as a line end, and a line that begins the
text with a number sign and an exclamation mark is a comment. -/
def next (start : Cursor) : Result Token :=
  let c := start.skipWhile Text.isSeparator
  have : c.rest.length ≤ start.rest.length := start.length_skipWhile_le Text.isSeparator
  match h : c.next? with
  | none => .ok .endOfInput c
  | some (ch, d) =>
    have := Cursor.length_of_next? h
    have := d.length_skipWhile_le onLine
    if Text.isLineEnd ch then .ok .lineEnd (d.breakLine ch)
    else if ch == '/' && d.peek? == some '/' then next (d.skipWhile onLine)
    else if ch == '/' && d.peek? == some '*' then
      match hb : skipBlockComment d.skip false with
      | .ok true e => .ok .lineEnd e
      | .ok false e =>
        have : e.rest.length ≤ d.skip.rest.length := by
          simpa [hb, Result.cursor] using length_skipBlockComment_le d.skip false
        have := d.length_skip_le
        next e
      | .error x e => .error x e
    -- Only at the very beginning, where not even a blank stands before it.
    else if ch == '#' && c.offset == 0 && d.peek? == some '!' then next (d.skipWhile onLine)
    else readAt c ch d
termination_by start.rest.length

/-! ## Progress

Every reader stops at or behind the cursor where it began, and a token other than the end of the
text takes at least one character. -/

theorem length_readString_le (c : Cursor) (quote : Char) (seen : String) :
    (readString c quote seen).cursor.rest.length ≤ c.rest.length := by
  fun_induction readString c quote seen with
  | case1 => exact Nat.le_refl _
  | case2 => simp only [Result.cursor]; omega
  | case3 => simp only [Result.cursor, stop]; omega
  | case4 => omega
  | case5 =>
    next he =>
    have := Escape.length_of_read_error he
    simp only [Result.cursor]
    omega
  | case6 => omega

theorem length_readName_le (c : Cursor) (name : String) (escaped : Bool) :
    (readName c name escaped).2.rest.length ≤ c.rest.length := by
  fun_induction readName c name escaped with
  | case1 => exact Nat.le_refl _
  | case2 => omega
  | case3 => omega
  | case4 =>
    next he =>
    have := Escape.length_of_readIdentifierEscape_error he
    dsimp only
    omega
  | case5 => exact Nat.le_refl _

theorem length_readTemplate_le (c : Cursor) (cooked : Option String) (raw : String) :
    (readTemplate c cooked raw).cursor.rest.length ≤ c.rest.length := by
  fun_induction readTemplate c cooked raw with
  | case1 => exact Nat.le_refl _
  | case2 => simp only [Result.cursor]; omega
  | case3 =>
    simp only [Result.cursor]
    exact Nat.le_trans (Cursor.length_skip_le _) (by omega)
  | case4 => omega
  | case5 => simp only [Result.cursor]; omega
  | case6 => omega
  | case7 => omega
  | case8 => omega

theorem length_readPattern_le (c : Cursor) (pattern : String) (inClass : Bool) :
    (readPattern c pattern inClass).cursor.rest.length ≤ c.rest.length := by
  fun_induction readPattern c pattern inClass with
  | case1 => exact Nat.le_refl _
  | case2 => exact Nat.le_refl _
  | case3 => simp only [Result.cursor]; omega
  | case4 => simp only [Result.cursor, stopAtEnd]; omega
  | case5 => omega
  | case6 => omega

theorem length_readIdentifier_le (c : Cursor) (first : Char) (escaped : Bool) :
    (readIdentifier c first escaped).cursor.rest.length ≤ c.rest.length :=
  length_readName_le _ _ _

theorem length_readTemplatePart_le (c : Cursor) (closed opened : TemplatePart) :
    (readTemplatePart c closed opened).cursor.rest.length ≤ c.rest.length := by
  unfold readTemplatePart
  rw [Escape.Result.cursor_map]
  exact length_readTemplate_le _ _ _

theorem length_readPunctuator_lt {c d : Cursor} {ch : Char} (h : c.next? = some (ch, d)) :
    (readPunctuator c ch).cursor.rest.length < c.rest.length := by
  have hskip : c.skip.rest.length < c.rest.length := by
    have := Cursor.length_of_next? h
    simp only [Cursor.skip, h]
    omega
  unfold readPunctuator
  split
  · next p _ =>
    have hp : 0 < p.spelling.length := by cases p <;> decide
    obtain ⟨n, hn⟩ : ∃ n, p.spelling.length = n + 1 :=
      ⟨_, (Nat.succ_pred_eq_of_pos hp).symm⟩
    rw [hn]
    exact Nat.lt_of_le_of_lt (Cursor.length_skipBy_le _ n) hskip
  · exact hskip

/-- A token takes at least its first character. -/
theorem length_readAt_lt {c d : Cursor} {ch : Char} (h : c.next? = some (ch, d)) :
    (readAt c ch d).cursor.rest.length < c.rest.length := by
  have hd := Cursor.length_of_next? h
  unfold readAt
  split
  · have := length_readString_le d ch ""
    omega
  · split
    · have := length_readTemplatePart_le d .whole .head
      omega
    · split
      · have := Numeral.length_read_le d ch
        omega
      · split
        · split
          · next first e he =>
            have := Escape.length_of_readIdentifierEscape_ok he
            have := length_readIdentifier_le e first true
            omega
          · next he =>
            have := Escape.length_of_readIdentifierEscape_error he
            simp only [Result.cursor]
            omega
        · split
          · have := length_readIdentifier_le d ch false
            omega
          · exact length_readPunctuator_lt h

/-- Reading either finds the end of the text or takes at least one character. -/
theorem length_next_lt {start c : Cursor} {token : Token} (h : next start = .ok token c)
    (hend : token ≠ .endOfInput) : c.rest.length < start.rest.length := by
  fun_induction next start with
  | case1 => simp_all
  | case2 start c' _ ch d =>
    have := d.length_breakLine_le ch
    cases h
    omega
  | case3 _ _ _ _ _ _ _ _ _ _ ih => have := ih h; omega
  | case4 _ _ _ _ d _ _ _ _ _ _ e he =>
    have h₁ := length_skipBlockComment_le d.skip false
    have h₂ := d.length_skip_le
    rw [he] at h₁
    cases h
    simp only [Result.cursor] at *
    omega
  | case5 _ _ _ _ _ _ _ _ _ _ _ _ _ _ _ ih => have := ih h; omega
  | case6 => cases h
  | case7 _ _ _ _ _ _ _ _ _ _ _ _ ih => have := ih h; omega
  | case8 _ _ _ _ _ hn =>
    have := length_readAt_lt hn
    rw [h] at this
    simp only [Result.cursor] at this
    omega

/-- The next token that is no line end, and whether a line end stands before it; `seen` tells
whether one was passed already. -/
def nextOnLine (c : Cursor) (seen : Bool) : Result (Token × Bool) :=
  match h : next c with
  | .error x d => .error x d
  | .ok .lineEnd d =>
    have := length_next_lt h (by simp)
    nextOnLine d true
  | .ok token d => .ok (token, seen) d
termination_by c.rest.length

theorem length_nextOnLine_lt {c d : Cursor} {seen line : Bool} {token : Token}
    (h : nextOnLine c seen = .ok (token, line) d) (hend : token.isEnd = false) :
    d.rest.length < c.rest.length := by
  fun_induction nextOnLine c seen with
  | case1 => cases h
  | case2 c seen d' hnext _ ih => exact Nat.lt_trans (ih h) (length_next_lt hnext nofun)
  | case3 c seen token' d' _ hnext =>
    cases h
    exact length_next_lt hnext fun heq => by rw [heq] at hend; cases hend

/-- The tokens from `c` to the end of the text, at most `fuel` of them. -/
def tokensWithin (c : Cursor) : (fuel : Nat) → Result (List Token)
  | 0 => .ok [] c
  | fuel + 1 =>
    match next c with
    | .error x d => .error x d
    | .ok .endOfInput d => .ok [.endOfInput] d
    | .ok token d => (tokensWithin d fuel).map (token :: ·)

/-- All tokens of a text, the end of the text included. -/
def tokens (source : String) : Result (List Token) :=
  let c := Cursor.ofText source
  tokensWithin c (c.rest.length + 1)

end EcmaEval.Lexer
