import EcmaEval.Proofs.Syntax.Continued
import EcmaEval.Token.Lexer

/-!
# Reading goes forward

Whatever reads at a cursor stops where it began or behind that, between two characters of the same
text, whether it finds what it reads for or fails.  What begins a token is passed in any case, and
what begins none is passed too.  So only at the end of the text a reader of tokens may stay where it
is, and it stays there for good.

## Main definitions

* `Cursor.Reaches`: one cursor stands at another or behind it, in the same text
* `Lexer.Tokenizes`: the tokens that are read one behind the other, until one is the end

## Main results

* `Lexer.reaches_next`, `Lexer.next_moves`: a reader of tokens goes forward
* `Lexer.rest_of_next_end`: the end is found at the end of the text only
* `Lexer.tokenizes_tokens`: the tokens of a text are read to its end, or to a failure
-/

namespace EcmaEval

open Scan

/-! ## Places in a text -/

namespace Cursor

variable {c d e : Cursor} {ch : Char}

theorem byteCount_cons (ch : Char) (cs : List Char) :
    byteCount (ch :: cs) = ch.utf8Size + byteCount cs := by
  have hfoldl (cs : List Char) (n : Nat) :
      cs.foldl (fun n ch => n + ch.utf8Size) n = n + byteCount cs := by
    unfold byteCount
    induction cs generalizing n with
    | nil => rfl
    | cons ch cs ih =>
      rw [List.foldl_cons, List.foldl_cons, ih, ih (0 + ch.utf8Size)]
      omega
  rw [byteCount, List.foldl_cons, hfoldl, Nat.zero_add]

theorem byteCount_append (cs ds : List Char) :
    byteCount (cs ++ ds) = byteCount cs + byteCount ds := by
  induction cs with
  | nil => exact (Nat.zero_add _).symm
  | cons ch cs ih => rw [List.cons_append, byteCount_cons, byteCount_cons, ih, Nat.add_assoc]

theorem line_of_next? (h : c.next? = some (ch, d)) : d.line = c.line := by
  unfold next? at h
  split at h
  · cases h
  · cases h
    rfl

theorem line_of_skipIf? (h : c.skipIf? ch = some d) : d.line = c.line := by
  unfold skipIf? skip at h
  split at h
  · cases h
    split
    · next hnext => exact line_of_next? hnext
    · rfl
  · cases h

/-- Some characters were passed from the first cursor to the second one.  Each of them adds at most
one to the line and the column. -/
def Reaches (c d : Cursor) : Prop :=
  ∃ taken, c.rest = taken ++ d.rest ∧ d.offset = c.offset + byteCount taken ∧
    d.line + d.column ≤ c.line + c.column + taken.length

namespace Reaches

theorem refl (c : Cursor) : c.Reaches c := ⟨[], rfl, rfl, Nat.le_refl _⟩

theorem trans (h : c.Reaches d) (h' : d.Reaches e) : c.Reaches e := by
  obtain ⟨taken, hrest, hoffset, hplace⟩ := h
  obtain ⟨taken', hrest', hoffset', hplace'⟩ := h'
  refine ⟨taken ++ taken', ?_, ?_, ?_⟩
  · rw [hrest, hrest', List.append_assoc]
  · rw [hoffset', hoffset, byteCount_append, Nat.add_assoc]
  · rw [List.length_append]
    omega

theorem next? (h : c.next? = some (ch, d)) : c.Reaches d := by
  obtain ⟨rest, hrest⟩ : ∃ rest, c.rest = ch :: rest := ⟨_, rest_of_next? h⟩
  rw [next?_of_cons hrest] at h
  cases h
  refine ⟨[ch], hrest, ?_, Nat.le_refl _⟩
  rw [byteCount_cons]
  rfl

theorem skip (c : Cursor) : c.Reaches c.skip := by
  cases h : c.next? with
  | none =>
    unfold Cursor.skip
    rw [h]
    exact refl c
  | some found =>
    rw [skip_of_next? h]
    exact next? h

theorem skipIf? (h : c.skipIf? ch = some d) : c.Reaches d := by
  unfold Cursor.skipIf? at h
  split at h
  · exact Option.some.inj h ▸ skip c
  · cases h

theorem skipBy (c : Cursor) (n : Nat) : c.Reaches (c.skipBy n) := by
  induction n generalizing c with
  | zero => exact refl c
  | succ n ih => exact (skip c).trans (ih c.skip)

theorem span (c : Cursor) (p : Char → Bool) : c.Reaches (c.span p).2 :=
  ⟨c.rest.takeWhile p, List.takeWhile_append_dropWhile.symm, rfl,
    Nat.le_of_eq (Nat.add_assoc ..).symm⟩

/-- A new line counts no more than what ends the line before it. -/
theorem newLine (h : c.Reaches d) (hline : d.line = c.line)
    (hlt : d.rest.length < c.rest.length) :
    c.Reaches { d with line := d.line + 1, column := 0 } := by
  obtain ⟨taken, hrest, hoffset, -⟩ := h
  rw [hrest, List.length_append] at hlt
  refine ⟨taken, hrest, hoffset, ?_⟩
  dsimp only
  omega

theorem breakLine (h : c.next? = some (ch, d)) (last : Char) : c.Reaches (d.breakLine last) := by
  have hlt := Cursor.length_of_next? h
  have hline : d.line = c.line := line_of_next? h
  unfold Cursor.breakLine
  split
  · cases hfeed : d.skipIf? '\n' with
    | none => exact (next? h).newLine hline (by omega)
    | some e =>
      have hlt' := Cursor.length_skipIf?_lt hfeed
      exact ((next? h).trans (skipIf? hfeed)).newLine ((line_of_skipIf? hfeed).trans hline)
        (by omega)
  · exact (next? h).newLine hline (by omega)

theorem length_le (h : c.Reaches d) : d.rest.length ≤ c.rest.length := by
  obtain ⟨taken, hrest, -⟩ := h
  rw [hrest, List.length_append]
  exact Nat.le_add_left _ _

/-- Where less is left, more bytes were passed. -/
theorem offset_lt (h : c.Reaches d) (hlt : d.rest.length < c.rest.length) :
    c.offset < d.offset := by
  obtain ⟨taken, hrest, hoffset, -⟩ := h
  have hne : byteCount taken ≠ 0 := by
    rw [Ne, byteCount_eq_zero_iff]
    rintro rfl
    rw [hrest, List.nil_append] at hlt
    exact Nat.lt_irrefl _ hlt
  omega

end Reaches

/-- The cursor stands between two characters of the text, or at one of its ends. -/
def StandsIn (source : String) (c : Cursor) : Prop :=
  ∃ front, source.toList = front ++ c.rest ∧ c.offset = byteCount front

theorem StandsIn.reaches {source : String} (hc : c.StandsIn source) (h : c.Reaches d) :
    d.StandsIn source := by
  obtain ⟨front, hsource, hoffset⟩ := hc
  obtain ⟨taken, hrest, hoffset', -⟩ := h
  refine ⟨front ++ taken, ?_, ?_⟩
  · rw [hsource, hrest, List.append_assoc]
  · rw [hoffset', hoffset, byteCount_append]

end Cursor

/-! ## Escapes and numerals -/

section Parts

variable {c d : Cursor} {e : LexError}

/-- What is found is found on from the cursor. -/
theorem Scan.Result.reaches_of_ok {α : Type} {x : α} {result : Result α}
    (h : c.Reaches result.cursor) (hresult : result = .ok x d) : c.Reaches d := by
  rwa [hresult] at h

/-- So is what makes a reader fail. -/
theorem Scan.Result.reaches_of_error {α : Type} {result : Result α} (h : c.Reaches result.cursor)
    (hresult : result = .error e d) : c.Reaches d := by
  rwa [hresult] at h

namespace Escape

theorem reaches_readBraced (c : Cursor) (value : Nat) (started : Bool) :
    c.Reaches (readBraced c value started).cursor := by
  fun_induction readBraced c value started with
  | case1 => exact .refl _
  | case2 => exact .next? ‹_›
  | case3 => exact .next? ‹_›
  | case4 => exact .next? ‹_›
  | case5 => exact .trans (.next? ‹_›) ‹_›

theorem reaches_readQuad (c : Cursor) (value count : Nat) :
    c.Reaches (readQuad c value count).cursor := by
  induction count generalizing c value with
  | zero => exact .refl c
  | succ count ih =>
    unfold readQuad
    split
    · exact .refl c
    · next ch d h =>
      split
      · exact .next? h
      · exact .trans (.next? h) (ih d _)

theorem reaches_readCodePoint (c : Cursor) : c.Reaches (readCodePoint c).cursor := by
  unfold readCodePoint
  split
  · next d h => exact .trans (.skipIf? h) (reaches_readBraced d 0 false)
  · exact reaches_readQuad c 0 4

theorem reaches_readIdentifierEscape (c : Cursor) : c.Reaches (readIdentifierEscape c).cursor := by
  unfold readIdentifierEscape
  split
  · next d h => exact .trans (.skipIf? h) (reaches_readCodePoint d)
  · exact .refl c

theorem reaches_readOctal (c : Cursor) (value count : Nat) :
    c.Reaches (readOctal c value count).cursor := by
  induction count generalizing c value with
  | zero => exact .refl c
  | succ count ih =>
    unfold readOctal
    split
    · split
      · exact .trans (.skip c) (ih c.skip _)
      · exact .refl c
    · exact .refl c

theorem reaches_readHexPair (c : Cursor) : c.Reaches (readHexPair c).cursor := by
  unfold readHexPair
  split
  · exact .refl c
  · next high d h =>
    split
    · exact .next? h
    · next low e h' =>
      have he : c.Reaches e := .trans (.next? h) (.next? h')
      split <;> exact he

theorem reaches_read (c : Cursor) : c.Reaches (read c).cursor := by
  unfold read
  split
  · exact .refl c
  · next ch d h =>
    have hd : c.Reaches d := .next? h
    split
    · exact hd
    split
    · exact hd
    split
    · exact hd.trans (reaches_readOctal d _ _)
    split
    · exact hd.trans (reaches_readHexPair d)
    split
    · rw [Result.cursor_map]
      exact hd.trans (reaches_readCodePoint d)
    split
    · exact .breakLine h ch
    · exact hd

end Escape

namespace Numeral

open Number

theorem reaches_spanDigits (c : Cursor) (digit : Char → Bool) : c.Reaches (spanDigits c digit).2 :=
  .span c _

theorem reaches_spanExponent (c : Cursor) : c.Reaches (spanExponent c).2 := by
  have hskip : c.Reaches c.skip := .skip c
  have hsign : c.Reaches c.skip.skip := hskip.trans (.skip c.skip)
  unfold spanExponent
  split
  · split
    · dsimp only
      split
      · split
        · exact hsign.trans (reaches_spanDigits _ _)
        · exact hskip.trans (reaches_spanDigits _ _)
      · exact hskip.trans (reaches_spanDigits _ _)
    · exact .refl c
  · exact .refl c

theorem reaches_spanFraction (c : Cursor) : c.Reaches (spanFraction c).2 := by
  unfold spanFraction
  split
  · next d h => exact .trans (.skipIf? h) (reaches_spanDigits d _)
  · exact .refl c

theorem reaches_readMarked (c : Cursor) (radix : Nat) (mark : String) :
    c.Reaches (readMarked c radix mark).cursor := by
  have hdigits := reaches_spanDigits c fun ch => (digitValue? radix ch).isSome
  unfold readMarked
  dsimp only
  split
  · exact hdigits
  split
  · next e h => exact hdigits.trans (.skipIf? h)
  · rw [cursor_finish_ok]
    exact hdigits

theorem reaches_readZeroLed (c : Cursor) : c.Reaches (readZeroLed c).cursor := by
  have hdigits := reaches_spanDigits c isDecimalDigit
  unfold readZeroLed
  dsimp only
  split
  · rw [cursor_finish_ok]
    exact hdigits
  · rw [cursor_finishDecimal]
    exact (hdigits.trans (reaches_spanFraction _)).trans (reaches_spanExponent _)

theorem reaches_readDecimal (c : Cursor) (first : Char) :
    c.Reaches (readDecimal c first).cursor := by
  have hfraction (d : Cursor) :
      d.Reaches (if first == '.' then (([] : List Char), d) else spanFraction d).2 := by
    split
    · exact .refl d
    · exact reaches_spanFraction d
  have hnumber := ((reaches_spanDigits c isDecimalDigit).trans (hfraction _)).trans
    (reaches_spanExponent _)
  unfold readDecimal
  dsimp only
  split
  · next e h => exact hnumber.trans (.skipIf? h)
  · rw [cursor_finishDecimal]
    exact hnumber

theorem reaches_read (c : Cursor) (first : Char) : c.Reaches (read c first).cursor := by
  unfold read
  split
  · split
    · split
      · exact .trans (.skip c) (reaches_readMarked _ _ _)
      · split
        · exact reaches_readZeroLed c
        · exact reaches_readDecimal c first
    · exact reaches_readDecimal c first
  · exact reaches_readDecimal c first

end Numeral

end Parts

/-! ## Tokens -/

namespace Lexer

variable {start c d : Cursor} {ch : Char}

theorem reaches_skipBlockComment (c : Cursor) (seenLine : Bool) :
    c.Reaches (skipBlockComment c seenLine).cursor := by
  fun_induction skipBlockComment c seenLine with
  | case1 => exact .refl _
  | case2 => exact .trans (.next? ‹_›) (.skip _)
  | case3 => exact .trans (.breakLine ‹_› _) ‹_›
  | case4 => exact .trans (.next? ‹_›) ‹_›

theorem reaches_readString (c : Cursor) (quote : Char) (seen : String) :
    c.Reaches (readString c quote seen).cursor := by
  fun_induction readString c quote seen with
  | case1 => exact .refl _
  | case2 => exact .next? ‹_›
  | case3 => exact .next? ‹_›
  | case4 =>
    next he _ ih =>
    exact (Cursor.Reaches.next? ‹_›).trans
      ((Result.reaches_of_ok (Escape.reaches_read _) he).trans ih)
  | case5 =>
    next he =>
    exact (Cursor.Reaches.next? ‹_›).trans (Result.reaches_of_error (Escape.reaches_read _) he)
  | case6 => exact .trans (.next? ‹_›) ‹_›

theorem reaches_readName (c : Cursor) (name : String) (escaped : Bool) :
    c.Reaches (readName c name escaped).2 := by
  fun_induction readName c name escaped with
  | case1 => exact .refl _
  | case2 => exact .trans (.next? ‹_›) ‹_›
  | case3 =>
    next he _ ih =>
    exact (Cursor.Reaches.next? ‹_›).trans
      ((Result.reaches_of_ok (Escape.reaches_readIdentifierEscape _) he).trans ih)
  | case4 =>
    next he =>
    exact (Cursor.Reaches.next? ‹_›).trans
      (Result.reaches_of_error (Escape.reaches_readIdentifierEscape _) he)
  | case5 => exact .refl _

theorem reaches_readIdentifier (c : Cursor) (first : Char) (escaped : Bool) :
    c.Reaches (readIdentifier c first escaped).cursor :=
  reaches_readName c first.toString escaped

theorem reaches_readTemplate (c : Cursor) (cooked : Option String) (raw : String) :
    c.Reaches (readTemplate c cooked raw).cursor := by
  fun_induction readTemplate c cooked raw with
  | case1 => exact .refl _
  | case2 => exact .next? ‹_›
  | case3 => exact .trans (.next? ‹_›) (.skip _)
  | case4 =>
    next he _ ih =>
    exact (Cursor.Reaches.next? ‹_›).trans
      ((Result.reaches_of_ok (Escape.reaches_read _) he).trans ih)
  | case5 =>
    next he _ _ =>
    exact (Cursor.Reaches.next? ‹_›).trans (Result.reaches_of_error (Escape.reaches_read _) he)
  | case6 =>
    next he _ _ ih =>
    exact (Cursor.Reaches.next? ‹_›).trans
      ((Result.reaches_of_error (Escape.reaches_read _) he).trans ih)
  | case7 => exact .trans (.breakLine ‹_› _) ‹_›
  | case8 => exact .trans (.next? ‹_›) ‹_›

theorem reaches_readTemplatePart (c : Cursor) (closed opened : TemplatePart) :
    c.Reaches (readTemplatePart c closed opened).cursor := by
  unfold readTemplatePart
  rw [Escape.Result.cursor_map]
  exact reaches_readTemplate c _ _

theorem reaches_readPattern (c : Cursor) (pattern : String) (inClass : Bool) :
    c.Reaches (readPattern c pattern inClass).cursor := by
  fun_induction readPattern c pattern inClass with
  | case1 => exact .refl _
  | case2 => exact .refl _
  | case3 => exact .next? ‹_›
  | case4 => exact .next? ‹_›
  | case5 =>
    next h _ ih => exact (Cursor.Reaches.next? ‹_›).trans ((Cursor.Reaches.next? h).trans ih)
  | case6 => exact .trans (.next? ‹_›) ‹_›

theorem reaches_readRegExp (c : Cursor) : c.Reaches (readRegExp c).cursor := by
  have hpattern := reaches_readPattern c "" false
  unfold readRegExp
  generalize readPattern c "" false = result at hpattern
  cases result with
  | ok pattern d => exact hpattern.trans (.span d isIdentifierPart)
  | error e d => exact hpattern

theorem reaches_readPunctuator (c : Cursor) (ch : Char) :
    c.Reaches (readPunctuator c ch).cursor := by
  unfold readPunctuator
  split
  · exact .skipBy c _
  · exact .skip c

theorem reaches_readAt (h : c.next? = some (ch, d)) : c.Reaches (readAt c ch d).cursor := by
  have hd : c.Reaches d := .next? h
  unfold readAt
  split
  · exact hd.trans (reaches_readString d ch "")
  split
  · exact hd.trans (reaches_readTemplatePart d .whole .head)
  split
  · exact hd.trans (Numeral.reaches_read d ch)
  split
  · split
    · next first e he =>
      exact (hd.trans (Result.reaches_of_ok (Escape.reaches_readIdentifierEscape d) he)).trans
        (reaches_readIdentifier e first true)
    · next x e he =>
      exact hd.trans (Result.reaches_of_error (Escape.reaches_readIdentifierEscape d) he)
  split
  · exact hd.trans (reaches_readIdentifier d ch false)
  · exact reaches_readPunctuator c ch

/-- Reading a token goes forward, whatever is found. -/
theorem reaches_next (start : Cursor) : start.Reaches (next start).cursor := by
  have hskip (c : Cursor) : c.Reaches (c.skipWhile Text.isSeparator) := .span c _
  have hline (c : Cursor) : c.Reaches (c.skipWhile onLine) := .span c _
  fun_induction next start with
  | case1 => exact hskip _
  | case2 => exact (hskip _).trans (.breakLine ‹_› _)
  | case3 => exact (hskip _).trans (.trans (.next? ‹_›) (.trans (hline _) ‹_›))
  | case4 =>
    next he =>
    exact (hskip _).trans (.trans (.next? ‹_›) (.trans (.skip _)
      (Result.reaches_of_ok (reaches_skipBlockComment _ _) he)))
  | case5 =>
    next he _ _ ih =>
    exact (hskip _).trans (.trans (.next? ‹_›) (.trans (.skip _)
      ((Result.reaches_of_ok (reaches_skipBlockComment _ _) he).trans ih)))
  | case6 =>
    next he =>
    exact (hskip _).trans (.trans (.next? ‹_›) (.trans (.skip _)
      (Result.reaches_of_error (reaches_skipBlockComment _ _) he)))
  | case7 => exact (hskip _).trans (.trans (.next? ‹_›) (.trans (hline _) ‹_›))
  | case8 => exact (hskip _).trans (reaches_readAt ‹_›)

/-- Where text is left, reading a token takes some of it, whatever is found. -/
theorem length_next_cursor_lt (hstart : start.rest ≠ []) :
    (next start).cursor.rest.length < start.rest.length := by
  have hskip := start.length_skipWhile_le Text.isSeparator
  -- Behind the first character that is no blank, reading only goes on.
  have hbehind {ch : Char} {d e : Cursor}
      (h : (start.skipWhile Text.isSeparator).next? = some (ch, d)) (he : d.Reaches e) :
      e.rest.length < start.rest.length := by
    have := Cursor.length_of_next? h
    have := he.length_le
    omega
  fun_cases next start with
  | case1 c _ hend =>
    have hrest : c.rest = [] := Cursor.rest_of_next?_eq_none hend
    simpa [Result.cursor, hrest, List.length_pos_iff] using hstart
  | case2 => exact Nat.lt_of_le_of_lt (Cursor.length_breakLine_le _ _) (hbehind ‹_› (.refl _))
  | case3 => exact hbehind ‹_› (.trans (.span _ onLine) (reaches_next _))
  | case4 =>
    next he =>
    exact hbehind ‹_› (.trans (.skip _) (Result.reaches_of_ok (reaches_skipBlockComment _ _) he))
  | case5 =>
    next he _ _ =>
    exact hbehind ‹_› (.trans (.skip _)
      ((Result.reaches_of_ok (reaches_skipBlockComment _ _) he).trans (reaches_next _)))
  | case6 =>
    next he =>
    exact hbehind ‹_›
      (.trans (.skip _) (Result.reaches_of_error (reaches_skipBlockComment _ _) he))
  | case7 => exact hbehind ‹_› (.trans (.span _ onLine) (reaches_next _))
  | case8 c _ ch d h =>
    have := length_readAt_lt h
    omega

/-- At the end of the text the end is found, without a step. -/
theorem next_of_end (hstart : start.rest = []) : next start = .ok .endOfInput start := by
  have hskip : start.skipWhile Text.isSeparator = start := by
    obtain ⟨⟨line, column, offset⟩, rest⟩ := start
    cases hstart
    rfl
  have hnone : (start.skipWhile Text.isSeparator).next? = none := by
    rw [hskip, Cursor.next?_of_end hstart]
  fun_cases next start with
  | case1 => exact congrArg (EStateM.Result.ok Token.endOfInput) hskip
  | _ =>
    rw [hnone] at *
    contradiction

/-! ### The end of the text -/

section End

/-- The reader does not find the end of the text. -/
def FindsToken (result : Result Token) : Prop := ∀ d, result ≠ .ok .endOfInput d

theorem findsToken_error {e : LexError} : FindsToken (.error e d) := by
  intro _ h
  cases h

theorem findsToken_ok {token : Token} (h : token ≠ .endOfInput) : FindsToken (.ok token d) := by
  intro _ heq
  cases heq
  exact h rfl

theorem findsToken_finish {result : Result Token} (h : FindsToken result) (c : Cursor) :
    FindsToken (Numeral.finish c result) := by
  unfold Numeral.finish
  split
  · split
    · exact findsToken_error
    · exact h
  · exact h

theorem findsToken_finishDecimal (c : Cursor) (cs : List Char) :
    FindsToken (Numeral.finishDecimal c cs) := by
  refine findsToken_finish ?_ c
  split
  · exact findsToken_ok (by simp)
  · exact findsToken_error

theorem findsToken_readDecimal (c : Cursor) (first : Char) :
    FindsToken (Numeral.readDecimal c first) := by
  unfold Numeral.readDecimal
  dsimp only
  split
  · exact findsToken_ok (by simp)
  · exact findsToken_finishDecimal _ _

theorem findsToken_readNumeral (c : Cursor) (first : Char) : FindsToken (Numeral.read c first) := by
  unfold Numeral.read
  split
  · split
    · split
      · unfold Numeral.readMarked
        dsimp only
        split
        · exact findsToken_error
        split
        · exact findsToken_ok (by simp)
        · exact findsToken_finish (findsToken_ok (by simp)) _
      · split
        · unfold Numeral.readZeroLed
          dsimp only
          split
          · exact findsToken_finish (findsToken_ok (by simp)) _
          · exact findsToken_finishDecimal _ _
        · exact findsToken_readDecimal c first
    · exact findsToken_readDecimal c first
  · exact findsToken_readDecimal c first

theorem findsToken_readString (c : Cursor) (quote : Char) (seen : String) :
    FindsToken (readString c quote seen) := by
  fun_induction readString c quote seen with
  | case4 | case6 => assumption
  | case2 => exact findsToken_ok (by simp)
  | _ => exact findsToken_error

theorem findsToken_readTemplatePart (c : Cursor) (closed opened : TemplatePart) :
    FindsToken (readTemplatePart c closed opened) := by
  unfold readTemplatePart Result.map
  split
  · exact findsToken_ok (by simp)
  · exact findsToken_error

theorem findsToken_readIdentifier (c : Cursor) (first : Char) (escaped : Bool) :
    FindsToken (readIdentifier c first escaped) := by
  have hname (name : String) (escaped : Bool) : nameToken name escaped ≠ .endOfInput := by
    unfold nameToken
    repeat' split
    all_goals simp
  intro d heq
  exact hname _ _ (EStateM.Result.ok.inj heq).1

theorem findsToken_readAt (c : Cursor) (ch : Char) (d : Cursor) : FindsToken (readAt c ch d) := by
  unfold readAt
  split
  · exact findsToken_readString d ch ""
  split
  · exact findsToken_readTemplatePart d .whole .head
  split
  · exact findsToken_readNumeral d ch
  split
  · split
    · exact findsToken_readIdentifier _ _ true
    · exact findsToken_error
  split
  · exact findsToken_readIdentifier d ch false
  · unfold readPunctuator
    split
    · exact findsToken_ok (by simp)
    · exact findsToken_error

/-- Where the end is found, nothing is left. -/
theorem rest_of_next_end (h : next start = .ok .endOfInput d) : d.rest = [] := by
  fun_induction next start with
  | case1 =>
    obtain ⟨-, rfl⟩ := EStateM.Result.ok.inj h
    exact Cursor.rest_of_next?_eq_none ‹_›
  | case3 | case5 | case7 =>
    next ih => exact ih h
  | case8 => exact absurd h (findsToken_readAt _ _ _ d)
  | _ => cases h

end End

/-! ### All tokens -/

/-- The tokens that are read one behind the other from a cursor on, until the end is found or a
reader fails. -/
inductive Tokenizes : Cursor → Result (List Token) → Prop where
  | done {c d : Cursor} (h : next c = .ok .endOfInput d) : Tokenizes c (.ok [.endOfInput] d)
  | failed {c d : Cursor} {e : LexError} (h : next c = .error e d) : Tokenizes c (.error e d)
  | token {c d : Cursor} {token : Token} {result : Result (List Token)} (h : next c = .ok token d)
    (hend : token ≠ .endOfInput) (hrest : Tokenizes d result) :
    Tokenizes c (result.map (token :: ·))

/-- More steps than there are characters are enough to read all tokens. -/
theorem tokenizes_tokensWithin {fuel : Nat} (hfuel : c.rest.length < fuel) :
    Tokenizes c (tokensWithin c fuel) := by
  induction fuel generalizing c with
  | zero => exact absurd hfuel (Nat.not_lt_zero _)
  | succ fuel ih =>
    unfold tokensWithin
    split
    · next h => exact .failed h
    · next h => exact .done h
    · next token d hend h =>
      have hless := length_next_lt h hend
      exact .token h hend (ih (by omega))

/-- All tokens of a text are read. -/
theorem tokenizes_tokens (source : String) : Tokenizes (.ofText source) (tokens source) :=
  tokenizes_tokensWithin (Nat.lt_succ_self _)

/-- Reading a token goes strictly forward, whatever is found, unless nothing is left.  Then the end
is found, and the cursor stays. -/
theorem next_moves (c : Cursor) :
    next c = .ok .endOfInput c ∨ c.offset < (next c).cursor.offset := by
  by_cases hrest : c.rest = []
  · exact .inl (next_of_end hrest)
  · exact .inr ((reaches_next c).offset_lt (length_next_cursor_lt hrest))

end Lexer

end EcmaEval
