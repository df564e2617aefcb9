import EcmaEval.Proofs.Token.Name

/-!
# Lines and columns

A cursor counts the lines of the text that was passed and the characters of the last one.  It counts a
line where a reader says so, which the readers of blanks, comments, strings and templates do.  A name,
a regular expression and an escape sequence that is broken off are passed character by character.

## Main definitions

* `Text.lineEnds`, `Text.lastLine`: the line ends of a text, and what stands behind the last one
* `Cursor.Counts`: a cursor counts the lines and columns of a text
* `Cursor.Tracks`: a text is passed with its lines counted
* `Cursor.StaysOnLine`: a text without a line end is passed character by character
* `Token.CountsLines`: no line end of the text of a token is passed as a character

## Main results

* `Escape.staysOnLine_or_breakLine`: an escape sequence stays on its line, or is the end of one
* `Lexer.locates_of_read`: the lines of a token
* `Lexer.counts_of_run`, `Lexer.place_of_run`: the place of a lexer
* `Lexer.line_add_column_run_le`: how great its line and column become
-/

namespace EcmaEval

open Scan

/-! ## Texts of several lines -/

namespace Text

/-- The number of line ends in a text.  A carriage return and a line feed behind it are one. -/
def lineEnds : List Char → Nat
  | [] => 0
  | '\r' :: '\n' :: text => lineEnds text + 1
  | ch :: text => lineEnds text + if isLineEnd ch then 1 else 0

/-- What stands behind the last line end of a text. -/
def lastLine (text : List Char) : List Char := text.rtakeWhile (!isLineEnd ·)

variable {text more : List Char} {ch : Char}

/-- The line ends of two texts are counted one by one, unless one stands across their border. -/
theorem lineEnds_append (h : text.getLast? = some '\r' → more.head? ≠ some '\n') :
    lineEnds (text ++ more) = lineEnds text + lineEnds more := by
  have hlast (front : List Char) {text : List Char} (htext : text.getLast? = some '\r') :
      (front ++ text).getLast? = some '\r' :=
    List.mem_getLast?_append_of_mem_getLast? htext
  fun_induction lineEnds text with
  | case1 => exact (Nat.zero_add _).symm
  | case2 text ih =>
    rw [List.cons_append, List.cons_append, lineEnds, ih (h ∘ hlast ['\r', '\n'])]
    omega
  | case3 ch text hpair ih =>
    rw [List.cons_append, lineEnds, ih (h ∘ hlast [ch])]
    · omega
    · rintro text' rfl heq
      cases text with
      | nil => exact h rfl (by rw [← List.nil_append more, heq]; rfl)
      | cons ch' text =>
        obtain ⟨rfl, -⟩ := List.cons.inj heq
        exact hpair text rfl rfl

theorem lineEnds_eq_zero (h : ∀ ch ∈ text, isLineEnd ch = false) : lineEnds text = 0 := by
  fun_induction lineEnds text with
  | case1 => rfl
  | case2 => exact absurd (h _ List.mem_cons_self) (by decide)
  | case3 ch text _ ih =>
    rw [List.forall_mem_cons] at h
    rw [ih h.2, h.1]
    rfl

theorem lastLine_append (h : ∀ ch ∈ more, isLineEnd ch = false) :
    lastLine (text ++ more) = lastLine text ++ more := by
  unfold lastLine List.rtakeWhile
  rw [List.reverse_append, List.takeWhile_append_of_pos, List.reverse_append, List.reverse_reverse]
  intro ch hch
  rw [h ch (List.mem_reverse.mp hch)]
  rfl

theorem lastLine_concat (h : isLineEnd ch = true) : lastLine (text ++ [ch]) = [] :=
  List.rtakeWhile_concat_neg _ _ _ (by rw [h]; exact Bool.false_ne_true)

end Text

open Text

variable {c d e start : Cursor} {ch : Char} {front taken taken' : List Char}

/-! ## Counting -/

namespace Cursor

/-- The cursor, behind the text, counts its lines and the characters of the last one.  It does not
stand in the middle of a line end. -/
structure Counts (front : List Char) (c : Cursor) : Prop where
  line : c.line = 1 + lineEnds front
  column : c.column = (lastLine front).length
  whole : front.getLast? = some '\r' → c.rest.head? ≠ some '\n'

/-- The text was passed, and its lines were counted. -/
structure Tracks (c : Cursor) (taken : List Char) (d : Cursor) : Prop where
  rest : c.rest = taken ++ d.rest
  counts : ∀ {front : List Char}, c.Counts front → d.Counts (front ++ taken)

/-- Where no line ends the lines are counted. -/
theorem Moves.tracks (h : c.Moves taken d) (hline : ∀ ch ∈ taken, isLineEnd ch = false) :
    c.Tracks taken d := by
  refine ⟨h.rest, fun {front} hc => ⟨?_, ?_, ?_⟩⟩
  · rw [h.line, hc.line, lineEnds_append, lineEnds_eq_zero hline, Nat.add_zero]
    intro _ hhead
    obtain ⟨rest, rfl⟩ := List.head?_eq_some_iff.mp hhead
    exact absurd (hline _ (List.mem_cons_self)) (by decide)
  · rw [h.column, hc.column, lastLine_append hline, List.length_append]
  · intro hlast
    cases taken with
    | nil =>
      rw [List.append_nil] at hlast
      have hrest := hc.whole hlast
      rwa [h.rest] at hrest
    | cons ch taken =>
      rw [List.getLast?_append_of_ne_nil _ (List.cons_ne_nil _ _)] at hlast
      exact absurd (hline _ (List.mem_of_getLast? hlast)) (by decide)

theorem Moves.tracks_of_all (h : c.Moves taken d) (hline : taken.all Lexer.onLine = true) :
    c.Tracks taken d :=
  h.tracks fun ch hch => by simpa [Lexer.onLine] using List.all_eq_true.mp hline ch hch

namespace Tracks

theorem refl (c : Cursor) : c.Tracks [] c := (Moves.refl c).tracks nofun

theorem trans (h : c.Tracks taken d) (h' : d.Tracks taken' e) : c.Tracks (taken ++ taken') e where
  rest := by rw [h.rest, h'.rest, List.append_assoc]
  counts hc := by
    rw [← List.append_assoc]
    exact h'.counts (h.counts hc)

theorem cons (hnext : c.next? = some (ch, d)) (hch : isLineEnd ch = false)
    (h : d.Tracks taken e) : c.Tracks (ch :: taken) e :=
  ((Moves.next? hnext).tracks fun _ hmem => List.mem_singleton.mp hmem ▸ hch).trans h

/-- The end of a line is passed. -/
theorem breakLine (hnext : c.next? = some (ch, d)) (hch : isLineEnd ch = true) :
    ∃ taken, c.Tracks taken (d.breakLine ch) := by
  have hmoves := Moves.next? hnext
  have hrest := rest_of_next? hnext
  -- The text up to here does not end in the middle of a line end, so that a new one begins.
  have hcount {front more : List Char} (hc : c.Counts front) :
      lineEnds (front ++ ch :: more) = lineEnds front + lineEnds (ch :: more) := by
    refine lineEnds_append fun hlast hhead => hc.whole hlast ?_
    rw [hrest]
    exact hhead
  by_cases hpair : ch = '\r' ∧ d.peek? = some '\n'
  · obtain ⟨rfl, hfeed⟩ := hpair
    have hskip := Moves.skip hfeed
    rw [breakLine_pair hfeed]
    refine ⟨['\r', '\n'], (hmoves.trans hskip).rest, fun {front} hc => ⟨?_, ?_, ?_⟩⟩
    · rw [hcount hc]
      change d.skip.line + 1 = _
      rw [hskip.line, hmoves.line, hc.line]
      rfl
    · rw [List.append_cons, lastLine_concat (by decide)]
      rfl
    · rw [List.append_cons, List.getLast?_concat]
      intro heq
      exact absurd (Option.some.inj heq) (by decide)
  · rw [breakLine_single (not_and.mp hpair)]
    refine ⟨[ch], hmoves.rest, fun {front} hc => ⟨?_, ?_, ?_⟩⟩
    · rw [hcount hc]
      change d.line + 1 = _
      have hone : lineEnds [ch] = 1 := by
        rw [lineEnds, hch]
        · rfl
        · nofun
      rw [hmoves.line, hc.line, hone, Nat.add_assoc]
    · rw [lastLine_concat hch]
      rfl
    · rw [List.getLast?_concat]
      intro hlast
      obtain rfl := Option.some.inj hlast
      exact fun hfeed => hpair ⟨rfl, hfeed⟩

end Tracks

/-- A text without line ends was passed. -/
def StaysOnLine (c d : Cursor) : Prop :=
  ∃ taken, c.Moves taken d ∧ ∀ ch ∈ taken, isLineEnd ch = false

namespace StaysOnLine

variable {p : Char → Bool}

theorem refl (c : Cursor) : c.StaysOnLine c := ⟨[], .refl c, nofun⟩

theorem trans (h : c.StaysOnLine d) (h' : d.StaysOnLine e) : c.StaysOnLine e := by
  obtain ⟨taken, hmove, hline⟩ := h
  obtain ⟨taken', hmove', hline'⟩ := h'
  exact ⟨taken ++ taken', hmove.trans hmove', List.forall_mem_append.mpr ⟨hline, hline'⟩⟩

theorem skip (h : c.peek? = some ch) (hch : isLineEnd ch = false) : c.StaysOnLine c.skip :=
  ⟨[ch], .skip h, fun _ hmem => List.mem_singleton.mp hmem ▸ hch⟩

theorem skipIf? (h : c.skipIf? ch = some d) (hch : isLineEnd ch = false) : c.StaysOnLine d :=
  ⟨[ch], .skipIf? h, fun _ hmem => List.mem_singleton.mp hmem ▸ hch⟩

theorem span (c : Cursor) (hp : ∀ ch ∈ lineEndChars, p ch = false) : c.StaysOnLine (c.span p).2 :=
  ⟨_, .span c p, fun _ hmem => isLineEnd_eq_false hp (List.mem_takeWhile_imp hmem)⟩

theorem exists_tracks (h : c.StaysOnLine d) : ∃ taken, c.Tracks taken d :=
  let ⟨taken, hmove, hline⟩ := h
  ⟨taken, hmove.tracks hline⟩

end StaysOnLine

end Cursor

open Cursor

/-! ## Escape sequences -/

namespace Escape

theorem isLineEnd_of_isHex (h : isHex ch = true) : isLineEnd ch = false :=
  isLineEnd_eq_false (p := isHex) (forall_mem_lineEndChars.mpr (by decide)) h

theorem forall_isHex {digits : List Char} (h : digits.all isHex = true) :
    ∀ ch ∈ digits, isLineEnd ch = false :=
  fun ch hch => isLineEnd_of_isHex (List.all_eq_true.mp h ch hch)

theorem IsCodePoint.isLineEnd_eq_false {text : List Char} (h : IsCodePoint text ch) :
    ∀ ch' ∈ text, isLineEnd ch' = false := by
  cases h with
  | quad _ hdigits => exact List.forall_mem_cons.mpr ⟨by decide, forall_isHex hdigits⟩
  | braced _ hdigits _ =>
    exact List.forall_mem_cons.mpr ⟨by decide, List.forall_mem_cons.mpr ⟨by decide,
      List.forall_mem_append.mpr
        ⟨forall_isHex hdigits, List.forall_mem_singleton.mpr (by decide)⟩⟩⟩

theorem staysOnLine_of_readOctal {value count : Nat} {cs : List Char}
    (h : readOctal c value count = .ok cs d) : c.StaysOnLine d := by
  induction count generalizing c value with
  | zero =>
    cases h
    exact .refl _
  | succ count ih =>
    unfold readOctal at h
    split at h
    · next ch hpeek =>
      split at h
      · next hoctal =>
        exact .trans (.skip hpeek (isLineEnd_eq_false (p := fun ch => '0' ≤ ch && ch ≤ '7')
          (forall_mem_lineEndChars.mpr (by decide)) hoctal)) (ih h)
      · cases h
        exact .refl _
    · cases h
      exact .refl _

/-- An escape sequence that is read stays on its line, or it is the end of the line. -/
theorem staysOnLine_or_breakLine {cs : List Char} (h : read c = .ok cs d) :
    c.StaysOnLine d ∨ ∃ ch e, c.next? = some (ch, e) ∧ isLineEnd ch = true ∧ d = e.breakLine ch := by
  unfold read at h
  split at h
  · cases h
  next ch e hnext =>
  -- All kinds but the last but one begin with a character that ends no line.
  have hfirst (hch : isLineEnd ch = false) (he : e.StaysOnLine d) :
      c.StaysOnLine d ∨ ∃ ch e, c.next? = some (ch, e) ∧ isLineEnd ch = true ∧ d = e.breakLine ch := by
    obtain ⟨taken, hmove, htaken⟩ := he
    exact .inl ⟨ch :: taken, .cons hnext hmove, List.forall_mem_cons.mpr ⟨hch, htaken⟩⟩
  split at h
  · next hletter =>
    cases h
    refine hfirst ?_ (.refl _)
    exact isLineEnd_eq_false (p := fun ch => (letterEscape? ch).isSome)
      (forall_mem_lineEndChars.mpr (by decide))
      (by rw [hletter]; rfl)
  split at h
  · next hzero =>
    cases h
    obtain rfl := eq_of_beq (Bool.and_eq_true_iff.mp hzero).1
    exact hfirst (by decide) (.refl _)
  split at h
  · next hoctal =>
    refine hfirst ?_ (staysOnLine_of_readOctal h)
    exact isLineEnd_eq_false (p := fun ch => '0' ≤ ch && ch ≤ '7')
      (forall_mem_lineEndChars.mpr (by decide)) hoctal
  split at h
  · next hx =>
    obtain rfl := eq_of_beq hx
    obtain ⟨high, low, hmove, hhigh, hlow⟩ := exists_of_readHexPair h
    refine hfirst (by decide) ⟨_, hmove, List.forall_mem_cons.mpr ⟨isLineEnd_of_isHex hhigh, ?_⟩⟩
    exact fun _ hmem => List.mem_singleton.mp hmem ▸ isLineEnd_of_isHex hlow
  split at h
  · next hu =>
    obtain rfl := eq_of_beq hu
    cases hread : readCodePoint e with
    | error y f =>
      rw [hread] at h
      cases h
    | ok ch' f =>
      rw [hread] at h
      cases h
      obtain ⟨text, htext, hmove⟩ := exists_of_readCodePoint hread
      exact hfirst (by decide) ⟨text, hmove, (List.forall_mem_cons.mp htext.isLineEnd_eq_false).2⟩
  split at h
  · next hline =>
    cases h
    exact .inr ⟨ch, e, hnext, hline, rfl⟩
  · next hline =>
    cases h
    exact hfirst (Bool.eq_false_iff.mpr hline) (.refl _)

/-- Its line end is counted. -/
theorem exists_tracks_of_read {cs : List Char} (h : read c = .ok cs d) :
    ∃ taken, c.Tracks taken d := by
  rcases staysOnLine_or_breakLine h with hline | ⟨ch, e, hnext, hline, rfl⟩
  · exact hline.exists_tracks
  · exact Tracks.breakLine hnext hline

end Escape

/-! ## Numerals -/

namespace Numeral

open Number

theorem isDecimalDigit_of_mem_lineEndChars : ∀ ch ∈ lineEndChars, isDecimalDigit ch = false :=
  forall_mem_lineEndChars.mpr (by decide)

theorem staysOnLine_spanDigits (c : Cursor) {digit : Char → Bool}
    (hdigit : ∀ ch ∈ lineEndChars, digit ch = false) : c.StaysOnLine (spanDigits c digit).2 := by
  refine .span c fun ch hch => ?_
  have hunderscore : ∀ ch ∈ lineEndChars, (ch == '_') = false :=
    forall_mem_lineEndChars.mpr (by decide)
  rw [hdigit ch hch, hunderscore ch hch]
  rfl

theorem staysOnLine_spanFraction (c : Cursor) : c.StaysOnLine (spanFraction c).2 := by
  unfold spanFraction
  split
  · next d h =>
    exact .trans (.skipIf? h (by decide))
      (staysOnLine_spanDigits d isDecimalDigit_of_mem_lineEndChars)
  · exact .refl c

theorem staysOnLine_spanSign (c : Cursor) : c.StaysOnLine (spanSign c).2 := by
  unfold spanSign
  split
  · next hpeek =>
    split
    · next hsign =>
      exact .skip hpeek (isLineEnd_eq_false (p := fun ch => ch == '+' || ch == '-')
        (forall_mem_lineEndChars.mpr (by decide)) hsign)
    · exact .refl c
  · exact .refl c

theorem staysOnLine_spanExponent (c : Cursor) : c.StaysOnLine (spanExponent c).2 := by
  rw [spanExponent_eq_spanSign]
  split
  · next hpeek =>
    split
    · next hletter =>
      refine .trans (.skip hpeek ?_) (.trans (staysOnLine_spanSign _)
        (staysOnLine_spanDigits _ isDecimalDigit_of_mem_lineEndChars))
      exact isLineEnd_eq_false (p := fun ch => ch == 'e' || ch == 'E')
        (forall_mem_lineEndChars.mpr (by decide)) hletter
    · exact .refl c
  · exact .refl c

theorem staysOnLine_readMarked (c : Cursor) {radix : Nat} (mark : String)
    (hradix : ∀ ch ∈ lineEndChars, (digitValue? radix ch).isSome = false) :
    c.StaysOnLine (readMarked c radix mark).cursor := by
  have hdigits := staysOnLine_spanDigits c hradix
  unfold readMarked
  dsimp only
  split
  · exact hdigits
  split
  · next h => exact hdigits.trans (.skipIf? h (by decide))
  · rw [cursor_finish_ok]
    exact hdigits

theorem staysOnLine_readZeroLed (c : Cursor) : c.StaysOnLine (readZeroLed c).cursor := by
  have hdigits := staysOnLine_spanDigits c isDecimalDigit_of_mem_lineEndChars
  unfold readZeroLed
  dsimp only
  split
  · rw [cursor_finish_ok]
    exact hdigits
  · rw [cursor_finishDecimal]
    exact (hdigits.trans (staysOnLine_spanFraction _)).trans (staysOnLine_spanExponent _)

theorem staysOnLine_readDecimal (c : Cursor) (first : Char) :
    c.StaysOnLine (readDecimal c first).cursor := by
  have hfraction (d : Cursor) :
      d.StaysOnLine (if first == '.' then (([] : List Char), d) else spanFraction d).2 := by
    split
    · exact .refl d
    · exact staysOnLine_spanFraction d
  have hnumber := ((staysOnLine_spanDigits c isDecimalDigit_of_mem_lineEndChars).trans
    (hfraction _)).trans (staysOnLine_spanExponent _)
  unfold readDecimal
  dsimp only
  split
  · next h => exact hnumber.trans (.skipIf? h (by decide))
  · rw [cursor_finishDecimal]
    exact hnumber

theorem staysOnLine_read (c : Cursor) (first : Char) : c.StaysOnLine (read c first).cursor := by
  unfold read
  split
  · split
    · next ch hpeek =>
      split
      · next radix mark hmark =>
        refine .trans (.skip hpeek ?_) (staysOnLine_readMarked _ mark ?_)
        · exact isLineEnd_eq_false (p := fun ch => (markOf? ch).isSome)
            (forall_mem_lineEndChars.mpr (by decide)) (by rw [hmark]; rfl)
        · intro ch hch
          simp only [lineEndChars, List.mem_cons, List.not_mem_nil, or_false] at hch
          obtain rfl | rfl | rfl | rfl := hch <;> rfl
      · split
        · exact staysOnLine_readZeroLed c
        · exact staysOnLine_readDecimal c first
    · exact staysOnLine_readDecimal c first
  · exact staysOnLine_readDecimal c first

end Numeral

/-! ## Tokens -/

/-- No open escape sequence of the text is broken off by the end of a line. -/
def Text.Unbroken (text : List Char) : Prop :=
  ∀ ch, isLineEnd ch = true → ¬BreaksEscape [ch] text

/-- No line end in the text from which the token was read is passed as a character.  A name and a regular
expression count none at all, and a template counts none that breaks off an escape sequence. -/
def Token.CountsLines (text : List Char) : Token → Prop
  | .identifier _ | .keyword _ | .boolean _ | .null | .regExp .. =>
    ∀ ch ∈ text, isLineEnd ch = false
  | .template _ none _ => Unbroken text
  | _ => True

theorem Text.Unbroken.mono {text more : List Char} (h : Unbroken more) (htext : text <:+: more) :
    Unbroken text :=
  fun ch hch hbreaks => h ch hch (hbreaks.mono htext)

theorem Token.CountsLines.of_append {token : Token} (h : token.CountsLines (front ++ taken)) :
    token.CountsLines taken := by
  unfold CountsLines at h ⊢
  split at h
  · exact (List.forall_mem_append.mp h).2
  · exact (List.forall_mem_append.mp h).2
  · exact (List.forall_mem_append.mp h).2
  · exact (List.forall_mem_append.mp h).2
  · exact (List.forall_mem_append.mp h).2
  · exact h.mono (List.suffix_append _ _).isInfix
  · trivial

namespace Lexer

variable {token : Token} {calls : List Call} {call : Call} {source : String}

/-- The token is read between the two cursors, and the lines up to it are counted unless one of its own
is not. -/
def Locates (start : Cursor) (token : Token) (d : Cursor) : Prop :=
  ∃ taken, start.rest = taken ++ d.rest ∧ (token.CountsLines taken → start.Tracks taken d)

theorem Locates.of_tracks (h : c.Tracks taken d) : Locates c token d :=
  ⟨taken, h.rest, fun _ => h⟩

theorem Locates.of_staysOnLine (h : c.StaysOnLine d) : Locates c token d :=
  let ⟨_, htaken⟩ := h.exists_tracks
  .of_tracks htaken

/-- So it is from further ahead. -/
theorem Locates.behind (hstart : start.Tracks front c) (h : Locates c token d) :
    Locates start token d := by
  obtain ⟨taken, hrest, htracks⟩ := h
  refine ⟨front ++ taken, ?_, fun hcounts => hstart.trans (htracks hcounts.of_append)⟩
  rw [hstart.rest, hrest, List.append_assoc]

theorem exists_tracks_of_skipBlockComment {seenLine seen : Bool}
    (h : skipBlockComment c seenLine = .ok seen d) : ∃ taken, c.Tracks taken d := by
  fun_induction skipBlockComment c seenLine with
  | case1 => cases h
  | case2 c seenLine ch e hnext _ _ hclose =>
    cases h
    obtain ⟨hstar, hslash⟩ := Bool.and_eq_true_iff.mp hclose
    obtain rfl := eq_of_beq hstar
    exact ⟨_, (Moves.cons hnext (.skip (eq_of_beq hslash))).tracks_of_all (by decide)⟩
  | case3 c seenLine ch e hnext _ _ hclose hline ih =>
    obtain ⟨taken, htaken⟩ := Tracks.breakLine hnext hline
    obtain ⟨taken', htaken'⟩ := ih h
    exact ⟨_, htaken.trans htaken'⟩
  | case4 c seenLine ch e hnext _ _ hclose hline ih =>
    obtain ⟨taken, htaken⟩ := ih h
    exact ⟨_, .cons hnext (Bool.eq_false_iff.mpr hline) htaken⟩

theorem exists_tracks_of_readString {quote : Char} {seen : String}
    (hquote : isLineEnd quote = false) (h : readString c quote seen = .ok token d) :
    ∃ taken, c.Tracks taken d := by
  fun_induction readString c quote seen with
  | case1 => cases h
  | case2 c seen ch e hnext _ hch =>
    cases h
    obtain rfl := eq_of_beq hch
    exact ⟨_, .cons hnext hquote (.refl _)⟩
  | case3 => cases h
  | case4 c seen ch e hnext _ hch hline hescape cs f he _ ih =>
    obtain ⟨taken, htaken⟩ := Escape.exists_tracks_of_read he
    obtain ⟨taken', htaken'⟩ := ih h
    exact ⟨_, .cons hnext (Bool.eq_false_iff.mpr hline) (htaken.trans htaken')⟩
  | case5 => cases h
  | case6 c seen ch e hnext _ hch hline hescape ih =>
    obtain ⟨taken, htaken⟩ := ih h
    exact ⟨_, .cons hnext (Bool.eq_false_iff.mpr hline) htaken⟩

/-! ### Templates -/

/-- A template with an escape sequence that is broken off has no text with its escapes read. -/
theorem cooked_eq_none {cooked cooked' : Option String} {raw raw' : String} {closed : Bool}
    (hcooked : cooked = none) (h : readTemplate c cooked raw = .ok (cooked', raw', closed) d) :
    cooked' = none := by
  fun_induction readTemplate c cooked raw with
  | case1 | case5 => cases h
  | case2 | case3 => cases h; exact hcooked
  | case4 c cooked raw ch e hnext _ _ _ _ cs f he _ ih => exact ih (by rw [hcooked]; rfl) h
  | case6 c cooked raw ch e hnext _ _ _ _ x f he _ _ ih => exact ih rfl h
  | case7 c cooked raw ch e hnext _ _ _ _ _ _ ih => exact ih (by rw [hcooked]; rfl) h
  | case8 c cooked raw ch e hnext _ _ _ _ _ ih => exact ih (by rw [hcooked]; rfl) h

/-- An escape sequence that no line end breaks off is passed on one line. -/
theorem isLineEnd_eq_false_of_opens (h : Escape.Opens [] taken) (htaken : Unbroken ('\\' :: taken)) :
    ∀ ch ∈ taken, isLineEnd ch = false := by
  intro ch hch
  rw [Bool.eq_false_iff]
  intro hline
  obtain ⟨front, back, rfl⟩ := List.append_of_mem hch
  refine htaken ch hline ⟨front, h front ch back rfl hline, [], back, ?_⟩
  simp

theorem locates_of_readTemplate {cooked cooked' : Option String} {raw raw' : String} {closed : Bool}
    (h : readTemplate c cooked raw = .ok (cooked', raw', closed) d) (part : TemplatePart) :
    Locates c (.template part cooked' raw') d := by
  -- Escape sequences that are read count their line ends, and `case6` is one that is broken off: the
  -- template has no cooked text from there on, so that its lines may be taken to be one.
  fun_induction readTemplate c cooked raw with
  | case1 | case5 => cases h
  | case2 c cooked raw ch e hnext _ hquote =>
    cases h
    obtain rfl := eq_of_beq hquote
    exact .of_tracks (.cons hnext (by decide) (.refl _))
  | case3 c cooked raw ch e hnext _ hquote hbrace =>
    cases h
    obtain ⟨hdollar, hopen⟩ := Bool.and_eq_true_iff.mp hbrace
    obtain rfl := eq_of_beq hdollar
    exact .of_tracks ((Moves.cons hnext (.skip (eq_of_beq hopen))).tracks_of_all (by decide))
  | case4 c cooked raw ch e hnext _ hquote hbrace hescape cs f he _ ih =>
    obtain ⟨taken, htaken⟩ := Escape.exists_tracks_of_read he
    obtain rfl := eq_of_beq hescape
    exact (ih h).behind (.cons hnext (by decide) htaken)
  | case6 c cooked raw ch e hnext _ hquote hbrace hescape x f he _ _ ih =>
    obtain ⟨taken, hmove, hopens⟩ := Escape.exists_of_read_error he
    obtain rfl := eq_of_beq hescape
    obtain rfl := cooked_eq_none rfl h
    obtain ⟨taken', hrest, htracks⟩ := ih h
    refine ⟨'\\' :: taken ++ taken', ?_, fun hcounts => ?_⟩
    · rw [rest_of_next? hnext, hmove.rest, hrest, List.cons_append, List.cons_append,
        List.append_assoc]
    · have hbroken : Unbroken ('\\' :: taken) :=
        Unbroken.mono hcounts (List.prefix_append _ _).isInfix
      have hline := isLineEnd_eq_false_of_opens hopens hbroken
      exact Tracks.trans (.cons hnext (by decide) (hmove.tracks hline))
        (htracks (Token.CountsLines.of_append hcounts))
  | case7 c cooked raw ch e hnext _ hquote hbrace hescape hline _ ih =>
    obtain ⟨taken, htaken⟩ := Tracks.breakLine hnext hline
    exact (ih h).behind htaken
  | case8 c cooked raw ch e hnext _ hquote hbrace hescape hline ih =>
    exact (ih h).behind (.cons hnext (Bool.eq_false_iff.mpr hline) (.refl _))

theorem locates_of_readTemplatePart {closed opened : TemplatePart}
    (h : readTemplatePart c closed opened = .ok token d) : Locates c token d := by
  unfold readTemplatePart at h
  cases hread : readTemplate c (some "") "" with
  | error x e =>
    rw [hread] at h
    cases h
  | ok found e =>
    rw [hread] at h
    cases h
    exact locates_of_readTemplate hread _

/-! ### Names, regular expressions and punctuators -/

/-- What is passed character by character has its lines counted if there is one only. -/
theorem Locates.of_moves (h : c.Moves taken d)
    (htoken : token.CountsLines taken → ∀ ch ∈ taken, isLineEnd ch = false) : Locates c token d :=
  ⟨taken, h.rest, fun hcounts => h.tracks (htoken hcounts)⟩

theorem forall_of_countsLines_nameToken {name : String} {escaped : Bool}
    (h : (nameToken name escaped).CountsLines taken) : ∀ ch ∈ taken, isLineEnd ch = false := by
  unfold nameToken at h
  repeat' split at h
  all_goals exact h

theorem locates_of_readIdentifier {first : Char} {escaped : Bool}
    (h : readIdentifier c first escaped = .ok token d) : Locates c token d := by
  obtain ⟨letters, broken, hmove, -⟩ := exists_letters_of_readName c first.toString escaped
  unfold readIdentifier at h
  generalize readName c first.toString escaped = found at h hmove
  obtain ⟨⟨name, escaped⟩, e⟩ := found
  cases h
  exact .of_moves hmove forall_of_countsLines_nameToken

theorem exists_moves_of_readPattern {pattern pattern' : String} {inClass : Bool}
    (h : readPattern c pattern inClass = .ok pattern' d) : ∃ taken, c.Moves taken d := by
  fun_induction readPattern c pattern inClass with
  | case1 | case2 | case4 => cases h
  | case3 c pattern inClass ch e hnext =>
    cases h
    exact ⟨_, .next? hnext⟩
  | case5 c pattern inClass ch e hnext _ _ _ _ ch' f hnext' _ ih =>
    obtain ⟨taken, hmove⟩ := ih h
    exact ⟨_, .cons hnext (.cons hnext' hmove)⟩
  | case6 c pattern inClass ch e hnext _ _ _ _ ih =>
    obtain ⟨taken, hmove⟩ := ih h
    exact ⟨_, .cons hnext hmove⟩

theorem locates_of_readRegExp (h : readRegExp c = .ok token d) : Locates c token d := by
  unfold readRegExp at h
  split at h
  · next pattern e hpattern =>
    cases h
    obtain ⟨taken, hmove⟩ := exists_moves_of_readPattern hpattern
    exact .of_moves (hmove.trans (.span e isIdentifierPart)) id
  · cases h

theorem isLineEnd_eq_false_of_mem_spelling (mark : Punctuator) :
    ∀ ch ∈ mark.spelling, isLineEnd ch = false := by
  have hall : mark.spelling.all onLine = true := by cases mark <;> decide
  exact fun ch hch => by simpa [onLine] using List.all_eq_true.mp hall ch hch

theorem staysOnLine_skipBy {text rest : List Char} (hline : ∀ ch ∈ text, isLineEnd ch = false)
    (hrest : c.rest = text ++ rest) : c.StaysOnLine (c.skipBy text.length) := by
  induction text generalizing c with
  | nil => exact .refl c
  | cons ch text ih =>
    rw [List.forall_mem_cons] at hline
    exact .trans (.skip (peek?_of_rest hrest) hline.1) (ih hline.2 (rest_skip hrest))

theorem staysOnLine_of_readPunctuator (h : readPunctuator c ch = .ok token d) :
    c.StaysOnLine d := by
  unfold readPunctuator at h
  split at h
  · next mark hmark =>
    cases h
    have hat := List.find?_some hmark
    obtain ⟨rest, hrest⟩ := List.isPrefixOf_iff_prefix.mp (Bool.and_eq_true_iff.mp hat).1
    exact staysOnLine_skipBy (isLineEnd_eq_false_of_mem_spelling mark) hrest.symm
  · cases h

/-! ### The next token -/

theorem locates_of_readAt (hnext : c.next? = some (ch, d)) (hch : isLineEnd ch = false)
    (h : readAt c ch d = .ok token e) : Locates c token e := by
  have hfirst : c.Tracks [ch] d := .cons hnext hch (.refl d)
  unfold readAt at h
  split at h
  · obtain ⟨taken, htaken⟩ := exists_tracks_of_readString hch h
    exact .of_tracks (hfirst.trans htaken)
  split at h
  · exact (locates_of_readTemplatePart h).behind hfirst
  split at h
  · have hread := Numeral.staysOnLine_read d ch
    rw [h] at hread
    exact (Locates.of_staysOnLine hread).behind hfirst
  split at h
  · split at h
    · next hescape =>
      obtain ⟨text, htext, hmove⟩ := Escape.exists_of_readIdentifierEscape hescape
      exact (locates_of_readIdentifier h).behind
        (hfirst.trans (hmove.tracks htext.isLineEnd_eq_false))
    · cases h
  split at h
  · exact (locates_of_readIdentifier h).behind hfirst
  · exact .of_staysOnLine (staysOnLine_of_readPunctuator h)

theorem locates_of_next (h : next start = .ok token d) : Locates start token d := by
  have hblanks (c : Cursor) : ∃ taken, c.Tracks taken (c.skipWhile isSeparator) := by
    refine StaysOnLine.exists_tracks (.span c ?_)
    exact forall_mem_lineEndChars.mpr (by decide)
  have hline (c : Cursor) : ∃ taken, c.Tracks taken (c.skipWhile onLine) :=
    StaysOnLine.exists_tracks (.span c (forall_mem_lineEndChars.mpr (by decide)))
  fun_induction next start with
  | case1 start c _ hnext =>
    obtain ⟨-, rfl⟩ := EStateM.Result.ok.inj h
    obtain ⟨taken, htaken⟩ := hblanks start
    exact .of_tracks htaken
  | case2 start c _ ch e hnext _ _ hend =>
    cases h
    obtain ⟨taken, htaken⟩ := hblanks start
    obtain ⟨taken', htaken'⟩ := Tracks.breakLine hnext hend
    exact .of_tracks (htaken.trans htaken')
  | case3 start c _ ch e hnext _ _ hend hslash ih =>
    obtain ⟨taken, htaken⟩ := hblanks start
    obtain ⟨taken', htaken'⟩ := hline e
    exact (ih h).behind (htaken.trans (.cons hnext (Bool.eq_false_iff.mpr hend) htaken'))
  | case4 start c _ ch e hnext _ _ hend hslash hblock f hcomment =>
    cases h
    obtain ⟨taken, htaken⟩ := hblanks start
    obtain ⟨taken', htaken'⟩ := exists_tracks_of_skipBlockComment hcomment
    have hstar := (Moves.skip (eq_of_beq (Bool.and_eq_true_iff.mp hblock).2)).tracks_of_all (by decide)
    exact .of_tracks (htaken.trans (.cons hnext (Bool.eq_false_iff.mpr hend) (hstar.trans htaken')))
  | case5 start c _ ch e hnext _ _ hend hslash hblock f hcomment _ _ ih =>
    obtain ⟨taken, htaken⟩ := hblanks start
    obtain ⟨taken', htaken'⟩ := exists_tracks_of_skipBlockComment hcomment
    have hstar := (Moves.skip (eq_of_beq (Bool.and_eq_true_iff.mp hblock).2)).tracks_of_all (by decide)
    exact (ih h).behind
      (htaken.trans (.cons hnext (Bool.eq_false_iff.mpr hend) (hstar.trans htaken')))
  | case6 => cases h
  | case7 start c _ ch e hnext _ _ hend hslash hblock hbang ih =>
    obtain ⟨taken, htaken⟩ := hblanks start
    obtain ⟨taken', htaken'⟩ := hline e
    exact (ih h).behind (htaken.trans (.cons hnext (Bool.eq_false_iff.mpr hend) htaken'))
  | case8 start c _ ch e hnext _ _ hend =>
    obtain ⟨taken, htaken⟩ := hblanks start
    exact (locates_of_readAt hnext (Bool.eq_false_iff.mpr hend) h).behind htaken

/-- Whatever is called for. -/
theorem locates_of_read (h : call.read c = .ok token d) : Locates c token d := by
  cases call with
  | next => exact locates_of_next h
  | regExp => exact locates_of_readRegExp h
  | continuation => exact locates_of_readTemplatePart h

/-! ## Runs -/

theorem Call.reaches_read (call : Call) (c : Cursor) : c.Reaches (call.read c).cursor := by
  cases call with
  | next => exact reaches_next c
  | regExp => exact reaches_readRegExp c
  | continuation => exact reaches_readTemplatePart c _ _

theorem byteCount_eq_utf8ByteSize (cs : List Char) :
    byteCount cs = (String.ofList cs).utf8ByteSize := by
  induction cs with
  | nil => rfl
  | cons ch cs ih =>
    rw [byteCount_cons, ih, String.ofList_cons, String.utf8ByteSize_append,
      String.utf8ByteSize_singleton]

theorem between_of_rest (h : c.rest = taken ++ d.rest) : c.between d = taken := by
  unfold Cursor.between
  rw [h, List.length_append, Nat.add_sub_cancel_right, List.take_left]

/-- The text that calls have passed is that of their tokens. -/
theorem moves_of_run {found : List (Token × List Char)} (h : run calls c = .ok found d) :
    c.rest = found.flatMap Prod.snd ++ d.rest ∧
      d.offset = c.offset + byteCount (found.flatMap Prod.snd) := by
  induction calls generalizing c found with
  | nil =>
    cases h
    exact ⟨rfl, rfl⟩
  | cons call calls ih =>
    obtain ⟨token, e, more, hread, hrun, rfl⟩ := exists_of_run_cons h
    obtain ⟨taken, hrest, hoffset, -⟩ := Result.reaches_of_ok (call.reaches_read c) hread
    obtain ⟨hrest', hoffset'⟩ := ih hrun
    rw [between_of_rest hrest, List.flatMap_cons]
    refine ⟨?_, ?_⟩
    · rw [hrest, hrest', List.append_assoc]
    · rw [hoffset', hoffset, byteCount_append, Nat.add_assoc]

theorem counts_of_run {found : List (Token × List Char)} (h : run calls c = .ok found d)
    (hfound : ∀ x ∈ found, x.1.CountsLines x.2) (hc : c.Counts front) :
    d.Counts (front ++ found.flatMap Prod.snd) := by
  induction calls generalizing c found front with
  | nil =>
    cases h
    rw [List.flatMap_nil, List.append_nil]
    exact hc
  | cons call calls ih =>
    obtain ⟨token, e, more, hread, hrun, rfl⟩ := exists_of_run_cons h
    obtain ⟨taken, hrest, htracks⟩ := locates_of_read hread
    rw [between_of_rest hrest] at hfound ⊢
    rw [List.forall_mem_cons] at hfound
    rw [List.flatMap_cons, ← List.append_assoc]
    exact ih hrun hfound.2 ((htracks hfound.1).counts hc)

/-- The place of a lexer behind any calls that have succeeded.  Its offset is the number of bytes of the
text that was passed.  Its line and column are those behind that text, unless a line end was passed as a
character, in a name, in a regular expression or in an escape sequence that is broken off. -/
theorem place_of_run {found : List (Token × List Char)} (h : run calls (.ofText source) = .ok found c) :
    source.toList = found.flatMap Prod.snd ++ c.rest ∧
      c.offset = (String.ofList (found.flatMap Prod.snd)).utf8ByteSize ∧
      ((∀ x ∈ found, x.1.CountsLines x.2) →
        c.line = 1 + lineEnds (found.flatMap Prod.snd) ∧
          c.column = (lastLine (found.flatMap Prod.snd)).length) := by
  obtain ⟨hrest, hoffset⟩ := moves_of_run h
  refine ⟨hrest, ?_, fun hfound => ?_⟩
  · rw [hoffset, byteCount_eq_utf8ByteSize]
    exact Nat.zero_add _
  · have hfront : (Cursor.ofText source).Counts [] := ⟨rfl, rfl, nofun⟩
    have hcounts := counts_of_run h hfound hfront
    exact ⟨hcounts.line, hcounts.column⟩

theorem reaches_run (calls : List Call) (c : Cursor) : c.Reaches (run calls c).cursor := by
  induction calls generalizing c with
  | nil => exact .refl c
  | cons call calls ih =>
    have hcall := call.reaches_read c
    unfold run
    generalize call.read c = result at hcall
    cases result with
    | ok token d =>
      rw [Escape.Result.cursor_map]
      exact hcall.trans (ih d)
    | error e d => exact hcall

/-- The line and the column of a lexer, or of the failure of one, are together at most one more than the
characters of the text.  So both fit into 32 bits when that number does. -/
theorem line_add_column_run_le (calls : List Call) (source : String) :
    (run calls (.ofText source)).cursor.line + (run calls (.ofText source)).cursor.column ≤
      source.length + 1 := by
  obtain ⟨taken, hrest, -, hplace⟩ := reaches_run calls (.ofText source)
  have hlength : taken.length ≤ source.length := by
    have hsource : source.toList = taken ++ _ := hrest
    rw [← String.length_toList, hsource, List.length_append]
    exact Nat.le_add_right _ _
  change _ ≤ 1 + 0 + taken.length at hplace
  omega

/-- A test that no line end in the text of a token is passed as a character: of a name that has none, of
a template with valid escapes, and of a line end. -/
def countsPlainly : Token → List Char → Bool
  | .identifier _, text => text.all (!isLineEnd ·)
  | .template _ (some _) _, _ | .lineEnd, _ => true
  | _, _ => false

theorem countsLines_of_countsPlainly {text : List Char} (h : countsPlainly token text = true) :
    token.CountsLines text := by
  unfold countsPlainly at h
  split at h
  · intro ch hch
    have hplain := List.all_eq_true.mp h ch hch
    rwa [Bool.not_eq_true'] at hplain
  · trivial
  · trivial
  · cases h

/-- Behind a template with an escape sequence that a line end breaks off there are two lines, and one is
counted.  Behind a name, a pair of line end characters, a template of two lines and another name, all
three lines are. -/
theorem place_of_run_broken :
    (∃ found c, run [.next] (.ofText "`\\u\n`") = .ok found c ∧ c.line = 1 ∧ c.rest = [] ∧
      "`\\u\n`".toList = found.flatMap Prod.snd ++ c.rest ∧
      c.offset = (String.ofList (found.flatMap Prod.snd)).utf8ByteSize ∧
      ((∀ x ∈ found, x.1.CountsLines x.2) →
        c.line = 1 + lineEnds (found.flatMap Prod.snd) ∧
          c.column = (lastLine (found.flatMap Prod.snd)).length)) ∧
      ∃ found c, run [.next, .next, .next, .next] (.ofText "a\r\n`\n` b") = .ok found c ∧
        c.rest = [] ∧ (∀ x ∈ found, x.1.CountsLines x.2) ∧ c.line = 1 + 2 ∧ c.column = 3 := by
  have hbroken : (match run [.next] (.ofText "`\\u\n`") with
      | .ok _ c => c.line == 1 && c.rest.isEmpty
      | .error .. => false) = true := by
    decide +kernel
  have hcounted : (match run [.next, .next, .next, .next] (.ofText "a\r\n`\n` b") with
      | .ok found c => c.rest.isEmpty && found.all fun x => countsPlainly x.1 x.2
      | .error .. => false) = true := by
    decide +kernel
  constructor
  · cases h : run [.next] (.ofText "`\\u\n`") with
    | error =>
      rw [h] at hbroken
      cases hbroken
    | ok found c =>
      rw [h] at hbroken
      obtain ⟨hline, hrest⟩ := Bool.and_eq_true_iff.mp hbroken
      exact ⟨found, c, rfl, eq_of_beq hline, List.isEmpty_iff.mp hrest, place_of_run h⟩
  · cases h : run [.next, .next, .next, .next] (.ofText "a\r\n`\n` b") with
    | error =>
      rw [h] at hcounted
      cases hcounted
    | ok found c =>
      rw [h] at hcounted
      obtain ⟨hrest, hplain⟩ := Bool.and_eq_true_iff.mp hcounted
      have hfound : ∀ x ∈ found, x.1.CountsLines x.2 := fun x hx =>
        countsLines_of_countsPlainly (List.all_eq_true.mp hplain x hx)
      obtain ⟨htext, -, hplace⟩ := place_of_run h
      obtain ⟨hline, hcolumn⟩ := hplace hfound
      rw [List.isEmpty_iff.mp hrest, List.append_nil] at htext
      rw [← htext] at hline hcolumn
      refine ⟨found, c, rfl, List.isEmpty_iff.mp hrest, hfound, hline, hcolumn.trans ?_⟩
      decide +kernel

end Lexer

end EcmaEval
