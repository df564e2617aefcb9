import EcmaEval.Proofs.Syntax.ContinuedToken
import EcmaEval.Proofs.Token.CutEscape
import EcmaEval.Proofs.Token.CutNumeral

/-!
# Tokens that are cut short

A failure says whether the text ended before the token was complete.  Where it says that it did not,
some texts could still be completed: hexadecimal digits are wanted in an escape sequence, a digit is
wanted in a numeral, a name wants the rest of its first escape sequence, or a comment the rest of its
mark.  All others fail however the text goes on.

## Main definitions

* `Lexer.CutString`: a string that ends in an escape sequence that wants digits
* `Lexer.CutShort`: a token that more text could complete

## Main results

* `Lexer.exists_next_eq_ok_iff`: which failures more text makes up for, among those that do not say so
-/

namespace EcmaEval

open Scan Cursor

variable {c c' d d' e e' start : Cursor} {ch quote : Char} {x : LexError} {token : Token} {offset : Nat}
  {gap text more digits rest rest' : List Char} {cs : List Char} {seen : String}

/-! ## Punctuators -/

namespace Punctuator

/-- The first character of a punctuator is one by itself. -/
theorem exists_spelling_eq (p : Punctuator) : ∃ (q : Punctuator) (ch : Char) (rest : List Char),
    q.spelling = [ch] ∧ p.spelling = ch :: rest := by
  have hsearch : byLength.any (fun q => q.spelling.length == 1 &&
      q.spelling.head? == p.spelling.head?) = true := by
    cases p <;> decide
  obtain ⟨q, -, hq⟩ := List.any_eq_true.mp hsearch
  obtain ⟨hlength, hhead⟩ := Bool.and_eq_true_iff.mp hq
  obtain ⟨ch, hch⟩ := List.length_eq_one_iff.mp (eq_of_beq hlength)
  have hfirst : p.spelling.head? = some ch := by rw [← eq_of_beq hhead, hch]; rfl
  obtain ⟨rest, hrest⟩ := List.head?_eq_some_iff.mp hfirst
  exact ⟨q, ch, rest, hch, hrest⟩

/-- Whether a text continues with a punctuator depends on its first character. -/
theorem longestAt?_eq_none (h : longestAt? (ch :: cs) = none) (rest : List Char) :
    longestAt? (ch :: rest) = none := by
  refine List.find?_eq_none.mpr fun p _ hp => ?_
  obtain ⟨q, first, behind, hq, hspelling⟩ := p.exists_spelling_eq
  have hprefix := (Bool.and_eq_true_iff.mp hp).1
  rw [hspelling, List.isPrefixOf_cons_cons, Bool.and_eq_true] at hprefix
  obtain rfl := eq_of_beq hprefix.1
  refine List.find?_eq_none.mp h q (mem_byLength q) ?_
  unfold isAt
  rw [hq, List.isPrefixOf_cons_cons, beq_self_eq_true, List.isPrefixOf_nil_left]
  split
  · cases hq
  · rfl

end Punctuator

namespace Lexer

/-! ## Strings -/

/-- Behind its first quote the text is a string up to an escape sequence that wants digits. -/
inductive CutString (quote : Char) : List Char → Prop where
  | cut {text : List Char} (h : Escape.CutOff text) : CutString quote ('\\' :: text)
  | char {ch : Char} {text : List Char} (hquote : ch ≠ quote) (hline : Text.isLineEnd ch = false)
    (hescape : ch ≠ '\\') (h : CutString quote text) : CutString quote (ch :: text)
  | escape {c d : Cursor} {cs : List Char} (hread : Escape.read c = .ok cs d)
    (h : CutString quote d.rest) : CutString quote ('\\' :: c.rest)

theorem CutString.ne_nil (h : CutString quote text) : text ≠ [] := by
  cases h <;> exact List.cons_ne_nil _ _

/-- A string that fails, and does not fail in a longer text, ends in an escape sequence that wants
digits. -/
theorem cutString_of_readString (hrest : c'.rest = c.rest ++ more)
    (herror : readString c quote seen = .error x d) (hopen : x.atEnd = false)
    (hok : readString c' quote seen = .ok token d') : CutString quote c.rest := by
  fun_induction readString c quote seen generalizing c' with
  | case1 =>
    cases herror
    cases hopen
  | case2 => cases herror
  | case3 c seen ch e hnext _ hquote hline =>
    rw [rest_of_next? hnext, List.cons_append] at hrest
    obtain ⟨e', hnext', -⟩ := exists_next? hrest
    rw [readString_of_next? hnext', if_neg hquote, if_pos hline] at hok
    cases hok
  | case4 c seen ch e hnext _ hquote hline hescape cs f hread _ ih =>
    obtain rfl := eq_of_beq hescape
    rw [rest_of_next? hnext] at hrest ⊢
    obtain ⟨e', hnext', he'⟩ := exists_next? hrest
    -- The sequence is not the last thing in the text, or the failure would say that the text ended.
    have hf : f.rest ≠ [] := by
      intro hend
      rw [readString_of_end hend] at herror
      cases herror
      cases hopen
    obtain ⟨f', hread', hf'⟩ := Escape.exists_read_eq_ok he' hread hf
    rw [readString_of_next? hnext', if_neg hquote, if_neg hline, if_pos (beq_self_eq_true _),
      hread'] at hok
    exact .escape hread (ih hf' herror hok)
  | case5 c seen ch e hnext _ hquote hline hescape y f hread =>
    obtain rfl := eq_of_beq hescape
    cases herror
    rw [rest_of_next? hnext] at hrest ⊢
    obtain ⟨e', hnext', he'⟩ := exists_next? hrest
    rw [readString_of_next? hnext', if_neg hquote, if_neg hline,
      if_pos (beq_self_eq_true _)] at hok
    cases hread' : Escape.read e' with
    | error =>
      rw [hread'] at hok
      cases hok
    | ok cs f' => exact .cut (Escape.cutOff_of_read he' hread hopen hread')
  | case6 c seen ch e hnext _ hquote hline hescape ih =>
    rw [rest_of_next? hnext] at hrest ⊢
    obtain ⟨e', hnext', he'⟩ := exists_next? hrest
    rw [readString_of_next? hnext', if_neg hquote, if_neg hline, if_neg hescape] at hok
    exact .char (by simpa using hquote) (Bool.eq_false_iff.mpr hline) (by simpa using hescape)
      (ih he' herror hok)

/-- Such a string is read with the digits and its quote. -/
theorem CutString.exists_readString_eq_ok (h : CutString quote text) (hquote : quote ≠ '\\') :
    ∃ more, ∀ {c : Cursor} (seen : String), c.rest = text ++ more →
      ∃ token d, readString c quote seen = .ok token d := by
  have hbackslash : ¬('\\' == quote) = true := by simpa using hquote.symm
  induction h with
  | cut hcut =>
    obtain ⟨digits, cs, hdigits⟩ := hcut.exists_read_eq_ok
    refine ⟨digits ++ [quote], fun {c} seen hrest => ?_⟩
    obtain ⟨d, hnext, hd⟩ := exists_next? hrest
    obtain ⟨e, hread, he⟩ := hdigits hd
    obtain ⟨f, hnext', -⟩ := exists_next? he
    rw [readString_of_next? hnext, if_neg hbackslash, if_neg (by decide),
      if_pos (beq_self_eq_true _), hread]
    dsimp only
    rw [readString_of_next? hnext', if_pos (beq_self_eq_true _)]
    exact ⟨_, _, rfl⟩
  | char hne hline hescape h ih =>
    obtain ⟨more, hmore⟩ := ih
    refine ⟨more, fun {c} seen hrest => ?_⟩
    obtain ⟨d, hnext, hd⟩ := exists_next? hrest
    rw [readString_of_next? hnext, if_neg (by simpa using hne), if_neg (Bool.eq_false_iff.mp hline),
      if_neg (by simpa using hescape)]
    exact hmore _ hd
  | escape hread h ih =>
    obtain ⟨more, hmore⟩ := ih
    refine ⟨more, fun {c} seen hrest => ?_⟩
    obtain ⟨d, hnext, hd⟩ := exists_next? hrest
    obtain ⟨e, hread', he⟩ := Escape.exists_read_eq_ok hd hread h.ne_nil
    rw [readString_of_next? hnext, if_neg hbackslash, if_neg (by decide),
      if_pos (beq_self_eq_true _), hread']
    exact hmore _ he

/-! ## Templates -/

/-- A template fails only where the text ends. -/
theorem atEnd_of_readTemplate {cooked : Option String} {raw : String}
    (h : readTemplate c cooked raw = .error x d) : x.atEnd = true := by
  fun_induction readTemplate c cooked raw with
  | case1 =>
    cases h
    rfl
  | case2 | case3 => cases h
  | case4 _ _ _ _ _ _ _ _ _ _ _ _ _ _ ih => exact ih h
  | case5 =>
    cases h
    assumption
  | case6 _ _ _ _ _ _ _ _ _ _ _ _ _ _ _ ih => exact ih h
  | case7 _ _ _ _ _ _ _ _ _ _ _ _ ih => exact ih h
  | case8 _ _ _ _ _ _ _ _ _ _ _ ih => exact ih h

theorem atEnd_of_readTemplatePart {closed opened : TemplatePart}
    (h : readTemplatePart c closed opened = .error x d) : x.atEnd = true := by
  unfold readTemplatePart at h
  cases hread : readTemplate c (some "") "" with
  | ok found e =>
    rw [hread] at h
    cases h
  | error y e =>
    rw [hread] at h
    cases h
    exact atEnd_of_readTemplate hread

/-! ## Tokens -/

/-- The text that begins `offset` bytes behind the front of a source is a token up to its end, and more
text could complete it, but a failure to read it says that the text did not end. -/
inductive CutShort (offset : Nat) : List Char → Prop where
  | string {quote : Char} {text : List Char} (hquote : (quote == '\x27' || quote == '"') = true)
    (h : CutString quote text) : CutShort offset (quote :: text)
  | name : CutShort offset ['\\']
  | escape {digits : List Char} (hlength : digits.length < 4)
    (hdigits : digits.all Escape.isHex = true) : CutShort offset ('\\' :: 'u' :: digits)
  | numeral {text : List Char} (h : Numeral.CutShort text) : CutShort offset text
  | bang (hzero : offset = 0) : CutShort offset ['#']

/-- A name that fails, and does not fail in a longer text, wants the rest of its first escape
sequence. -/
theorem cutShort_of_readIdentifierEscape {first : Char} (hrest : d'.rest = d.rest ++ more)
    (herror : Escape.readIdentifierEscape d = .error x e) (hopen : x.atEnd = false)
    (hok : Escape.readIdentifierEscape d' = .ok first e') : CutShort offset ('\\' :: d.rest) := by
  cases hcons : d.rest with
  | nil => exact .name
  | cons ch behind =>
    rw [hcons] at hrest
    unfold Escape.readIdentifierEscape at herror hok
    by_cases hu : ch = 'u'
    · subst hu
      obtain ⟨hskip, hd⟩ := skipIf?_of_rest hcons
      obtain ⟨hskip', hd'⟩ := skipIf?_of_rest hrest
      rw [hskip] at herror
      rw [hskip'] at hok
      obtain ⟨hlength, hdigits⟩ :=
        Escape.cutOff_of_readCodePoint (hd'.trans (congrArg (· ++ more) hd.symm)) herror hopen hok
      rw [hd] at hlength hdigits
      exact .escape hlength hdigits
    · have hskip : d'.skipIf? 'u' = none := by
        rw [skipIf?, peek?_of_rest hrest, if_neg (by simpa using hu)]
      rw [hskip] at hok
      cases hok

theorem starts_iff : (Number.isDecimalDigit ch || (ch == '.' && d.peek?.any Number.isDecimalDigit)) =
    true ↔ Numeral.Starts ch d := by
  rw [Bool.or_eq_true, Bool.and_eq_true, beq_iff_eq]
  exact Iff.rfl

/-- A character that begins no token begins none in a longer text. -/
theorem readPunctuator_of_error (hrest : c.rest = ch :: rest) (hrest' : c'.rest = ch :: rest')
    (h : readPunctuator c ch = .error x e) : ∃ e', readPunctuator c' ch = .error x e' := by
  unfold readPunctuator at h ⊢
  rw [hrest] at h
  split at h
  · cases h
  next hnone =>
  cases h
  rw [hrest', Punctuator.longestAt?_eq_none hnone]
  exact ⟨_, rfl⟩

/-- A punctuator of one character is read whatever stands behind it. -/
theorem readPunctuator_ne_error (hmark : Punctuator.longestAt? [ch] ≠ none)
    (hrest : c.rest = ch :: rest) : readPunctuator c ch ≠ .error x e := by
  intro h
  unfold readPunctuator at h
  rw [hrest] at h
  split at h
  · cases h
  · next hnone => exact hmark (Punctuator.longestAt?_eq_none hnone [])

/-- A token that fails, and does not fail in a longer text, is cut short. -/
theorem cutShort_of_readAt (hnext : c.next? = some (ch, d)) (hnext' : c'.next? = some (ch, d'))
    (hsame : d.SamePlace d.rest more d') (herror : readAt c ch d = .error x e)
    (hopen : x.atEnd = false) (hok : readAt c' ch d' = .ok token e') : CutShort offset c.rest := by
  rw [rest_of_next? hnext]
  -- Both readers choose by the first character, and only a point asks for the one behind it.
  unfold readAt at herror hok
  split at herror
  · next hquote =>
    rw [if_pos hquote] at hok
    exact .string hquote (cutString_of_readString hsame.rest herror hopen hok)
  next hquote =>
  rw [if_neg hquote] at hok
  split at herror
  · rw [atEnd_of_readTemplatePart herror] at hopen
    cases hopen
  next htemplate =>
  rw [if_neg htemplate] at hok
  split at herror
  · next hdigit =>
    have hstarts := starts_iff.mp hdigit
    have hstarts' : Numeral.Starts ch d' := by
      refine hstarts.imp_right fun ⟨hpoint, hbehind⟩ => ⟨hpoint, ?_⟩
      rw [hsame.peek? fun hend => by rw [peek?_eq_none hend] at hbehind; cases hbehind]
      exact hbehind
    rw [if_pos (starts_iff.mpr hstarts')] at hok
    exact .numeral (Numeral.cutShort_of_read hsame hstarts herror hok)
  next hdigit =>
  split at herror
  · next hescape =>
    obtain rfl := eq_of_beq hescape
    rw [if_neg (by exact Bool.false_ne_true), if_pos hescape] at hok
    split at herror
    · cases herror
    next y f hread =>
    cases herror
    split at hok
    · next first f' hread' => exact cutShort_of_readIdentifierEscape hsame.rest hread hopen hread'
    · cases hok
  next hescape =>
  split at herror
  · cases herror
  next hstart =>
  have hrest := rest_of_next? hnext
  obtain ⟨f, hpunctuator⟩ := readPunctuator_of_error hrest (rest_of_next? hnext') herror
  rw [if_neg hescape, if_neg hstart, hpunctuator] at hok
  split at hok
  · next hdigit' =>
    rcases starts_iff.mp hdigit' with hch | ⟨rfl, -⟩
    · exact absurd (starts_iff.mpr (.inl hch)) hdigit
    · exact absurd herror (readPunctuator_ne_error (by decide) hrest)
  · cases hok

/-! ## With the rest behind it -/

/-- A character between the blank and the end of the first table, which begins no comment, begins a
token. -/
theorem exists_next_eq_readAt (hlow : 0x20 < ch.toNat) (hhigh : ch.toNat < 0x80) (hslash : ch ≠ '/')
    (hhash : ch ≠ '#') (hrest : start.rest = ch :: rest) :
    ∃ c d, d.rest = rest ∧ next start = readAt c ch d := by
  have hblank : Text.isSeparator ch = false := by
    have hmark : ch ≠ Text.byteOrderMark := by
      rintro rfl
      exact absurd hhigh (by decide)
    simp [Text.isSeparator, Text.isWhiteSpace_eq_false hlow (by omega), hmark]
  have hline : Text.isLineEnd ch = false := by
    rw [Bool.eq_false_iff]
    intro hline
    have hchars : Text.lineEndChars.all (fun ch => ch.toNat ≤ 0x20 || 0x80 ≤ ch.toNat) = true := by
      decide
    have := List.all_eq_true.mp hchars ch (Text.mem_lineEndChars_of_isLineEnd hline)
    simp only [Bool.or_eq_true, decide_eq_true_eq] at this
    omega
  have hdrop : start.rest.dropWhile Text.isSeparator = ch :: rest := by
    rw [hrest, List.dropWhile_cons_of_neg (Bool.eq_false_iff.mp hblank)]
  obtain ⟨c, d, -, -, hd, hnext⟩ := next_eq_readAt hdrop hline hslash hhash
  exact ⟨c, d, hd, hnext⟩

theorem exists_readAt_of_escape {first : Char} (hd : Escape.readIdentifierEscape d = .ok first e) :
    ∃ token f, readAt c '\\' d = .ok token f := by
  unfold readAt
  rw [if_neg (by decide), if_neg (by decide), if_neg (by exact Bool.false_ne_true),
    if_pos (beq_self_eq_true _), hd]
  exact ⟨_, _, rfl⟩

/-- A token that is cut short is read with the text that it wants. -/
theorem CutShort.exists_next_eq_ok (h : CutShort offset text) :
    ∃ more, ∀ {start : Cursor}, start.offset = offset → start.rest = text ++ more →
      ∃ token d, next start = .ok token d := by
  cases h with
  | @string quote text hquote h =>
    have hchar : quote = '\x27' ∨ quote = '"' := by simpa using hquote
    obtain ⟨more, hmore⟩ := h.exists_readString_eq_ok (by rcases hchar with rfl | rfl <;> decide)
    refine ⟨more, fun {start} _ hrest => ?_⟩
    obtain ⟨c, d, hd, hnext⟩ := exists_next_eq_readAt
      (by rcases hchar with rfl | rfl <;> decide) (by rcases hchar with rfl | rfl <;> decide)
      (by rcases hchar with rfl | rfl <;> decide) (by rcases hchar with rfl | rfl <;> decide) hrest
    rw [hnext, readAt, if_pos hquote]
    exact hmore "" hd
  | name =>
    refine ⟨['u', '0', '0', '6', '1'], fun {start} _ hrest => ?_⟩
    obtain ⟨c, d, hd, hnext⟩ := exists_next_eq_readAt (by decide) (by decide) (by decide) (by decide)
      hrest
    rw [hnext]
    have hquad : Escape.IsCodePoint ['u', '0', '0', '6', '1'] 'a' :=
      .quad (show ['0', '0', '6', '1'].length = 4 from rfl) rfl
    obtain ⟨e, hread, -⟩ :=
      Escape.exists_readIdentifierEscape_eq_ok hquad (hd.trans (List.append_nil _).symm)
    exact exists_readAt_of_escape hread
  | escape hlength hdigits =>
    obtain ⟨zeros, hcount, hall⟩ := Escape.exists_zeros hlength hdigits
    refine ⟨zeros, fun {start} _ hrest => ?_⟩
    obtain ⟨c, d, hd, hnext⟩ := exists_next_eq_readAt (by decide) (by decide) (by decide) (by decide)
      hrest
    rw [hnext]
    obtain ⟨e, hread, -⟩ := Escape.exists_readIdentifierEscape_eq_ok (.quad hcount hall)
      (hd.trans (List.append_nil _).symm)
    exact exists_readAt_of_escape hread
  | numeral h =>
    obtain ⟨first, behind, rfl, hstarts⟩ := h.exists_cons
    refine ⟨['0'], fun {start} _ hrest => ?_⟩
    obtain ⟨d, -, hd⟩ := exists_next? hrest
    have hfirst := hstarts hd
    have hbounds : 0x20 < first.toNat ∧ first.toNat < 0x80 := by
      rcases hfirst with h | ⟨rfl, -⟩
      · have := Number.isDecimalDigit_iff.mp h
        omega
      · decide
    obtain ⟨c, d, hd, hnext⟩ := exists_next_eq_readAt hbounds.1 hbounds.2
      (hfirst.ne (by decide) (by decide)) (hfirst.ne (by decide) (by decide)) hrest
    have hsingle : first ≠ '\x27' := hfirst.ne (by decide) (by decide)
    have hdouble : first ≠ '"' := hfirst.ne (by decide) (by decide)
    have htemplate : first ≠ '\x60' := hfirst.ne (by decide) (by decide)
    rw [hnext, readAt, if_neg (by simp [hsingle, hdouble]), if_neg (by simpa using htemplate),
      if_pos (starts_iff.mpr (hstarts hd))]
    exact Numeral.exists_read_eq_ok h (congrArg (first :: ·) hd)
  | bang hzero =>
    refine ⟨['!'], fun {start} hoffset hrest => ?_⟩
    obtain ⟨d, hnext, hd⟩ := exists_next? hrest
    have hbegin : (start.offset == 0) = true := beq_iff_eq.mpr (hoffset.trans hzero)
    rw [next_of_next? (skipWhile_of_next?_eq_false hnext (by decide)) hnext, if_neg (by decide),
      if_neg (by exact Bool.false_ne_true), if_neg (by exact Bool.false_ne_true),
      if_pos (by rw [hbegin, peek?_of_rest hd]; rfl)]
    rcases next_skipWhile_onLine d with ⟨e, he, -⟩ | ⟨e, he⟩
    · exact ⟨_, e, he⟩
    · exact ⟨_, e, he⟩

/-! ## Whole texts -/

/-- A slash that begins no comment is a punctuator. -/
theorem readAt_slash_ne_error (hnext : c.next? = some ('/', d)) : readAt c '/' d ≠ .error x e := by
  unfold readAt
  rw [if_neg (by decide), if_neg (by decide), if_neg (by exact Bool.false_ne_true),
    if_neg (by decide), if_neg (by decide)]
  exact readPunctuator_ne_error (by decide) (rest_of_next? hnext)

/-- The first character of a token that fails is that of a token in a longer text, or there it begins a
comment. -/
theorem BeginsToken.continued (h : BeginsToken c ch d) (hnext : c'.next? = some (ch, d'))
    (hoffset : c'.offset = c.offset) (hsame : d.SamePlace d.rest more d')
    (herror : readAt c ch d = .error x e) :
    BeginsToken c' ch d' ∨ c.offset = 0 ∧ c.rest = ['#'] := by
  -- Where more text follows the character behind is the same.  At the end of the text there may be a
  -- new one: it would make a comment of a slash, which does not fail, or of a number sign at the front.
  by_cases hend : d.rest = []
  · by_cases hbang : ch = '#' ∧ c.offset = 0
    · obtain ⟨rfl, hzero⟩ := hbang
      exact .inr ⟨hzero, by rw [rest_of_next? h.next?, hend]⟩
    · refine .inl ⟨hnext, h.blank, h.line, ?_, ?_⟩
      · rintro rfl
        exact absurd herror (readAt_slash_ne_error h.next?)
      · exact fun hch hzero => absurd ⟨hch, hoffset ▸ hzero⟩ hbang
  · have hpeek := hsame.peek? hend
    refine .inl ⟨hnext, h.blank, h.line, ?_, ?_⟩
    · rw [hpeek]
      exact h.comment
    · rw [hpeek, hoffset]
      exact h.bang

/-- A failure that does not say that the text ended is one of every longer text, unless a token is cut
short at the end of this one. -/
theorem exists_next_eq_ok_iff (h : next start = .error x e) (hopen : x.atEnd = false) :
    (∃ more token d, next { start with rest := start.rest ++ more } = .ok token d) ↔
      ∃ gap text, start.rest = gap ++ text ∧ IsGap gap ∧
        CutShort (start.offset + byteCount gap) text := by
  constructor
  · rintro ⟨more, token, f, hok⟩
    generalize hresult : next start = result at h
    have hends := nextEnds_next start
    rw [hresult] at hends
    cases hends with
    | endOfInput | lineEnd => cases h
    | comment =>
      cases h
      cases hopen
    | @token gap c d ch hgap hmove hbegins =>
      refine ⟨gap, c.rest, hmove.rest, hgap, ?_⟩
      have hrest : ({ start with rest := start.rest ++ more } : Cursor).rest =
          gap ++ (c.rest ++ more) := by
        rw [hmove.rest, List.append_assoc]
      obtain ⟨c', hmove', hc', hnext⟩ := exists_next_eq hgap hrest
      have hoffset : c'.offset = c.offset := hmove'.offset.trans hmove.offset.symm
      rw [rest_of_next? hbegins.next?] at hc'
      obtain ⟨d', hnext', hd'⟩ := exists_next? hc'
      have hsame : d.SamePlace d.rest more d' := by
        refine ⟨List.suffix_refl _, hd', ?_⟩
        rw [offset_of_next? hnext', offset_of_next? hbegins.next?, hoffset]
      rw [← hmove.offset]
      rcases hbegins.continued hnext' hoffset hsame h with hbegins' | ⟨hzero, hc⟩
      · rw [hnext, hbegins'.next_eq] at hok
        exact cutShort_of_readAt hbegins.next? hnext' hsame h hopen hok
      · rw [hc]
        exact .bang hzero
  · rintro ⟨gap, text, hrest, hgap, hcut⟩
    obtain ⟨more, hmore⟩ := hcut.exists_next_eq_ok
    have hrest' : ({ start with rest := start.rest ++ more } : Cursor).rest =
        gap ++ (text ++ more) := by
      rw [hrest, List.append_assoc]
    obtain ⟨c, hmove, hc, hnext⟩ := exists_next_eq hgap hrest'
    obtain ⟨token, d, hok⟩ := hmore hmove.offset hc
    exact ⟨more, token, d, hnext.trans hok⟩

/-- A string is cut short behind one digit of an escape sequence. -/
theorem exists_next_eq_ok_pair : ∃ x e, next (.ofText "'\\x4") = .error x e ∧ x.atEnd = false ∧
    ∃ more token d, next { Cursor.ofText "'\\x4" with rest := "'\\x4".toList ++ more } =
      .ok token d := by
  have hread : (match next (.ofText "'\\x4") with
      | .error x _ => x.atEnd == false
      | .ok _ _ => false) = true := by
    decide +kernel
  split at hread
  · next x e h =>
    have hcut : CutShort 0 "'\\x4".toList :=
      .string rfl (.cut (.pair (show ['4'].length < 2 by decide) rfl))
    exact ⟨x, e, h, eq_of_beq hread,
      (exists_next_eq_ok_iff h (eq_of_beq hread)).mpr ⟨[], _, rfl, .nil, hcut⟩⟩
  · cases hread

end Lexer

end EcmaEval
