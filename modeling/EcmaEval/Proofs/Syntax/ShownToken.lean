import EcmaEval.Integer.Text
import EcmaEval.Proofs.Object.PropertyOrder
import EcmaEval.Proofs.Syntax.ContinuedToken
import EcmaEval.Proofs.Syntax.Numeral
import Mathlib.Data.List.TakeWhile

/-!
# The tokens of shown values

What the text of a value begins with is read as one token again: a quoted text as a string, the
digits of an integer as a numeral, a word as a word.  A quoted text is no token if it has a line or
paragraph separator, which ends a line of source text and is quoted as it is.

## Main definitions

* `Lexer.Begins`: a text begins with a token
* `Text.IsOnLine`: a text has neither separator
* `Numeral.valueOfDigits`: the number that digits are as a literal

## Main results

* `Lexer.begins_quote`, `Lexer.breaks_quote`: a quoted text is read as the text that was quoted,
  exactly if that has no separator
* `Lexer.begins_bigint`: the digits of an integer
* `Lexer.begins_digits`: digits that are a number
-/

namespace EcmaEval

/-! ## Texts behind a cursor -/

namespace Cursor

variable {c : Cursor} {ch : Char} {cs : List Char}

/-- The next character of a text that is known. -/
theorem exists_next? (h : c.rest = ch :: cs) : ∃ d, c.next? = some (ch, d) ∧ d.rest = cs := by
  unfold next?
  rw [h]
  exact ⟨_, rfl, rfl⟩

theorem peek?_of_rest (h : c.rest = ch :: cs) : c.peek? = some ch := by
  rw [peek?, h]
  rfl

theorem rest_skip (h : c.rest = ch :: cs) : c.skip.rest = cs := by
  obtain ⟨d, hd, hrest⟩ := exists_next? h
  rw [skip, hd]
  exact hrest

theorem rest_skipBy (n : Nat) : (c.skipBy n).rest = c.rest.drop n := by
  induction n generalizing c with
  | zero => rfl
  | succ n ih =>
    rw [skipBy, ih]
    cases hrest : c.rest with
    | nil => simp [skip, next?, hrest]
    | cons ch cs => rw [rest_skip hrest, List.drop_succ_cons]

end Cursor

namespace Lexer

open Scan

variable {text rest : List Char} {token : Token} {start c d : Cursor} {ch : Char} {cs : List Char}

/-- The text begins with a token behind which `rest` stands, wherever the text itself stands and
whatever blanks are before it. -/
def Begins (text : List Char) (token : Token) (rest : List Char) : Prop :=
  ∀ start : Cursor, start.rest.dropWhile Text.isSeparator = text →
    ∃ d, next start = .ok token d ∧ d.rest = rest

/-- The text begins with something that is no token. -/
def Breaks (text : List Char) (cause : LexCause) : Prop :=
  ∀ start : Cursor, start.rest.dropWhile Text.isSeparator = text →
    ∃ d, next start = .error ⟨cause, false⟩ d

/-- The next token is read at the first character that is no blank, unless that ends a line or may
begin a comment. -/
theorem next_eq_readAt (h : start.rest.dropWhile Text.isSeparator = ch :: cs)
    (hline : Text.isLineEnd ch = false) (hslash : ch ≠ '/') (hhash : ch ≠ '#') :
    ∃ c d, c.rest = ch :: cs ∧ c.next? = some (ch, d) ∧ d.rest = cs ∧
      next start = readAt c ch d := by
  have hrest : (start.skipWhile Text.isSeparator).rest = ch :: cs := h
  obtain ⟨d, hd, hdrest⟩ := Cursor.exists_next? hrest
  refine ⟨_, d, hrest, hd, hdrest, ?_⟩
  rw [next_of_next? rfl hd]
  simp [hline, hslash, hhash]

/-! ### The end of the text and punctuators -/

theorem begins_end : Begins [] .endOfInput [] := by
  intro start h
  have hrest : (start.skipWhile Text.isSeparator).rest = [] := h
  refine ⟨start.skipWhile Text.isSeparator, ?_, hrest⟩
  rw [next]
  split
  · rfl
  · next h' => rw [Cursor.next?_of_end hrest] at h'; cases h'

/-- The character begins no literal, no comment and no line. -/
def isPlainStart (ch : Char) : Bool :=
  !(ch == '\x27' || ch == '"' || ch == '\x60' || Number.isDecimalDigit ch || ch == '.' ||
    ch == '\\' || Text.isLineEnd ch || ch == '/' || ch == '#')

/-- Such a character begins a name or a punctuator. -/
theorem next_of_isPlainStart (hch : isPlainStart ch = true)
    (h : start.rest.dropWhile Text.isSeparator = ch :: cs) :
    ∃ c d, c.rest = ch :: cs ∧ d.rest = cs ∧ next start =
      if isIdentifierStart ch = true then readIdentifier d ch false else readPunctuator c ch := by
  simp only [isPlainStart, Bool.not_eq_true', Bool.or_eq_false_iff, beq_eq_false_iff_ne] at hch
  obtain ⟨⟨⟨⟨⟨⟨⟨⟨hsingle, hdouble⟩, hback⟩, hdigit⟩, hpoint⟩, hescape⟩, hline⟩, hslash⟩, hhash⟩ :=
    hch
  obtain ⟨c, d, hc, -, hd, hread⟩ := next_eq_readAt h hline hslash hhash
  refine ⟨c, d, hc, hd, ?_⟩
  rw [hread, readAt]
  simp [hsingle, hdouble, hback, hdigit, hpoint, hescape]

theorem begins_punctuator {mark : Punctuator} (hch : isPlainStart ch = true)
    (hname : isIdentifierStart ch = false)
    (hmark : Punctuator.longestAt? (ch :: cs) = some mark) :
    Begins (ch :: cs) (.punctuator mark) ((ch :: cs).drop mark.spelling.length) := by
  intro start h
  obtain ⟨c, d, hc, -, hnext⟩ := next_of_isPlainStart hch h
  refine ⟨c.skipBy mark.spelling.length, ?_, ?_⟩
  · rw [hnext, if_neg (by simp [hname]), readPunctuator, hc, hmark]
  · rw [Cursor.rest_skipBy, hc]

/-- A bracket, a comma or an arrow, which no longer punctuator begins with. -/
theorem begins_mark (mark : Punctuator) (h : mark ∈ [Punctuator.leftParen, .rightParen,
    .leftBracket, .rightBracket, .leftBrace, .rightBrace, .comma, .arrow]) (cs : List Char) :
    Begins (mark.spelling ++ cs) (.punctuator mark) cs := by
  simp only [List.mem_cons, List.not_mem_nil, or_false] at h
  rcases h with rfl | rfl | rfl | rfl | rfl | rfl | rfl | rfl
  all_goals
    refine begins_punctuator (by decide) (by decide) ?_
    simp [Punctuator.longestAt?, Punctuator.byLength, Punctuator.isAt, Punctuator.spelling]

/-- A sign before a digit is no part of a longer punctuator. -/
theorem begins_minus (hdigit : Number.isDecimalDigit ch = true) (cs : List Char) :
    Begins ('-' :: ch :: cs) (.punctuator .minus) (ch :: cs) := by
  have hminus : ch ≠ '-' := by rintro rfl; cases hdigit
  have hassign : ch ≠ '=' := by rintro rfl; cases hdigit
  exact begins_punctuator (by decide) (by decide) (by simp [Punctuator.longestAt?, Punctuator.byLength,
    Punctuator.isAt, Punctuator.spelling, hminus.symm, hassign.symm])

/-! ### Words -/

/-- A name goes up to the first character that goes on no name. -/
theorem readName_of_rest {name : List Char} (hname : ∀ ch ∈ name, isIdentifierPart ch = true)
    (hc : c.rest = name ++ rest)
    (hrest : ∀ ch ∈ rest.head?, isIdentifierPart ch = false ∧ ch ≠ '\\') (seen : String)
    (escaped : Bool) :
    ∃ d, readName c seen escaped = ((seen ++ String.ofList name, escaped), d) ∧ d.rest = rest := by
  induction name generalizing c seen with
  | nil =>
    refine ⟨c, ?_, hc⟩
    rw [String.ofList_nil, String.append_empty]
    cases rest with
    | nil =>
      rw [readName]
      split
      · rfl
      · next h' => rw [Cursor.next?_of_end hc] at h'; cases h'
    | cons ch rest =>
      obtain ⟨d, hd, -⟩ := Cursor.exists_next? hc
      obtain ⟨hpart, hescape⟩ := hrest ch rfl
      rw [readName_of_next? hd]
      simp [hpart, hescape]
  | cons ch name ih =>
    obtain ⟨d, hd, hdrest⟩ := Cursor.exists_next? hc
    rw [readName_of_next? hd, if_pos (hname ch List.mem_cons_self)]
    obtain ⟨e, he, herest⟩ := ih (fun ch hch => hname ch (List.mem_cons_of_mem _ hch)) hdrest
      (seen.push ch)
    refine ⟨e, ?_, herest⟩
    rw [he, String.push_eq_append, String.append_assoc, ← String.ofList_cons]

theorem begins_name {name : List Char} (hch : isPlainStart ch = true)
    (hstart : isIdentifierStart ch = true) (hname : ∀ ch ∈ name, isIdentifierPart ch = true)
    (hrest : ∀ ch ∈ rest.head?, isIdentifierPart ch = false ∧ ch ≠ '\\') :
    Begins (ch :: (name ++ rest)) (nameToken (String.ofList (ch :: name)) false) rest := by
  intro start h
  obtain ⟨_, d, -, hd, hnext⟩ := next_of_isPlainStart hch h
  obtain ⟨e, he, herest⟩ := readName_of_rest hname hd hrest ch.toString false
  refine ⟨e, ?_, herest⟩
  rw [hnext, if_pos hstart, readIdentifier, he]
  simp [Char.toString, String.ofList_cons]

/-! ### Quoted texts -/

end Lexer

/-- The text has neither the line separator nor the paragraph separator. -/
def Text.IsOnLine (text : List Char) : Prop :=
  ∀ ch ∈ text, ch.toNat ≠ 0x2028 ∧ ch.toNat ≠ 0x2029

namespace Escape

open Scan

variable {c : Cursor} {ch letter : Char} {rest : List Char}

theorem read_of_letter (hletter : letterEscape? letter = some ch) (hc : c.rest = letter :: rest) :
    ∃ d, read c = .ok [ch] d ∧ d.rest = rest := by
  obtain ⟨d, hd, hrest⟩ := Cursor.exists_next? hc
  refine ⟨d, ?_, hrest⟩
  rw [read, hd]
  simp only [hletter]

/-- The character has no meaning behind a backslash. -/
def isOrdinary (ch : Char) : Bool :=
  (letterEscape? ch).isNone && !('0' ≤ ch && ch ≤ '7') && ch != 'x' && ch != 'u' &&
    !Text.isLineEnd ch

theorem read_of_isOrdinary (hch : isOrdinary ch = true) (hc : c.rest = ch :: rest) :
    ∃ d, read c = .ok [ch] d ∧ d.rest = rest := by
  simp only [isOrdinary, Bool.and_eq_true, Option.isNone_iff_eq_none, Bool.not_eq_true',
    bne_iff_ne] at hch
  obtain ⟨⟨⟨⟨hletter, hoctal⟩, hx⟩, hu⟩, hline⟩ := hch
  have hzero : ch ≠ '0' := by rintro rfl; cases hoctal
  obtain ⟨d, hd, hrest⟩ := Cursor.exists_next? hc
  refine ⟨d, ?_, hrest⟩
  rw [read, hd]
  simp [hletter, hzero, hoctal, hx, hu, hline]

theorem hexValue?_digitChar {n : Nat} (h : n < 0x10) : hexValue? (Nat.digitChar n) = some n := by
  revert n
  decide

/-- Four digits are read as the number whose digits they are. -/
theorem readQuad_hexQuad {n : Nat} (hn : n < 0x10000)
    (hc : c.rest = Text.hexQuad n ++ rest) :
    ∃ d, readQuad c 0 4 = .ok (charOf n) d ∧ d.rest = rest := by
  obtain ⟨c₁, h₁, hc₁⟩ := Cursor.exists_next? hc
  obtain ⟨c₂, h₂, hc₂⟩ := Cursor.exists_next? hc₁
  obtain ⟨c₃, h₃, hc₃⟩ := Cursor.exists_next? hc₂
  obtain ⟨c₄, h₄, hc₄⟩ := Cursor.exists_next? hc₃
  have hdigit (k : Nat) : hexValue? (Nat.digitChar (k % 0x10)) = some (k % 0x10) :=
    hexValue?_digitChar (Nat.mod_lt _ (by decide))
  refine ⟨c₄, ?_, hc₄⟩
  have hvalue : (((0 * 16 + n / 0x1000 % 0x10) * 16 + n / 0x100 % 0x10) * 16 + n / 0x10 % 0x10) * 16 +
      n % 0x10 = n := by omega
  simp only [readQuad, h₁, h₂, h₃, h₄, hdigit, hvalue]

/-- A control is written by its number. -/
theorem read_of_hexQuad (hcontrol : ch.toNat < 0x20)
    (hc : c.rest = 'u' :: (Text.hexQuad ch.toNat ++ rest)) :
    ∃ d, read c = .ok [ch] d ∧ d.rest = rest := by
  obtain ⟨d, hd, hdrest⟩ := Cursor.exists_next? hc
  obtain ⟨e, he, herest⟩ := readQuad_hexQuad (by omega) hdrest
  refine ⟨e, ?_, herest⟩
  -- The first digit is a zero, so this is no code point in braces.
  have hbrace : d.skipIf? '\x7b' = none := by
    rw [Cursor.skipIf?, Cursor.peek?_of_rest hdrest, if_neg]
    rw [Nat.div_eq_of_lt (by omega)]
    decide
  have hchar : charOf ch.toNat = ch := by
    rw [charOf, if_pos (.inl (by omega)), Char.ofNat_toNat]
  rw [read, hd]
  simp only [letterEscape?]
  simp [readCodePoint, hbrace, he, hchar, Result.map]

end Escape

namespace Lexer

open Scan

variable {text rest : List Char} {c : Cursor} {ch : Char} {cs : List Char}

/-- A character is quoted by a letter, by a backslash before it, by its number or as itself. -/
theorem quoteChar_cases (ch : Char) :
    (∃ letter, Text.quoteChar ch = ['\\', letter] ∧ Escape.letterEscape? letter = some ch) ∨
    (Text.quoteChar ch = ['\\', ch] ∧ Escape.isOrdinary ch = true) ∨
    (Text.quoteChar ch = '\\' :: 'u' :: Text.hexQuad ch.toNat ∧ ch.toNat < 0x20) ∨
    (Text.quoteChar ch = [ch] ∧ ch ≠ '"' ∧ ch ≠ '\\' ∧ ch ≠ '\n' ∧ ch ≠ '\r') := by
  by_cases hquote : ch = '"'
  · subst hquote
    exact .inr (.inl (by decide))
  by_cases hescape : ch = '\\'
  · subst hescape
    exact .inr (.inl (by decide))
  by_cases hfeed : ch = '\n'
  · subst hfeed
    exact .inl ⟨'n', by decide⟩
  by_cases hreturn : ch = '\r'
  · subst hreturn
    exact .inl ⟨'r', by decide⟩
  by_cases htab : ch = '\t'
  · subst htab
    exact .inl ⟨'t', by decide⟩
  by_cases hback : ch.toNat = 0x8
  · obtain rfl : ch = Char.ofNat 0x8 := by rw [← hback, Char.ofNat_toNat]
    exact .inl ⟨'b', by decide⟩
  by_cases hform : ch.toNat = 0xC
  · obtain rfl : ch = Char.ofNat 0xC := by rw [← hform, Char.ofNat_toNat]
    exact .inl ⟨'f', by decide⟩
  by_cases hcontrol : ch.toNat < 0x20
  · exact .inr (.inr (.inl ⟨by
      simp [Text.quoteChar, hquote, hescape, hfeed, hreturn, htab, hback, hform, hcontrol],
      hcontrol⟩))
  · exact .inr (.inr (.inr ⟨by
      simp [Text.quoteChar, hquote, hescape, hfeed, hreturn, htab, hback, hform, hcontrol],
      hquote, hescape, hfeed, hreturn⟩))

theorem readString_of_escape {d e : Cursor} (hc : c.next? = some ('\\', d))
    (hread : Escape.read d = .ok [ch] e) (seen : String) :
    readString c '"' seen = readString e '"' (seen.push ch) := by
  rw [readString_of_next? hc, if_neg (by decide), if_neg (by decide), if_pos (by decide), hread]
  rfl

/-- A quoted character is read back, unless it is a separator. -/
theorem readString_quoteChar (hch : ch.toNat ≠ 0x2028 ∧ ch.toNat ≠ 0x2029)
    (hc : c.rest = Text.quoteChar ch ++ rest) (seen : String) :
    ∃ d, d.rest = rest ∧ readString c '"' seen = readString d '"' (seen.push ch) := by
  rcases quoteChar_cases ch with ⟨letter, hquoted, hletter⟩ | ⟨hquoted, hordinary⟩ |
    ⟨hquoted, hcontrol⟩ | ⟨hquoted, hquote, hescape, hfeed, hreturn⟩
  all_goals
    rw [hquoted] at hc
    obtain ⟨d, hd, hdrest⟩ := Cursor.exists_next? hc
  · obtain ⟨e, he, herest⟩ := Escape.read_of_letter hletter hdrest
    exact ⟨e, herest, readString_of_escape hd he seen⟩
  · obtain ⟨e, he, herest⟩ := Escape.read_of_isOrdinary hordinary hdrest
    exact ⟨e, herest, readString_of_escape hd he seen⟩
  · obtain ⟨e, he, herest⟩ := Escape.read_of_hexQuad hcontrol hdrest
    exact ⟨e, herest, readString_of_escape hd he seen⟩
  · have hline : Text.isLineEnd ch = false := by simp [Text.isLineEnd, hfeed, hreturn, hch]
    refine ⟨d, hdrest, ?_⟩
    rw [readString_of_next? hd, if_neg (by simpa using hquote), if_neg (by simp [hline]),
      if_neg (by simpa using hescape)]

/-- A separator is quoted as it is, and ends the line. -/
theorem readString_separator (hch : ¬(ch.toNat ≠ 0x2028 ∧ ch.toNat ≠ 0x2029))
    (hc : c.rest = Text.quoteChar ch ++ rest) (seen : String) :
    ∃ d, readString c '"' seen = stop .unterminatedString d := by
  have hseparator : ch = Char.ofNat 0x2028 ∨ ch = Char.ofNat 0x2029 := by
    rw [← Char.ofNat_toNat ch]
    rcases not_and_or.mp hch with h | h
    · exact .inl (congrArg Char.ofNat (of_not_not h))
    · exact .inr (congrArg Char.ofNat (of_not_not h))
  have hquoted : Text.quoteChar ch = [ch] := by rcases hseparator with rfl | rfl <;> decide
  have hline : (ch == '"') = false ∧ Text.isLineEnd ch = true := by
    rcases hseparator with rfl | rfl <;> decide
  rw [hquoted] at hc
  obtain ⟨d, hd, -⟩ := Cursor.exists_next? hc
  refine ⟨d, ?_⟩
  rw [readString_of_next? hd, if_neg (by simp [hline.1]), if_pos hline.2]

theorem readString_quote {text : List Char} (htext : Text.IsOnLine text)
    (hc : c.rest = text.flatMap Text.quoteChar ++ '"' :: rest) (seen : String) :
    ∃ d, readString c '"' seen = .ok (.string (seen ++ String.ofList text)) d ∧ d.rest = rest := by
  induction text generalizing c seen with
  | nil =>
    obtain ⟨d, hd, hdrest⟩ := Cursor.exists_next? hc
    refine ⟨d, ?_, hdrest⟩
    rw [readString_of_next? hd, if_pos (by decide), String.ofList_nil, String.append_empty]
  | cons ch text ih =>
    rw [List.flatMap_cons, List.append_assoc] at hc
    obtain ⟨d, hdrest, hd⟩ := readString_quoteChar (htext ch List.mem_cons_self) hc seen
    obtain ⟨e, he, herest⟩ := ih (fun ch hch => htext ch (List.mem_cons_of_mem _ hch)) hdrest
      (seen.push ch)
    refine ⟨e, ?_, herest⟩
    rw [hd, he, String.push_eq_append, String.append_assoc, ← String.ofList_cons]

theorem readString_quote_of_separator {text : List Char} (htext : ¬Text.IsOnLine text)
    (hc : c.rest = text.flatMap Text.quoteChar ++ '"' :: rest) (seen : String) :
    ∃ d, readString c '"' seen = stop .unterminatedString d := by
  induction text generalizing c seen with
  | nil => exact absurd nofun htext
  | cons ch text ih =>
    rw [List.flatMap_cons, List.append_assoc] at hc
    by_cases hch : ch.toNat ≠ 0x2028 ∧ ch.toNat ≠ 0x2029
    · obtain ⟨d, hdrest, hd⟩ := readString_quoteChar hch hc seen
      rw [hd]
      exact ih (fun h => htext (List.forall_mem_cons.mpr ⟨hch, h⟩)) hdrest _
    · exact readString_separator hch hc seen

theorem toList_quote (text : String) (rest : List Char) :
    (Text.quote text).toList ++ rest =
      '"' :: (text.toList.flatMap Text.quoteChar ++ '"' :: rest) := by
  rw [Text.quote, String.toList_ofList, List.cons_append, List.append_assoc, List.singleton_append]

/-- A quoted text is read as the text. -/
theorem begins_quote {text : String} (htext : Text.IsOnLine text.toList) (rest : List Char) :
    Begins ((Text.quote text).toList ++ rest) (.string text) rest := by
  intro start h
  rw [toList_quote] at h
  obtain ⟨c, d, -, -, hd, hread⟩ := next_eq_readAt h (by decide) (by decide) (by decide)
  obtain ⟨e, he, herest⟩ := readString_quote htext hd ""
  refine ⟨e, ?_, herest⟩
  rw [hread, readAt, if_pos (by decide), he, String.empty_append, String.ofList_toList]

/-- A quoted text with a separator is not closed on its line. -/
theorem breaks_quote {text : String} (htext : ¬Text.IsOnLine text.toList) (rest : List Char) :
    Breaks ((Text.quote text).toList ++ rest) .unterminatedString := by
  intro start h
  rw [toList_quote] at h
  obtain ⟨c, d, -, -, hd, hread⟩ := next_eq_readAt h (by decide) (by decide) (by decide)
  obtain ⟨e, he⟩ := readString_quote_of_separator htext hd ""
  exact ⟨e, by rw [hread, readAt, if_pos (by decide), he, stop]⟩

end Lexer

/-! ## Integers -/

namespace Number

theorem isDecimalDigit_of_mem_digits {n : Nat} {first ch : Char} {digits : List Char}
    (hn : Nat.toDigits 10 n = first :: digits) (hch : ch ∈ first :: digits) :
    isDecimalDigit ch = true :=
  isDecimalDigit_of_mem_toDigits (hn ▸ hch)

/-- Zero is the only number whose digits begin with a zero. -/
theorem digits_of_zero {n : Nat} {digits : List Char} (hn : Nat.toDigits 10 n = '0' :: digits) :
    digits = [] := by
  have hcanonical := isCanonicalNumeral_toDigits n
  rw [hn] at hcanonical
  cases digits with
  | nil => rfl
  | cons ch digits => cases hcanonical

end Number

namespace Integer

open Number

theorem foldlM_readDigit_of_digits {digits : List Char}
    (hdigits : ∀ ch ∈ digits, isDecimalDigit ch = true) (n : Nat) :
    digits.foldlM (readDigit 10) n = some (digits.foldl (fun n c => 10 * n + (c.toNat - 0x30)) n) := by
  induction digits generalizing n with
  | nil => rfl
  | cons ch digits ih =>
    have hch := hdigits ch List.mem_cons_self
    have hrange := isDecimalDigit_iff.mp hch
    have hunderscore : ch ≠ '_' := by rintro rfl; cases hch
    have hvalue : digitValue? 10 ch = some (ch.toNat - 0x30) := by
      simp only [digitValue?, hch, if_true, Option.filter]
      exact if_pos (decide_eq_true (by omega))
    have hstep : readDigit 10 n ch = some (10 * n + (ch.toNat - 0x30)) := by
      simp [readDigit, hunderscore, hvalue]
    rw [List.foldlM_cons, hstep]
    exact ih (fun ch hch => hdigits ch (List.mem_cons_of_mem _ hch)) _

/-- The digits of a number denote it. -/
theorem ofText?_toDigits (n : Nat) : ofText? (String.ofList (Nat.toDigits 10 n)) = some (n : Int) := by
  obtain ⟨first, digits, hn⟩ := List.exists_cons_of_ne_nil (Nat.toDigits_ne_nil (n := n) (b := 10))
  have hdigit : ∀ ch ∈ first :: digits, isDecimalDigit ch = true :=
    fun ch hch => isDecimalDigit_of_mem_digits hn hch
  have htrim : Text.trimBoth Text.isWhiteSpace (first :: digits) = first :: digits :=
    Text.trimBoth_eq_self fun ch hch => by
      have := isDecimalDigit_iff.mp (hdigit ch hch)
      exact Text.isWhiteSpace_eq_false (by omega) (by omega)
  have hmark : markedRadix? (first :: digits) = none :=
    Numeral.IsDecimalChar.markedRadix? fun ch hch => .inl (hdigit ch hch)
  have hfirst := hdigit first List.mem_cons_self
  have hvalue : readNat? 10 (first :: digits) = some n := by
    rw [readNat?_eq_foldlM (List.cons_ne_nil _ _) (by rintro rfl; cases hfirst),
      foldlM_readDigit_of_digits hdigit, ← natOfDigits, ← hn, natOfDigits_toDigits]
  rw [hn]
  unfold ofText?
  simp only [String.toList_ofList, htrim, List.isEmpty_cons, Bool.false_eq_true, if_false, hmark]
  unfold readSigned?
  split
  · next heq => cases heq; cases hfirst
  · next heq => cases heq; cases hfirst
  · rw [hvalue]; rfl

end Integer

namespace Numeral

open Number Scan

variable {c : Cursor} {rest : List Char}

/-- Digits up to a character that is none. -/
theorem spanDigits_of_rest {digits : List Char}
    (hdigits : ∀ ch ∈ digits, isDecimalDigit ch = true)
    (hrest : ∀ ch ∈ rest.head?, isDecimalDigit ch = false ∧ ch ≠ '_')
    (hc : c.rest = digits ++ rest) :
    (spanDigits c isDecimalDigit).1 = digits ∧ (spanDigits c isDecimalDigit).2.rest = rest := by
  have hall : ∀ ch ∈ digits, (isDecimalDigit ch || ch == '_') = true := fun ch hch => by
    rw [hdigits ch hch, Bool.true_or]
  have hend : rest.takeWhile (fun ch => isDecimalDigit ch || ch == '_') = [] ∧
      rest.dropWhile (fun ch => isDecimalDigit ch || ch == '_') = rest := by
    cases rest with
    | nil => exact ⟨rfl, rfl⟩
    | cons ch rest =>
      have hch : (isDecimalDigit ch || ch == '_') = false := by simp [hrest ch rfl]
      simp [hch]
  unfold spanDigits Cursor.span
  rw [hc]
  constructor
  · dsimp only
    rw [List.takeWhile_append_of_pos hall, hend.1, List.append_nil]
    exact List.filter_eq_self.mpr fun ch hch => by
      have := hdigits ch hch
      simp only [bne_iff_ne]
      rintro rfl
      cases this
  · dsimp only
    rw [List.dropWhile_append_of_pos hall, hend.2]

/-- Digits before the letter of the unbounded integers. -/
theorem readDecimal_of_rest (first : Char) {digits : List Char} (hfirst : first ≠ '.')
    (hdigits : ∀ ch ∈ digits, isDecimalDigit ch = true) (hc : c.rest = digits ++ 'n' :: rest) :
    ∃ d, readDecimal c first = .ok (.bigint (String.ofList (first :: digits))) d ∧
      d.rest = rest := by
  obtain ⟨hwhole, hd⟩ := spanDigits_of_rest hdigits (by rintro _ ⟨⟩; decide) hc
  unfold readDecimal
  generalize spanDigits c isDecimalDigit = found at hwhole hd
  obtain ⟨whole, d⟩ := found
  obtain rfl : whole = digits := hwhole
  have hpeek : d.peek? = some 'n' := Cursor.peek?_of_rest hd
  have hfraction : spanFraction d = ([], d) := by simp [spanFraction, Cursor.skipIf?, hpeek]
  have hexponent : spanExponent d = ([], d) := by simp [spanExponent, hpeek]
  have hletter : d.skipIf? 'n' = some d.skip := by simp [Cursor.skipIf?, hpeek]
  simp only [beq_iff_eq, hfirst, if_false, hfraction, hexponent, hletter, List.append_nil]
  exact ⟨_, rfl, Cursor.rest_skip hd⟩

theorem read_of_rest {n : Nat} {first : Char} {digits : List Char}
    (hn : Nat.toDigits 10 n = first :: digits) (hc : c.rest = digits ++ 'n' :: rest) :
    ∃ d, read c first = .ok (.bigint (String.ofList (first :: digits))) d ∧ d.rest = rest := by
  have hdigit : ∀ ch ∈ first :: digits, isDecimalDigit ch = true :=
    fun ch hch => isDecimalDigit_of_mem_digits hn hch
  have hdecimal := readDecimal_of_rest first
    (by rintro rfl; cases hdigit _ List.mem_cons_self)
    (fun ch hch => hdigit ch (List.mem_cons_of_mem _ hch)) hc
  unfold read
  split
  · next hzero =>
    -- Behind a zero there is no other digit and no mark but the letter.
    obtain rfl : first = '0' := by simpa using hzero
    obtain rfl := digits_of_zero hn
    rw [Cursor.peek?_of_rest hc]
    exact hdecimal
  · exact hdecimal

/-! ### Digits as a literal -/

section Literal

variable {first : Char} {digits : List Char}

/-- A literal of digits may end here. -/
def Ends (rest : List Char) : Prop :=
  ∀ ch ∈ rest.head?, isIdentifierStart ch = false ∧ isDecimalDigit ch = false ∧ ch ≠ '.'

theorem Ends.peek? (h : Ends rest) (hc : c.rest = rest) {ch : Char} (hch : c.peek? = some ch) :
    isIdentifierStart ch = false ∧ isDecimalDigit ch = false ∧ ch ≠ '.' := by
  refine h ch ?_
  rw [Cursor.peek?, hc] at hch
  cases rest with
  | nil => cases hch
  | cons ch' rest => simpa using hch

theorem Ends.not_digit (h : Ends rest) :
    ∀ ch ∈ rest.head?, isDecimalDigit ch = false ∧ ch ≠ '_' := by
  intro ch hch
  refine ⟨(h ch hch).2.1, ?_⟩
  rintro rfl
  cases (h _ hch).1

/-- Nothing that could follow the digits is there. -/
theorem Ends.bare (h : Ends rest) (hc : c.rest = rest) :
    spanFraction c = ([], c) ∧ spanExponent c = ([], c) ∧ c.skipIf? 'n' = none ∧
      (∀ token, finish c token = token) := by
  cases hpeek : c.peek? with
  | none => simp [spanFraction, spanExponent, Cursor.skipIf?, finish, hpeek]
  | some ch =>
    obtain ⟨hstart, hdigit, hpoint⟩ := h.peek? hc hpeek
    have hletter : ch ≠ 'e' ∧ ch ≠ 'E' ∧ ch ≠ 'n' := by
      refine ⟨?_, ?_, ?_⟩ <;> rintro rfl <;> cases hstart
    simp [spanFraction, spanExponent, Cursor.skipIf?, finish, hpeek, hstart, hdigit, hpoint,
      hletter]

theorem readNumeral?_of_digits (hdigits : ∀ ch ∈ first :: digits, isDecimalDigit ch = true) :
    readNumeral? (first :: digits) = some (ofDecimal (natOfDigits (first :: digits)) 0) := by
  have hspan : Number.spanDigits (first :: digits) = (first :: digits, []) := by
    rw [Number.spanDigits, List.takeWhile_eq_self_iff.mpr hdigits,
      List.dropWhile_eq_nil_iff.mpr hdigits]
  unfold readNumeral?
  rw [hspan]
  simp [readExponent?]

/-- The number that digits denote as a literal: octal digits behind a zero are octal. -/
def valueOfDigits : List Char → Float
  | '0' :: ch :: digits =>
    if (ch :: digits).all fun d => '0' ≤ d && d ≤ '7' then radixValue 8 (ch :: digits)
    else ofDecimal (natOfDigits ('0' :: ch :: digits)) 0
  | digits => ofDecimal (natOfDigits digits) 0

theorem readDecimal_of_digits (hdigits : ∀ ch ∈ first :: digits, isDecimalDigit ch = true)
    (hrest : Ends rest) (hc : c.rest = digits ++ rest) :
    ∃ d, readDecimal c first = .ok (.numeric (ofDecimal (natOfDigits (first :: digits)) 0)) d ∧
      d.rest = rest := by
  have hfirst : first ≠ '.' := by rintro rfl; cases hdigits _ List.mem_cons_self
  obtain ⟨hwhole, hd⟩ := spanDigits_of_rest (List.forall_mem_cons.mp hdigits).2 hrest.not_digit hc
  unfold readDecimal
  generalize spanDigits c isDecimalDigit = found at hwhole hd
  obtain ⟨whole, d⟩ := found
  obtain rfl : whole = digits := hwhole
  obtain ⟨hfraction, hexponent, hletter, hfinish⟩ := hrest.bare hd
  refine ⟨d, ?_, hd⟩
  simp only [beq_iff_eq, hfirst, if_false, hfraction, hexponent, hletter, List.append_nil,
    finishDecimal, hfinish, readNumeral?_of_digits hdigits]

theorem readZeroLed_of_digits (hdigits : ∀ ch ∈ first :: digits, isDecimalDigit ch = true)
    (hrest : Ends rest) (hc : c.rest = first :: digits ++ rest) :
    ∃ d, readZeroLed c = .ok (.numeric (valueOfDigits ('0' :: first :: digits))) d ∧
      d.rest = rest := by
  obtain ⟨hwhole, hd⟩ := spanDigits_of_rest hdigits hrest.not_digit hc
  unfold readZeroLed
  generalize spanDigits c isDecimalDigit = found at hwhole hd
  obtain ⟨whole, d⟩ := found
  obtain rfl : whole = first :: digits := hwhole
  obtain ⟨hfraction, hexponent, -, hfinish⟩ := hrest.bare hd
  have hpeek : (d.peek?.any fun ch => ch == '.' || ch == 'e' || ch == 'E') = false := by
    cases hpeek : d.peek? with
    | none => rfl
    | some ch =>
      obtain ⟨hstart, -, hpoint⟩ := hrest.peek? hd hpeek
      have hletter : ch ≠ 'e' ∧ ch ≠ 'E' := by constructor <;> rintro rfl <;> cases hstart
      simp [hpoint, hletter]
  refine ⟨d, ?_, hd⟩
  have hzero : ∀ ch ∈ '0' :: first :: digits, isDecimalDigit ch = true :=
    List.forall_mem_cons.mpr ⟨by decide, hdigits⟩
  rw [valueOfDigits]
  dsimp only
  rw [hpeek, Bool.not_false, Bool.and_true]
  by_cases hoctal : ((first :: digits).all fun ch => '0' ≤ ch && ch ≤ '7') = true
  · rw [if_pos hoctal, if_pos hoctal]
    exact hfinish _
  · rw [if_neg hoctal, if_neg hoctal]
    simp only [hfraction, hexponent, List.append_nil, finishDecimal, hfinish,
      readNumeral?_of_digits hzero]

theorem read_of_digits (hdigits : ∀ ch ∈ first :: digits, isDecimalDigit ch = true)
    (hrest : Ends rest) (hc : c.rest = digits ++ rest) :
    ∃ d, read c first = .ok (.numeric (valueOfDigits (first :: digits))) d ∧ d.rest = rest := by
  have hdecimal := readDecimal_of_digits hdigits hrest hc
  unfold read
  split
  · next hzero =>
    obtain rfl : first = '0' := by simpa using hzero
    cases digits with
    | nil =>
      -- Behind a single zero there is no mark of a radix and no other digit.
      cases hpeek : c.peek? with
      | none => exact hdecimal
      | some ch =>
        obtain ⟨hstart, hdigit, -⟩ := hrest.peek? hc hpeek
        have hmark : markOf? ch = none := by
          have hne : ch ∉ ['x', 'X', 'o', 'O', 'b', 'B'] := by
            intro hmem
            simp only [List.mem_cons, List.not_mem_nil, or_false] at hmem
            rcases hmem with rfl | rfl | rfl | rfl | rfl | rfl <;> cases hstart
          simp only [List.mem_cons, List.not_mem_nil, or_false, not_or] at hne
          simp [markOf?, hne]
        simp only [hmark, hdigit]
        exact hdecimal
    | cons ch digits =>
      have hch := hdigits ch (by simp)
      have hmark : markOf? ch = none := by
        have hne : ch ∉ ['x', 'X', 'o', 'O', 'b', 'B'] := IsDecimalChar.not_mark (.inl hch)
        simp only [List.mem_cons, List.not_mem_nil, or_false, not_or] at hne
        simp [markOf?, hne]
      rw [Cursor.peek?_of_rest hc]
      simp only [hmark, hch, if_true]
      exact readZeroLed_of_digits (List.forall_mem_cons.mp hdigits).2 hrest hc
  · next hzero =>
    have hvalue :
        valueOfDigits (first :: digits) = ofDecimal (natOfDigits (first :: digits)) 0 := by
      unfold valueOfDigits
      split
      · next heq => simp_all
      · rfl
    rw [hvalue]
    exact hdecimal

end Literal

end Numeral

namespace Lexer

/-- A digit begins a numeral. -/
theorem next_of_isDecimalDigit {start : Cursor} {first : Char} {cs : List Char}
    (hfirst : Number.isDecimalDigit first = true)
    (h : start.rest.dropWhile Text.isSeparator = first :: cs) :
    ∃ d, d.rest = cs ∧ next start = Numeral.read d first := by
  have hne (ch : Char) (hch : Number.isDecimalDigit ch = false) : first ≠ ch := by
    rintro rfl
    rw [hfirst] at hch
    cases hch
  have hline : Text.isLineEnd first = false := by
    have hrange := Number.isDecimalDigit_iff.mp hfirst
    simp only [Text.isLineEnd, Bool.or_eq_false_iff, beq_eq_false_iff_ne]
    exact ⟨⟨⟨hne _ (by decide), hne _ (by decide)⟩, by omega⟩, by omega⟩
  obtain ⟨c, d, -, -, hd, hread⟩ := next_eq_readAt h hline (hne _ (by decide)) (hne _ (by decide))
  refine ⟨d, hd, ?_⟩
  rw [hread, readAt, if_neg (by simp [hne '\x27' (by decide), hne '"' (by decide)]),
    if_neg (by simp [hne '\x60' (by decide)]), if_pos (by simp [hfirst])]

/-- The digits of a number and the letter behind them are one numeral. -/
theorem begins_bigint (n : Nat) (rest : List Char) :
    Begins (Nat.toDigits 10 n ++ 'n' :: rest) (.bigint (String.ofList (Nat.toDigits 10 n))) rest := by
  intro start h
  obtain ⟨first, digits, hn⟩ := List.exists_cons_of_ne_nil (Nat.toDigits_ne_nil (n := n) (b := 10))
  rw [hn] at h ⊢
  obtain ⟨d, hd, hnext⟩ :=
    next_of_isDecimalDigit (Number.isDecimalDigit_of_mem_digits hn List.mem_cons_self) h
  obtain ⟨e, he, herest⟩ := Numeral.read_of_rest hn hd
  exact ⟨e, by rw [hnext, he], herest⟩

/-- Digits are one numeral. -/
theorem begins_digits {first : Char} {digits rest : List Char}
    (hdigits : ∀ ch ∈ first :: digits, Number.isDecimalDigit ch = true)
    (hrest : Numeral.Ends rest) :
    Begins (first :: digits ++ rest) (.numeric (Numeral.valueOfDigits (first :: digits))) rest := by
  intro start h
  obtain ⟨d, hd, hnext⟩ := next_of_isDecimalDigit (hdigits first List.mem_cons_self) h
  obtain ⟨e, he, herest⟩ := Numeral.read_of_digits hdigits hrest hd
  exact ⟨e, by rw [hnext, he], herest⟩

end Lexer

end EcmaEval
