import EcmaEval.Eval.Call
import EcmaEval.Inspect
import EcmaEval.Proofs.Number.Nearest
import EcmaEval.Proofs.Syntax.Rereading

/-!
# Keys as they are shown, read again

A key is shown without quotes if it is made of digits or of the characters of a name, and in quotes
otherwise.  Where keys are read, a name is itself, and what is in quotes is what was quoted, unless
a separator in it ends the line.  Digits, however, are a literal: they are read as a number, and the
key is the text of that number.  They come back if they are the text of the number nearest to what
they denote, as all numerals below `2 ^ 53` are; digits with a zero in front never do.

## Main definitions

* `Inspect.rereadKey`: the key that the text of a key is read as

## Main results

* `Number.zeros_of_toText`: no text of a number has a zero in front of other digits
* `Inspect.rereadKey_eq_iff`: the keys that come back
* `Inspect.rereadKey_of_isCanonicalNumeral`: numerals below `2 ^ 53` do
* `Engine.propertyKey_keyText`: the text of a key, read again
-/

namespace EcmaEval

/-! ## Characters of names -/

namespace Text

variable {c : Char}

theorem identifierStart_ranges : ∀ r ∈ identifierStartRanges,
    r = (0x41, 0x5A) ∨ r = (0x61, 0x7A) ∨ 0x80 ≤ r.1 := by
  decide +kernel

theorem identifierContinue_ranges : ∀ r ∈ identifierContinueRanges,
    r = (0x30, 0x39) ∨ r = (0x41, 0x5A) ∨ r = (0x5F, 0x5F) ∨ r = (0x61, 0x7A) ∨ 0x80 ≤ r.1 := by
  decide +kernel

-- A test that stops at each pair of ranges takes far less than a decision for all pairs.
theorem identifierContinue_apart : (identifierContinueRanges.all fun r =>
    ((0xFEFF, 0xFEFF) :: whiteSpaceRanges).all fun s =>
      Nat.blt r.2 s.1 || Nat.blt s.2 r.1) = true := by
  decide +kernel

/-- A character that goes on a name is no blank. -/
theorem not_blank_of_isIdentifierContinue (hc : isIdentifierContinue c = true) :
    isWhiteSpace c = false ∧ c ≠ byteOrderMark := by
  obtain ⟨r, hr, hlow, hhigh⟩ := (Ranges.contains_iff _ _).mp hc
  have hapart := List.all_eq_true.mp (List.all_eq_true.mp identifierContinue_apart r hr)
  simp only [Bool.or_eq_true, Nat.blt_eq] at hapart
  constructor
  · rw [Bool.eq_false_iff, isWhiteSpace, Ne, Ranges.contains_iff]
    rintro ⟨s, hs, hslow, hshigh⟩
    have := hapart s (List.mem_cons_of_mem _ hs)
    omega
  · rintro rfl
    have := hapart (0xFEFF, 0xFEFF) List.mem_cons_self
    have hmark : byteOrderMark.toNat = 0xFEFF := by decide
    omega

/-- Ends of lines are white space. -/
theorem isLineEnd_eq_false_of_isWhiteSpace (hc : isWhiteSpace c = false) : isLineEnd c = false := by
  rw [Bool.eq_false_iff]
  intro hline
  simp only [isLineEnd, Bool.or_eq_true, beq_iff_eq] at hline
  have hspace : isWhiteSpace c = true := by
    rcases hline with ((rfl | rfl) | h) | h
    · decide
    · decide
    · rw [← Char.ofNat_toNat c, h]
      decide
    · rw [← Char.ofNat_toNat c, h]
      decide
  rw [hspace] at hc
  cases hc

end Text

theorem isAlpha_iff {c : Char} : c.isAlpha = true ↔
    0x41 ≤ c.toNat ∧ c.toNat ≤ 0x5A ∨ 0x61 ≤ c.toNat ∧ c.toNat ≤ 0x7A := by
  simp only [Char.isAlpha, Char.isUpper, Char.isLower, Bool.or_eq_true, Bool.and_eq_true,
    decide_eq_true_eq, UInt32.le_iff_toNat_le, ge_iff_le]
  exact Iff.rfl

theorem isIdentifierPart_of_isIdentifierContinue {c : Char}
    (hc : Text.isIdentifierContinue c = true) : isIdentifierPart c = true := by
  obtain ⟨r, hr, hlow, hhigh⟩ := (Text.Ranges.contains_iff _ _).mp hc
  have hdigit : c.isDigit = true ↔ 0x30 ≤ c.toNat ∧ c.toNat ≤ 0x39 := by
    rw [← Number.isDecimalDigit_eq_isDigit, Number.isDecimalDigit_iff]
  simp only [isIdentifierPart, Char.isAlphanum, Bool.or_eq_true, Bool.and_eq_true,
    decide_eq_true_eq, beq_iff_eq, isAlpha_iff, hdigit]
  rcases Text.identifierContinue_ranges r hr with rfl | rfl | rfl | rfl | hwide
  · exact .inl (.inl (.inl (.inr (.inr ⟨hlow, hhigh⟩))))
  · exact .inl (.inl (.inl (.inr (.inl (.inl ⟨hlow, hhigh⟩)))))
  · have hmark : c = '_' := by
      rw [← Char.ofNat_toNat c, Nat.le_antisymm hhigh hlow]
    exact .inl (.inl (.inl (.inl (.inl hmark))))
  · exact .inl (.inl (.inl (.inr (.inl (.inr ⟨hlow, hhigh⟩)))))
  · exact .inr ⟨by omega, hc⟩

/-- What is a letter to a reader of names begins a name. -/
theorem isIdentifierStart_of_letter {c : Char} (hc : Text.isIdentifierStart c = true) :
    isIdentifierStart c = true ∧ (c.isAlpha = true ∨ 0x80 ≤ c.toNat) := by
  obtain ⟨r, hr, hlow, hhigh⟩ := (Text.Ranges.contains_iff _ _).mp hc
  simp only [isIdentifierStart, Bool.or_eq_true, Bool.and_eq_true, decide_eq_true_eq, isAlpha_iff]
  rcases Text.identifierStart_ranges r hr with rfl | rfl | hwide
  · exact ⟨.inl (.inr (.inl ⟨hlow, hhigh⟩)), .inl (.inl ⟨hlow, hhigh⟩)⟩
  · exact ⟨.inl (.inr (.inr ⟨hlow, hhigh⟩)), .inl (.inr ⟨hlow, hhigh⟩)⟩
  · exact ⟨.inr ⟨by omega, hc⟩, .inr (by omega)⟩

namespace Inspect

/-- The character goes on a key without quotes that is no number. -/
def isNamePart (c : Char) : Bool := Text.isIdentifierContinue c || c == '$'

variable {c : Char}

theorem isIdentifierPart_of_isNamePart (hc : isNamePart c = true) : isIdentifierPart c = true := by
  rcases Bool.or_eq_true_iff.mp hc with hc | hc
  · exact isIdentifierPart_of_isIdentifierContinue hc
  · rw [eq_of_beq hc]
    decide

theorem not_blank_of_isNamePart (hc : isNamePart c = true) :
    Text.isWhiteSpace c = false ∧ c ≠ Text.byteOrderMark := by
  rcases Bool.or_eq_true_iff.mp hc with hc | hc
  · exact Text.not_blank_of_isIdentifierContinue hc
  · rw [eq_of_beq hc]
    decide

/-- What begins a name begins nothing else. -/
theorem isPlainStart_of_isNameStart (hstart : isNameStart c = true) (hpart : isNamePart c = true) :
    Lexer.isPlainStart c = true ∧ isIdentifierStart c = true := by
  have hline := Text.isLineEnd_eq_false_of_isWhiteSpace (not_blank_of_isNamePart hpart).1
  have hletter : isIdentifierStart c = true ∧
      (c.isAlpha = true ∨ 0x80 ≤ c.toNat ∨ c = '_' ∨ c = '$') := by
    simp only [isNameStart, Bool.or_eq_true, beq_iff_eq] at hstart
    rcases hstart with (hstart | rfl) | rfl
    · obtain ⟨h, hrange⟩ := isIdentifierStart_of_letter hstart
      exact ⟨h, hrange.imp_right .inl⟩
    · decide
    · decide
  refine ⟨?_, hletter.1⟩
  have hmark : c ∉ ['\x27', '"', '\x60', '.', '\\', '/', '#'] := by
    intro hmem
    simp only [List.mem_cons, List.not_mem_nil, or_false] at hmem
    rcases hmem with rfl | rfl | rfl | rfl | rfl | rfl | rfl <;> revert hletter <;> decide
  have hdigit : Number.isDecimalDigit c = false := by
    rw [Bool.eq_false_iff, Ne, Number.isDecimalDigit_iff]
    intro hrange
    rcases hletter.2 with h | h | rfl | rfl
    · rw [isAlpha_iff] at h
      omega
    · omega
    · revert hrange
      decide
    · revert hrange
      decide
  simp only [List.mem_cons, List.not_mem_nil, or_false, not_or] at hmark
  simp [Lexer.isPlainStart, hline, hdigit, hmark]

end Inspect

/-! ## Texts of numbers -/

namespace Number

variable {n : Nat} {x : Float} {digits : List Char}

/-- An integer below `2 ^ 53` is a number, and its digits are the text of that number. -/
theorem toText_ofDecimal (hn : n < 2 ^ 53) :
    toText (ofDecimal n 0) = String.ofList (Nat.toDigits 10 n) := by
  rcases Nat.eq_zero_or_pos n with rfl | hpos
  · decide +kernel
  have hexact := value?_ofNat hpos hn
  have hvalue : value? (ofDecimal n 0) = some (n : ℚ) := by
    cases roundsTo_ofDecimal n with
    | finite hx nearest =>
      have hnear := nearest hexact
      rw [sub_self, abs_zero, abs_nonpos_iff, sub_eq_zero] at hnear
      rw [hx, hnear]
    | above _ beyond => exact absurd (beyond hexact) (lt_irrefl _)
    | below _ beyond => exact absurd (beyond hexact) (lt_irrefl _)
  have hint : toInt? (ofDecimal n 0) = some (n : Int) :=
    toInt?_eq_some_iff.mpr (by exact_mod_cast hvalue)
  obtain ⟨b, hparts, hintegral, rfl, hsign⟩ := exists_parts_of_toInt? hint
  have hsignificand : (b.significand == 0) = false := by
    rw [beq_eq_false_iff_ne]
    intro hzero
    have hmagnitude : b.magnitude = 0 := by
      rw [Binary.magnitude, hzero]
      split
      · rw [Nat.zero_mul]
      · rw [Nat.zero_div]
    omega
  have hpositive : positiveText b = decimalDigits b.magnitude := by
    rw [positiveText, if_pos]
    simpa [hintegral] using hn
  unfold toText
  simp only [hparts, hsignificand, hsign hpos, hpositive]
  rfl

/-- A text without a point and an exponent is digits with zeros behind them. -/
theorem layOut_of_digits {front : List Char} {n : Int}
    (hdigits : ∀ ch ∈ layOut front n, isDecimalDigit ch = true) :
    ∃ count, layOut front n = front ++ zeros count := by
  have hnot (ch : Char) (hch : isDecimalDigit ch = false) : ch ∉ layOut front n := fun hmem => by
    rw [hdigits ch hmem] at hch
    cases hch
  have hpoint := hnot '.' (by decide)
  have hletter := hnot 'e' (by decide)
  unfold layOut at hpoint hletter ⊢
  dsimp only at hpoint hletter ⊢
  split at hpoint
  · next hwhole =>
    rw [if_pos hwhole]
    exact ⟨_, rfl⟩
  · next hwhole =>
    rw [if_neg hwhole] at hletter
    split at hpoint
    · simp at hpoint
    · next hmiddle =>
      rw [if_neg hmiddle] at hletter
      split at hpoint
      · simp at hpoint
      · next hsmall =>
        rw [if_neg hsmall] at hletter
        split at hpoint <;> simp at hpoint hletter

/-- What is left of the digits of a number without the zeros at its end begins with no zero. -/
theorem dropTrailingZeros_toDigits (n : Nat) (digits : List Char) :
    dropTrailingZeros (Nat.toDigits 10 n) ≠ '0' :: digits := by
  intro heq
  obtain ⟨others, hothers⟩ : dropTrailingZeros (Nat.toDigits 10 n) <+: Nat.toDigits 10 n :=
    List.rdropWhile_prefix _ _
  rw [heq, List.cons_append] at hothers
  rw [← hothers, digits_of_zero hothers.symm] at heq
  cases heq

theorem zeros_of_positiveText {b : Binary} (h : positiveText b = '0' :: digits)
    (hdigits : ∀ ch ∈ digits, isDecimalDigit ch = true) : ∀ ch ∈ digits, ch = '0' := by
  unfold positiveText at h
  dsimp only at h
  split at h
  · rw [digits_of_zero h]
    exact nofun
  · have hall : ∀ ch ∈ '0' :: digits, isDecimalDigit ch = true :=
      List.forall_mem_cons.mpr ⟨by decide, hdigits⟩
    obtain ⟨count, hcount⟩ := layOut_of_digits (h ▸ hall)
    rw [h] at hcount
    cases hfront : dropTrailingZeros (decimalDigits (shortestDecimal b).digits) with
    | nil =>
      rw [hfront, List.nil_append] at hcount
      exact fun ch hch => List.eq_of_mem_replicate (hcount ▸ List.mem_cons_of_mem _ hch)
    | cons ch front =>
      rw [hfront, List.cons_append] at hcount
      obtain rfl := (List.cons.inj hcount).1
      exact absurd hfront (dropTrailingZeros_toDigits _ _)

/-- Where digits with a zero in front are the text of a number, all of them are zeros. -/
theorem zeros_of_toText (h : toText x = String.ofList ('0' :: digits))
    (hdigits : ∀ ch ∈ digits, isDecimalDigit ch = true) : ∀ ch ∈ digits, ch = '0' := by
  have hlist := congrArg String.toList h
  rw [String.toList_ofList] at hlist
  unfold toText at hlist
  split at hlist
  · split at hlist
    · obtain rfl : [] = digits := (List.cons.inj hlist).2
      exact nofun
    · rw [String.toList_ofList] at hlist
      split at hlist
      · cases hlist
      · exact zeros_of_positiveText hlist hdigits
  · split at hlist
    · cases hlist
    · split at hlist <;> cases hlist

/-- A number that is zero if some digits are zeros is not written as these digits behind a zero. -/
theorem toText_ne_of_zero {ch : Char} (hdigits : ∀ d ∈ ch :: digits, isDecimalDigit d = true)
    (hx : (∀ d ∈ ch :: digits, d = '0') → x = 0.0) :
    toText x ≠ String.ofList ('0' :: ch :: digits) := by
  intro h
  rw [hx (zeros_of_toText h hdigits)] at h
  have hlist := congrArg String.toList h
  rw [String.toList_ofList] at hlist
  cases hlist

theorem natOfDigits_of_zeros (h : ∀ ch ∈ digits, ch = '0') : natOfDigits digits = 0 := by
  rw [List.eq_replicate_of_mem h]
  induction digits.length with
  | zero => rfl
  | succ count ih => exact ih

theorem radixValue_of_zeros (h : ∀ ch ∈ digits, ch = '0') : Numeral.radixValue 8 digits = 0.0 := by
  rw [List.eq_replicate_of_mem h]
  -- A zero more is `0.0 * 8 + 0` once more.
  induction digits.length with
  | zero => rfl
  | succ count ih => exact ih

/-- Digits with a zero in front are no text of the number that they are as a literal, nor of the
number nearest to what they denote. -/
theorem toText_valueOfDigits_ne {ch : Char}
    (hdigits : ∀ d ∈ ch :: digits, isDecimalDigit d = true) :
    toText (Numeral.valueOfDigits ('0' :: ch :: digits)) ≠ String.ofList ('0' :: ch :: digits) ∧
      toText (ofDecimal (natOfDigits ('0' :: ch :: digits)) 0) ≠
        String.ofList ('0' :: ch :: digits) := by
  have hdecimal (hzeros : ∀ d ∈ ch :: digits, d = '0') :
      ofDecimal (natOfDigits ('0' :: ch :: digits)) 0 = 0.0 := by
    rw [natOfDigits_of_zeros (List.forall_mem_cons.mpr ⟨rfl, hzeros⟩)]
    rfl
  refine ⟨toText_ne_of_zero hdigits fun hzeros => ?_, toText_ne_of_zero hdigits hdecimal⟩
  rw [Numeral.valueOfDigits]
  split
  · exact radixValue_of_zeros hzeros
  · exact hdecimal hzeros

end Number

/-! ## Tokens that are keys -/

/-- The key that a token is. -/
def Token.key? : Token → Option PropertyKey
  | .identifier name => some (.identifier name)
  | .keyword word => some (.identifier word.text)
  | .boolean value => some (.identifier (if value then "true" else "false"))
  | .null => some (.identifier "null")
  | .string value => some (.string value)
  | .numeric value => some (.number value)
  | .bigint digits => some (.string digits)
  | _ => none

theorem Grammar.propertyKey_of_key? {r : Reading} {key : PropertyKey}
    (h : r.current.key? = some key) (inner : Phrases) (c : Context) :
    propertyKey inner c r = (Parse.advance >>= fun _ => pure key : Parse PropertyKey) c r := by
  rw [propertyKey, Parse.current_bind]
  cases hr : r.current <;> rw [hr] at h <;> cases h <;> rfl

theorem Token.key?_nameToken (name : String) :
    (Lexer.nameToken name false).key? = some (.identifier name) := by
  unfold Lexer.nameToken
  rw [if_neg Bool.false_ne_true]
  split
  · next h => rw [eq_of_beq h]; rfl
  split
  · next h => rw [eq_of_beq h]; rfl
  split
  · next h => rw [eq_of_beq h]; rfl
  split
  · next word hword =>
    have hspelling : word.text = name := by simpa using List.find?_some hword
    rw [Token.key?, hspelling]
  · rfl

/-! ## Keys -/

namespace Inspect

variable {key : String} {behind : List Char}

/-- The key is made of digits. -/
def isDigits (key : String) : Bool := !key.toList.isEmpty && key.toList.all Number.isDecimalDigit

/-- The key that the text of a key is read as. -/
def rereadKey (key : String) : String :=
  if isDigits key then Number.toText (Numeral.valueOfDigits key.toList) else key

/-- No text that goes on a key without quotes stands here. -/
def EndsKey (behind : List Char) : Prop :=
  ∀ ch ∈ behind.head?,
    isIdentifierStart ch = false ∧ isIdentifierPart ch = false ∧ ch ≠ '\\' ∧ ch ≠ '.'

theorem EndsKey.endsWord (h : EndsKey behind) : PlainValue.EndsWord behind :=
  fun ch hch => ⟨(h ch hch).2.1, (h ch hch).2.2.1⟩

theorem EndsKey.endsNumeral (h : EndsKey behind) : Numeral.Ends behind := by
  intro ch hch
  obtain ⟨hstart, hpart, -, hpoint⟩ := h ch hch
  refine ⟨hstart, ?_, hpoint⟩
  rw [Bool.eq_false_iff]
  intro hdigit
  rw [Number.isDecimalDigit_eq_isDigit] at hdigit
  simp [isIdentifierPart, Char.isAlphanum, hdigit] at hpart

/-- A key is written as digits, as a name or in quotes. -/
theorem keyText_cases (key : String) :
    (keyText key = key ∧ isDigits key = true ∧
      ∃ first digits, key.toList = first :: digits ∧
        ∀ ch ∈ first :: digits, Number.isDecimalDigit ch = true) ∨
    (keyText key = key ∧ isDigits key = false ∧
      ∃ first name, key.toList = first :: name ∧ isNameStart first = true ∧
        ∀ ch ∈ first :: name, isNamePart ch = true) ∨
    (keyText key = Text.quote key ∧ isDigits key = false) := by
  cases hdigits : isDigits key with
  | true =>
    have hplain : isPlainKey key = true := by
      simp only [isDigits, Bool.and_eq_true] at hdigits
      simp [isPlainKey, hdigits]
    refine .inl ⟨if_pos hplain, rfl, ?_⟩
    cases hkey : key.toList with
    | nil => simp [isDigits, hkey] at hdigits
    | cons first digits => exact ⟨first, digits, rfl, by simpa [isDigits, hkey] using hdigits⟩
  | false =>
    cases hplain : isPlainKey key with
    | false => exact .inr (.inr ⟨if_neg (by simp [hplain]), rfl⟩)
    | true =>
      refine .inr (.inl ⟨if_pos hplain, rfl, ?_⟩)
      unfold isPlainKey at hplain
      unfold isDigits at hdigits
      cases hkey : key.toList with
      | nil => simp [hkey] at hplain
      | cons first name =>
        rw [hkey] at hdigits hplain
        dsimp only at hplain
        rw [List.isEmpty_cons, Bool.not_false, Bool.true_and] at hdigits hplain
        rw [hdigits, Bool.false_or, Bool.and_eq_true, List.all_eq_true] at hplain
        exact ⟨first, name, rfl, hplain.1, hplain.2⟩

/-- A key without quotes has no separator. -/
theorem isOnLine_or_quoted (key : String) :
    Text.IsOnLine key.toList ∨ keyText key = Text.quote key := by
  rcases keyText_cases key with ⟨-, -, first, digits, hkey, hdigits⟩ |
    ⟨-, -, first, name, hkey, -, hname⟩ | ⟨hquote, -⟩
  · rw [hkey]
    refine .inl fun ch hch => ?_
    have := Number.isDecimalDigit_iff.mp (hdigits ch hch)
    omega
  · rw [hkey]
    refine .inl fun ch hch => ?_
    have hline := Text.isLineEnd_eq_false_of_isWhiteSpace (not_blank_of_isNamePart (hname ch hch)).1
    simp only [Text.isLineEnd, Bool.or_eq_false_iff, beq_eq_false_iff_ne] at hline
    exact ⟨hline.1.2, hline.2⟩
  · exact .inr hquote

/-- No blank stands in front of the text of a key. -/
theorem dropWhile_keyText (key : String) (behind : List Char) :
    ((keyText key).toList ++ behind).dropWhile Text.isSeparator =
      (keyText key).toList ++ behind := by
  rcases keyText_cases key with ⟨htext, -, first, digits, hkey, hdigits⟩ |
    ⟨htext, -, first, name, hkey, -, hname⟩ | ⟨htext, -⟩
  · have := Number.isDecimalDigit_iff.mp (hdigits first List.mem_cons_self)
    rw [htext, hkey, List.cons_append]
    exact PlainValue.dropWhile_isSeparator (by omega) (by omega) _
  · have hblank := not_blank_of_isNamePart (hname first List.mem_cons_self)
    rw [htext, hkey, List.cons_append]
    refine List.dropWhile_cons_of_neg ?_
    simp [Text.isSeparator, hblank]
  · rw [htext, Lexer.toList_quote]
    exact PlainValue.dropWhile_isSeparator (by decide) (by decide) _

/-- The text of a key on one line is one token, and that is a key. -/
theorem begins_keyText (hline : Text.IsOnLine key.toList) (hbehind : EndsKey behind) :
    ∃ token read, Lexer.Begins ((keyText key).toList ++ behind) token behind ∧
      token.key? = some read ∧
      ∀ (engine : Engine) scope, engine.propertyKey scope read = pure (rereadKey key) := by
  unfold rereadKey
  rcases keyText_cases key with ⟨htext, hkind, first, digits, hkey, hdigits⟩ |
    ⟨htext, hkind, first, name, hkey, hstart, hname⟩ | ⟨htext, hkind⟩
  · rw [htext, if_pos hkind, hkey]
    exact ⟨_, _, Lexer.begins_digits hdigits hbehind.endsNumeral, rfl, fun _ _ => rfl⟩
  · have hplain := isPlainStart_of_isNameStart hstart (hname first List.mem_cons_self)
    have hword : PlainValue.isName key = true := by
      unfold PlainValue.isName
      rw [hkey]
      simp only [hplain.1, hplain.2, Bool.true_and, List.all_eq_true]
      exact fun ch hch => isIdentifierPart_of_isNamePart (hname ch (List.mem_cons_of_mem _ hch))
    rw [htext, if_neg (by simp [hkind])]
    exact ⟨_, _, PlainValue.begins_name key hword hbehind.endsWord, Token.key?_nameToken key,
      fun _ _ => rfl⟩
  · rw [htext, if_neg (by simp [hkind])]
    exact ⟨_, _, Lexer.begins_quote hline behind, rfl, fun _ _ => rfl⟩

/-- The keys that come back are those that are not made of digits, and the digits that are the text
of the number nearest to what they denote. -/
theorem rereadKey_eq_iff (key : String) :
    rereadKey key = key ↔ (isDigits key = true →
      Number.toText (Number.ofDecimal (Number.natOfDigits key.toList) 0) = key) := by
  unfold rereadKey
  rcases keyText_cases key with ⟨-, hkind, first, digits, hkey, hdigits⟩ | ⟨-, hkind, -⟩ |
    ⟨-, hkind⟩
  · rw [if_pos hkind, imp_iff_right hkind]
    have hchars : key = String.ofList (first :: digits) := by rw [← hkey, String.ofList_toList]
    by_cases hzero : first = '0' ∧ digits ≠ []
    · obtain ⟨rfl, hne⟩ := hzero
      obtain ⟨ch, digits, rfl⟩ := List.exists_cons_of_ne_nil hne
      have hboth := Number.toText_valueOfDigits_ne (List.forall_mem_cons.mp hdigits).2
      rw [hkey, hchars]
      exact iff_of_false hboth.1 hboth.2
    · have hvalue : Numeral.valueOfDigits (first :: digits) =
          Number.ofDecimal (Number.natOfDigits (first :: digits)) 0 := by
        unfold Numeral.valueOfDigits
        split
        · next heq =>
          obtain ⟨rfl, rfl⟩ := List.cons.inj heq
          exact absurd ⟨rfl, List.cons_ne_nil _ _⟩ hzero
        · rfl
      rw [hkey, hvalue]
  · simp [hkind]
  · simp [hkind]

/-- Numerals below `2 ^ 53` come back. -/
theorem rereadKey_of_isCanonicalNumeral (hcanonical : isCanonicalNumeral key.toList = true)
    (hlt : Number.natOfDigits key.toList < 2 ^ 53) : rereadKey key = key := by
  refine (rereadKey_eq_iff key).mpr fun _ => ?_
  rw [Number.toText_ofDecimal hlt, ← eq_toDigits_of_isCanonicalNumeral hcanonical,
    String.ofList_toList]

end Inspect

open Parse

variable {key : String} {behind : List Char} {inner : Phrases} {c : Context} {r : Reading}

theorem reads_keyText (hbehind : Inspect.EndsKey behind)
    (hr : r.cursor.rest = (Inspect.keyText key).toList ++ behind)
    (hline : Text.IsOnLine key.toList) :
    ∃ read s, s.cursor.rest = behind ∧
      (advance >>= fun _ => Grammar.propertyKey inner) c r = (advance >>= fun _ => pure read) c s ∧
      ∀ (engine : Engine) scope, engine.propertyKey scope read = pure (Inspect.rereadKey key) := by
  obtain ⟨token, read, hbegins, hkey, hread⟩ := Inspect.begins_keyText hline hbehind
  have hend : token ≠ .lineEnd := by rintro rfl; cases hkey
  obtain ⟨s, hadvance, hs⟩ := advance_of_begins hbegins hend
    (by rw [hr, Inspect.dropWhile_keyText]) c
  refine ⟨read, s, hs.rest, ?_, hread⟩
  rw [bind_of_ok hadvance, Grammar.propertyKey_of_key? (by rw [hs.current, hkey])]

theorem breaks_keyText (hr : r.cursor.rest = (Inspect.keyText key).toList ++ behind)
    (hline : ¬Text.IsOnLine key.toList) :
    ∃ e : SyntaxError, (advance >>= fun _ => Grammar.propertyKey inner) c r = .error e ∧
      e.cause = .lexical .unterminatedString := by
  have hquote := (Inspect.isOnLine_or_quoted key).resolve_left hline
  obtain ⟨e, hadvance, he⟩ := advance_of_breaks (Lexer.breaks_quote hline behind)
    (by rw [hr, Inspect.dropWhile_keyText, hquote]) c
  exact ⟨e, bind_of_error hadvance, he⟩

/-- **The text of a key, read as a key again.**  Where nothing that goes on the key is behind it, a
key on one line is read as one whole key up to what is behind.  The key that comes back is the same
one unless it is made of digits that are not the text of their number.  A key with a separator is
not read. -/
theorem Engine.propertyKey_keyText (engine : Engine) (scope : FrameId)
    (hbehind : Inspect.EndsKey behind)
    (hr : r.cursor.rest = (Inspect.keyText key).toList ++ behind) :
    (Text.IsOnLine key.toList → ∃ read s, s.cursor.rest = behind ∧
      (advance >>= fun _ => Grammar.propertyKey inner) c r = (advance >>= fun _ => pure read) c s ∧
      engine.propertyKey scope read = pure (Inspect.rereadKey key)) ∧
    (¬Text.IsOnLine key.toList → ∃ e : SyntaxError,
      (advance >>= fun _ => Grammar.propertyKey inner) c r = .error e ∧
        e.cause = .lexical .unterminatedString) ∧
    (Inspect.rereadKey key = key ↔ (Inspect.isDigits key = true →
      Number.toText (Number.ofDecimal (Number.natOfDigits key.toList) 0) = key)) := by
  refine ⟨fun hline => ?_, breaks_keyText hr, Inspect.rereadKey_eq_iff key⟩
  obtain ⟨read, s, hs, hread, hkey⟩ := reads_keyText hbehind hr hline
  exact ⟨read, s, hs, hread, hkey engine scope⟩

/-- Octal digits behind a zero are read as an octal literal, and another key comes back; without the
zeros they are a numeral, which does come back. -/
theorem Engine.propertyKey_keyText_octal :
    Inspect.EndsKey ": 1 \x7d".toList ∧
      (Cursor.ofText "007: 1 \x7d").rest = (Inspect.keyText "007").toList ++ ": 1 \x7d".toList ∧
      (∃ read s, s.cursor.rest = ": 1 \x7d".toList ∧
        (advance >>= fun _ => Grammar.propertyKey (.ofDepth 1)) { options := {} }
            ⟨.endOfInput, false, .ofText "007: 1 \x7d"⟩ =
          (advance >>= fun _ => pure read) { options := {} } s ∧
        (ofFuel 1).propertyKey ⟨0⟩ read = pure "7") ∧
      Inspect.rereadKey "7" = "7" := by
  have hbehind : Inspect.EndsKey ": 1 \x7d".toList := by rintro _ ⟨⟩; decide
  have hr : (Cursor.ofText "007: 1 \x7d").rest =
      (Inspect.keyText "007").toList ++ ": 1 \x7d".toList := by decide
  have hline : Text.IsOnLine "007".toList :=
    (Inspect.isOnLine_or_quoted "007").resolve_right (by decide)
  have hkey : Inspect.rereadKey "007" = "7" := by decide +kernel
  refine ⟨hbehind, hr, ?_, Inspect.rereadKey_of_isCanonicalNumeral (by decide) (by decide)⟩
  rw [← hkey]
  exact (propertyKey_keyText (ofFuel 1) ⟨0⟩ hbehind hr).1 hline

end EcmaEval
