import EcmaEval.Proofs.Syntax.Rules
import EcmaEval.Token.Lexer

/-!
# The digits of unbounded integers

A numeral with an `n` behind it is read as the digits of an unbounded integer, whatever stands
between its first character and the `n`.  The digits denote an integer unless they have a fraction
or an exponent, and then they denote none.

## Main definitions

* `Token.Lexed`: the token is one that can be read from a text

## Main results

* `Lexer.lexed_of_nextOnLine`: every token read from a text is such a token
-/

namespace EcmaEval

/-- A token that can be read from a text.  Only the digits of unbounded integers say more than any
token of their kind. -/
def Token.Lexed : Token → Prop
  | .bigint digits => Integer.ofText? digits = none ↔ Numeral.Fractional digits
  | _ => True

namespace Text

theorem isWhiteSpace_eq_false {c : Char} (h : 0x20 < c.toNat) (h' : c.toNat < 0x85) :
    isWhiteSpace c = false := by
  rw [Bool.eq_false_iff, isWhiteSpace, ne_eq, Ranges.contains_iff]
  simp only [whiteSpaceRanges, List.mem_cons, List.not_mem_nil, or_false]
  rintro ⟨range, hrange, hlow, hhigh⟩
  rcases hrange with rfl | rfl | rfl | rfl | rfl | rfl | rfl | rfl | rfl | rfl <;>
    simp only at hlow hhigh <;> omega

theorem trimBoth_eq_self {blank : Char → Bool} {cs : List Char}
    (h : ∀ c ∈ cs, blank c = false) : trimBoth blank cs = cs := by
  have hdrop : ∀ l : List Char, (∀ c ∈ l, blank c = false) → l.dropWhile blank = l := by
    intro l hl
    cases l with
    | nil => rfl
    | cons c l => simp [hl c (by simp)]
  rw [trimBoth, hdrop cs h, hdrop cs.reverse (by simpa using h), List.reverse_reverse]

end Text

namespace Number

theorem isDecimalDigit_iff {c : Char} :
    isDecimalDigit c = true ↔ 0x30 ≤ c.toNat ∧ c.toNat ≤ 0x39 := by
  simp only [isDecimalDigit, Bool.and_eq_true, decide_eq_true_eq]
  exact Iff.rfl

theorem digitValue?_of_isDecimalDigit {c : Char} (h : isDecimalDigit c = true) :
    (digitValue? 10 c).isSome := by
  have hc := isDecimalDigit_iff.mp h
  simp only [digitValue?, h, if_true, Option.isSome_filter, Option.any_some, decide_eq_true_eq]
  omega

/-- A digit of any radix is a printing character. -/
theorem toNat_of_digitValue? {radix : Nat} {c : Char} (h : (digitValue? radix c).isSome) :
    0x20 < c.toNat ∧ c.toNat < 0x85 ∧ c ≠ '_' := by
  -- The digits of all radixes are ten digits and the letters of either case.
  have hrange : (0x30 ≤ c.toNat ∧ c.toNat ≤ 0x39) ∨ (0x61 ≤ c.toNat ∧ c.toNat ≤ 0x7A) ∨
      (0x41 ≤ c.toNat ∧ c.toNat ≤ 0x5A) := by
    by_cases hd : isDecimalDigit c = true
    · exact .inl (isDecimalDigit_iff.mp hd)
    by_cases hl : ('a' ≤ c ∧ c ≤ 'z')
    · exact .inr (.inl hl)
    by_cases hu : ('A' ≤ c ∧ c ≤ 'Z')
    · exact .inr (.inr hu)
    simp [digitValue?, hd, hl, hu] at h
  refine ⟨by omega, by omega, ?_⟩
  rintro rfl
  revert hrange
  decide

end Number

namespace Integer

open Number

variable {radix : Nat} {cs : List Char}

/-- One digit more; an underscore is passed. -/
def readDigit (radix n : Nat) (c : Char) : Option Nat :=
  if c == '_' then some n else (digitValue? radix c).map fun d => radix * n + d

theorem readNat?_eq_foldlM (hne : cs ≠ []) (h : cs.head hne ≠ '_') :
    readNat? radix cs = cs.foldlM (readDigit radix) 0 := by
  cases cs with
  | nil => exact absurd rfl hne
  | cons c cs =>
    have hc : c ≠ '_' := h
    unfold readNat?
    split
    · simp_all
    · simp_all
    · rfl

theorem isSome_foldlM_readDigit (h : ∀ c ∈ cs, (digitValue? radix c).isSome) (n : Nat) :
    (cs.foldlM (readDigit radix) n).isSome := by
  -- Induction on the digits, from the number that those before them denote.
  induction cs generalizing n with
  | nil => rfl
  | cons c cs ih =>
    obtain ⟨d, hd⟩ := Option.isSome_iff_exists.mp (h c (by simp))
    have hc : c ≠ '_' := (toNat_of_digitValue? (h c (by simp))).2.2
    simpa [List.foldlM_cons, readDigit, hc, hd] using ih (fun c' h' => h c' (by simp [h'])) _

theorem foldlM_readDigit_eq_none {c : Char} (hmem : c ∈ cs)
    (hc : c ≠ '_') (hd : digitValue? radix c = none) (n : Nat) :
    cs.foldlM (readDigit radix) n = none := by
  induction cs generalizing n with
  | nil => cases hmem
  | cons c' cs ih =>
    rw [List.foldlM_cons]
    -- The character spoils the number here, or in the digits that follow.
    rcases List.mem_cons.mp hmem with rfl | hmem
    · simp [readDigit, hc, hd]
    · cases readDigit radix n c' with
      | none => rfl
      | some m => exact ih hmem m

theorem isSome_readNat? (hne : cs ≠ []) (h : ∀ c ∈ cs, (digitValue? radix c).isSome) :
    (readNat? radix cs).isSome := by
  have hhead : cs.head hne ≠ '_' := (toNat_of_digitValue? (h _ (List.head_mem hne))).2.2
  rw [readNat?_eq_foldlM hne hhead]
  exact isSome_foldlM_readDigit h 0

/-- Digits behind the mark of a radix. -/
theorem isSome_ofText?_of_marked {digits : List Char}
    (h : ∀ c ∈ cs, 0x20 < c.toNat ∧ c.toNat < 0x85)
    (hmark : markedRadix? cs = some (radix, digits)) :
    (ofText? (String.ofList cs)).isSome = (readNat? radix digits).isSome := by
  have htrim : Text.trimBoth Text.isWhiteSpace cs = cs :=
    Text.trimBoth_eq_self fun c hc => Text.isWhiteSpace_eq_false (h c hc).1 (h c hc).2
  have hne : cs ≠ [] := by
    rintro rfl
    cases hmark
  unfold ofText?
  simp only [String.toList_ofList, htrim, List.isEmpty_iff, hne, if_false, hmark]
  cases readNat? radix digits <;> rfl

/-- Digits without a mark and without a sign. -/
theorem isSome_ofText?_of_plain {c : Char}
    (h : ∀ c' ∈ c :: cs, 0x20 < c'.toNat ∧ c'.toNat < 0x85)
    (hmark : markedRadix? (c :: cs) = none) (hminus : c ≠ '-') (hplus : c ≠ '+') :
    (ofText? (String.ofList (c :: cs))).isSome = (readNat? 10 (c :: cs)).isSome := by
  have htrim : Text.trimBoth Text.isWhiteSpace (c :: cs) = c :: cs :=
    Text.trimBoth_eq_self fun c' hc => Text.isWhiteSpace_eq_false (h c' hc).1 (h c' hc).2
  unfold ofText?
  simp only [String.toList_ofList, htrim, List.isEmpty_cons, Bool.false_eq_true, if_false, hmark]
  unfold readSigned?
  split
  · simp_all
  · simp_all
  · cases readNat? 10 (c :: cs) <;> rfl

end Integer

namespace Numeral

open Number Scan

/-- The characters of a numeral in radix ten. -/
def IsDecimalChar (c : Char) : Prop :=
  isDecimalDigit c = true ∨ c = '.' ∨ c = 'e' ∨ c = 'E' ∨ c = '+' ∨ c = '-'

theorem IsDecimalChar.toNat {c : Char} (h : IsDecimalChar c) :
    0x20 < c.toNat ∧ c.toNat < 0x85 := by
  rcases h with h | rfl | rfl | rfl | rfl | rfl
  · have := isDecimalDigit_iff.mp h
    omega
  all_goals decide

/-- The letter of no mark is a character of a numeral in radix ten. -/
theorem IsDecimalChar.not_mark {c : Char} (h : IsDecimalChar c) :
    c ∉ ['x', 'X', 'o', 'O', 'b', 'B'] := by
  intro hmem
  simp only [List.mem_cons, List.not_mem_nil, or_false] at hmem
  rcases h with hd | hd
  · rw [isDecimalDigit_iff] at hd
    revert hd
    rcases hmem with rfl | rfl | rfl | rfl | rfl | rfl <;> decide
  · revert hd
    rcases hmem with rfl | rfl | rfl | rfl | rfl | rfl <;> decide

theorem IsDecimalChar.markedRadix? {cs : List Char} (h : ∀ c ∈ cs, IsDecimalChar c) :
    Number.markedRadix? cs = none := by
  unfold Number.markedRadix?
  split
  · next mark rest =>
    have hmark := (h mark (by simp)).not_mark
    simp only [List.mem_cons, List.not_mem_nil, or_false, not_or] at hmark
    obtain ⟨hx, hX, ho, hO, hb, hB⟩ := hmark
    simp [hx, hX, ho, hO, hb, hB]
  · rfl

/-- A numeral in radix ten denotes an integer unless it has a fraction or an exponent. -/
theorem ofText?_eq_none_iff {first : Char} {cs : List Char}
    (hfirst : isDecimalDigit first = true ∨ first = '.')
    (h : ∀ c ∈ cs, IsDecimalChar c)
    (hsign : ∀ c ∈ cs, c = '+' ∨ c = '-' → ∃ e ∈ cs, e = 'e' ∨ e = 'E') :
    Integer.ofText? (String.ofList (first :: cs)) = none ↔
      Fractional (String.ofList (first :: cs)) := by
  have hall : ∀ c ∈ first :: cs, IsDecimalChar c := by
    rintro c hc
    rcases List.mem_cons.mp hc with rfl | hc
    · exact hfirst.imp id .inl
    · exact h c hc
  have hmark := IsDecimalChar.markedRadix? hall
  have hplain : ∀ x : Char, x = '-' ∨ x = '+' ∨ x = '_' → first ≠ x := by
    rintro x hx rfl
    rcases hfirst with hd | rfl
    · rcases hx with rfl | rfl | rfl <;> revert hd <;> decide
    · revert hx; decide
  -- There is no mark and no sign at the front, so the digits are read one after the other.
  have hread : (Integer.ofText? (String.ofList (first :: cs))).isSome =
      ((first :: cs).foldlM (Integer.readDigit 10) 0).isSome := by
    rw [Integer.isSome_ofText?_of_plain (fun c hc => (hall c hc).toNat) hmark
      (hplain _ (.inl rfl)) (hplain _ (.inr (.inl rfl)))]
    rw [Integer.readNat?_eq_foldlM (List.cons_ne_nil _ _) (hplain _ (.inr (.inr rfl)))]
  rw [← Option.not_isSome_iff_eq_none, hread]
  simp only [Fractional, String.toList_ofList, hmark, true_and]
  constructor
  · intro hnone
    -- Without a point and a letter all characters are digits, and digits denote an integer.
    refine Classical.byContradiction fun hno => hnone ?_
    refine Integer.isSome_foldlM_readDigit (fun c hc => digitValue?_of_isDecimalDigit ?_) 0
    have hplainChar : ¬ (c = '.' ∨ c = 'e' ∨ c = 'E') := fun hbad => hno ⟨c, hc, hbad⟩
    have hnosign : ¬ (c = '+' ∨ c = '-') := by
      intro hs
      rcases List.mem_cons.mp hc with rfl | hc
      · rcases hs with rfl | rfl
        · exact hplain _ (.inr (.inl rfl)) rfl
        · exact hplain _ (.inl rfl) rfl
      -- A sign stands in an exponent only, whose letter is not there.
      · obtain ⟨e, he, hexp⟩ := hsign c hc hs
        exact hno ⟨e, List.mem_cons_of_mem _ he, .inr hexp⟩
    rcases hall c hc with h | h | h | h | h | h <;> simp_all
  · rintro ⟨c, hc, hbad⟩
    -- A point or a letter is no digit in radix ten.
    have hnone : (first :: cs).foldlM (Integer.readDigit 10) 0 = none := by
      refine Integer.foldlM_readDigit_eq_none hc ?_ ?_ 0 <;>
        rcases hbad with rfl | rfl | rfl <;> decide
    simp [hnone]

/-! ### The readers of numerals -/

theorem digit_of_mem_spanDigits {c : Cursor} (digit : Char → Bool) {ch : Char}
    (h : ch ∈ (spanDigits c digit).1) : digit ch = true := by
  simp only [spanDigits, Cursor.span, List.mem_filter] at h
  have htaken := List.all_eq_true.mp List.all_takeWhile ch h.1
  simp_all

theorem isDecimalChar_of_mem_spanFraction {c : Cursor} {ch : Char}
    (h : ch ∈ (spanFraction c).1) : isDecimalDigit ch = true ∨ ch = '.' := by
  unfold spanFraction at h
  split at h
  · rcases List.mem_cons.mp h with rfl | h
    · exact .inr rfl
    · exact .inl (digit_of_mem_spanDigits _ h)
  · cases h

/-- An exponent begins with its letter, which no other part has. -/
theorem spanExponent_eq (c : Cursor) :
    (spanExponent c).1 = [] ∨ ∃ e rest, (spanExponent c).1 = e :: rest ∧ (e = 'e' ∨ e = 'E') ∧
      ∀ ch ∈ rest, isDecimalDigit ch = true ∨ ch = '+' ∨ ch = '-' := by
  unfold spanExponent
  split
  · next e _ =>
    split
    · next he =>
      -- Behind the letter there may be a sign, and then digits.
      refine .inr ⟨e, _, rfl, by simpa using he, ?_⟩
      intro ch hch
      rcases List.mem_append.mp hch with hsign | hdigit
      · revert hsign
        split
        · split
          · next s _ hs =>
            intro hsign
            obtain rfl := List.mem_singleton.mp hsign
            exact .inr (by simpa using hs)
          · intro hsign
            cases hsign
        · intro hsign
          cases hsign
      · exact .inl (digit_of_mem_spanDigits _ hdigit)
    · exact .inl rfl
  · exact .inl rfl

theorem isDecimalChar_of_mem_spanExponent {c : Cursor} {ch : Char}
    (h : ch ∈ (spanExponent c).1) : IsDecimalChar ch := by
  rcases spanExponent_eq c with hnil | ⟨e, rest, hcons, he, hrest⟩
  · rw [hnil] at h
    cases h
  · rw [hcons] at h
    rcases List.mem_cons.mp h with rfl | hmem
    · exact .inr (.inr (he.imp id .inl))
    · exact (hrest ch hmem).imp id fun hsign => .inr (.inr (.inr hsign))

/-- Whatever stands in an exponent, its letter does too. -/
theorem exists_letter_of_mem_spanExponent {c : Cursor} {ch : Char}
    (h : ch ∈ (spanExponent c).1) : ∃ e ∈ (spanExponent c).1, e = 'e' ∨ e = 'E' := by
  rcases spanExponent_eq c with hnil | ⟨e, rest, hcons, he, -⟩
  · rw [hnil] at h
    cases h
  · exact ⟨e, hcons ▸ List.mem_cons_self, he⟩

theorem lexed_finish {c : Cursor} {result : Result Token}
    (h : ∀ token d, result = .ok token d → token.Lexed) {token : Token} {d : Cursor}
    (hfinish : finish c result = .ok token d) : token.Lexed := by
  unfold finish at hfinish
  split at hfinish
  · split at hfinish
    · cases hfinish
    · exact h _ _ hfinish
  · exact h _ _ hfinish

theorem lexed_finishDecimal {c d : Cursor} {cs : List Char} {token : Token}
    (h : finishDecimal c cs = .ok token d) : token.Lexed := by
  refine lexed_finish (fun token d hread => ?_) h
  split at hread <;> cases hread
  trivial

/-- A mark is a zero and a letter, which tells the radix. -/
theorem markOf?_eq_some {ch : Char} {radix : Nat} {mark : String}
    (h : markOf? ch = some (radix, mark)) :
    ∃ letter, mark = String.ofList ['0', letter] ∧
      (letter = 'x' ∧ radix = 16 ∨ letter = 'o' ∧ radix = 8 ∨ letter = 'b' ∧ radix = 2) := by
  unfold markOf? at h
  split at h
  · cases h
    exact ⟨'x', rfl, by simp⟩
  split at h
  · cases h
    exact ⟨'o', rfl, by simp⟩
  split at h
  · cases h
    exact ⟨'b', rfl, by simp⟩
  · cases h

theorem lexed_readMarked {c d : Cursor} {ch : Char} {radix : Nat} {mark : String} {token : Token}
    (hmark : markOf? ch = some (radix, mark)) (h : readMarked c radix mark = .ok token d) :
    token.Lexed := by
  unfold readMarked at h
  generalize hspan : spanDigits c (fun ch => (digitValue? radix ch).isSome) = span at h
  obtain ⟨digits, e⟩ := span
  have hdigits : ∀ ch ∈ digits, (digitValue? radix ch).isSome := fun ch hch =>
    digit_of_mem_spanDigits (c := c) (fun ch => (digitValue? radix ch).isSome)
      (by simpa [hspan] using hch)
  dsimp only at h
  split at h
  · cases h
  next hne =>
  split at h
  · cases h
    obtain ⟨letter, hletter, hradix⟩ := markOf?_eq_some hmark
    -- The text that is kept is the mark with the digits, from which the radix is read again.
    have hmarked : markedRadix? ('0' :: letter :: digits) = some (radix, digits) := by
      rcases hradix with ⟨rfl, rfl⟩ | ⟨rfl, rfl⟩ | ⟨rfl, rfl⟩ <;> rfl
    have htext : mark ++ String.ofList digits = String.ofList ('0' :: letter :: digits) := by
      rw [hletter, ← String.ofList_append]
      rfl
    have hprinting : ∀ ch ∈ '0' :: letter :: digits, 0x20 < ch.toNat ∧ ch.toNat < 0x85 := by
      intro ch hch
      rcases List.mem_cons.mp hch with rfl | hch
      · decide
      rcases List.mem_cons.mp hch with rfl | hch
      · rcases hradix with ⟨rfl, _⟩ | ⟨rfl, _⟩ | ⟨rfl, _⟩ <;> decide
      · have := toNat_of_digitValue? (hdigits ch hch)
        exact ⟨this.1, this.2.1⟩
    have hsome := Integer.isSome_ofText?_of_marked hprinting hmarked
    rw [Integer.isSome_readNat? (by simpa using hne) hdigits] at hsome
    simp only [Token.Lexed, Fractional, htext, String.toList_ofList, hmarked, reduceCtorEq,
      false_and, iff_false]
    intro hnone
    rw [hnone] at hsome
    cases hsome
  · exact lexed_finish (fun token d hread => by cases hread; trivial) h

theorem lexed_readZeroLed {c d : Cursor} {token : Token} (h : readZeroLed c = .ok token d) :
    token.Lexed := by
  unfold readZeroLed at h
  dsimp only at h
  split at h
  · exact lexed_finish (fun token d hread => by cases hread; trivial) h
  · exact lexed_finishDecimal h

theorem lexed_readDecimal {c d : Cursor} {first : Char} {token : Token}
    (hfirst : isDecimalDigit first = true ∨ first = '.')
    (h : readDecimal c first = .ok token d) : token.Lexed := by
  unfold readDecimal at h
  dsimp only at h
  split at h
  · cases h
    refine ofText?_eq_none_iff hfirst ?_ ?_
    -- Whole part, fraction and exponent are made of the characters of a numeral.
    · intro ch hch
      rcases List.mem_append.mp hch with hch | hexp
      · rcases List.mem_append.mp hch with hwhole | hfrac
        · exact .inl (digit_of_mem_spanDigits _ hwhole)
        · split at hfrac
          · cases hfrac
          · exact (isDecimalChar_of_mem_spanFraction hfrac).imp id .inl
      · exact isDecimalChar_of_mem_spanExponent hexp
    · intro ch hch hsign
      -- A sign is no character of the other two parts, so it stands in the exponent.
      have hdigit : isDecimalDigit ch = false ∧ ch ≠ '.' := by
        rcases hsign with rfl | rfl <;> decide
      rcases List.mem_append.mp hch with hch | hexp
      · rcases List.mem_append.mp hch with hwhole | hfrac
        · simp [digit_of_mem_spanDigits _ hwhole] at hdigit
        · split at hfrac
          · cases hfrac
          · rcases isDecimalChar_of_mem_spanFraction hfrac with h | h <;> simp [h] at hdigit
      · obtain ⟨e, hmem, he⟩ := exists_letter_of_mem_spanExponent hexp
        exact ⟨e, List.mem_append_right _ hmem, he⟩
  · exact lexed_finishDecimal h

theorem lexed_read {c d : Cursor} {first : Char} {token : Token}
    (hfirst : isDecimalDigit first = true ∨ first = '.') (h : read c first = .ok token d) :
    token.Lexed := by
  unfold read at h
  split at h
  · split at h
    · split at h
      · next hmark => exact lexed_readMarked hmark h
      · split at h
        · exact lexed_readZeroLed h
        · exact lexed_readDecimal hfirst h
    · exact lexed_readDecimal hfirst h
  · exact lexed_readDecimal hfirst h

end Numeral

namespace Lexer

open Scan

theorem lexed_nameToken (name : String) (escaped : Bool) : (nameToken name escaped).Lexed := by
  unfold nameToken
  repeat' split
  all_goals trivial

theorem lexed_readString {c d : Cursor} {quote : Char} {seen : String} {token : Token}
    (h : readString c quote seen = .ok token d) : token.Lexed := by
  fun_induction readString c quote seen with
  | case1 => cases h
  | case2 => cases h; trivial
  | case3 => cases h
  | case4 _ _ _ _ _ _ _ _ _ _ _ _ _ ih => exact ih h
  | case5 => cases h
  | case6 _ _ _ _ _ _ _ _ _ ih => exact ih h

theorem lexed_readTemplatePart {c d : Cursor} {closed opened : TemplatePart} {token : Token}
    (h : readTemplatePart c closed opened = .ok token d) : token.Lexed := by
  unfold readTemplatePart Result.map at h
  split at h <;> cases h
  trivial

/-- A part of a template behind a substitution. -/
theorem lexed_readTemplateContinuation {c d : Cursor} {token : Token}
    (h : readTemplateContinuation c = .ok token d) : token.Lexed :=
  lexed_readTemplatePart h

/-- A regular expression. -/
theorem lexed_readRegExp {c d : Cursor} {token : Token} (h : readRegExp c = .ok token d) :
    token.Lexed := by
  unfold readRegExp at h
  split at h <;> cases h
  trivial

theorem lexed_readAt {c d e : Cursor} {ch : Char} {token : Token}
    (h : readAt c ch d = .ok token e) : token.Lexed := by
  unfold readAt at h
  split at h
  · exact lexed_readString h
  split at h
  · exact lexed_readTemplatePart h
  split at h
  · next hfirst =>
    refine Numeral.lexed_read ?_ h
    rcases Bool.or_eq_true _ _ ▸ hfirst with hdigit | hpoint
    · exact .inl hdigit
    · exact .inr (by simp_all)
  split at h
  · split at h
    · cases h
      exact lexed_nameToken _ _
    · cases h
  split at h
  · cases h
    exact lexed_nameToken _ _
  · unfold readPunctuator at h
    split at h <;> cases h
    trivial

theorem lexed_next {c d : Cursor} {token : Token} (h : next c = .ok token d) : token.Lexed := by
  fun_induction next c with
  | case1 =>
    obtain ⟨rfl, _⟩ := EStateM.Result.ok.inj h
    trivial
  | case2 =>
    cases h
    trivial
  | case3 _ _ _ _ _ _ _ _ _ _ ih => exact ih h
  | case4 => cases h; trivial
  | case5 _ _ _ _ _ _ _ _ _ _ _ _ _ _ _ ih => exact ih h
  | case6 => cases h
  | case7 _ _ _ _ _ _ _ _ _ _ _ _ ih => exact ih h
  | case8 => exact lexed_readAt h

/-- Every token that is read from a text. -/
theorem lexed_of_nextOnLine {c d : Cursor} {seen lineEnd : Bool} {token : Token}
    (h : nextOnLine c seen = .ok (token, lineEnd) d) : token.Lexed := by
  fun_induction nextOnLine c seen with
  | case1 => cases h
  | case2 _ _ _ _ _ ih => exact ih h
  | case3 _ _ _ _ _ hnext =>
    cases h
    exact lexed_next hnext

end Lexer

end EcmaEval
