import EcmaEval.Proofs.Token.Basic

/-!
# Numerals as text, and numerals that are cut short

A literal in radix ten is a mantissa and maybe an exponent.  Its underscores do not count, and it is a
number.

A numeral that fails before the end of the text fails however the text goes on.  One that fails at the
end has no digit behind the mark of its radix or of its exponent, and a digit completes it.

## Main definitions

* `Number.IsExponent`, `Number.IsFraction`: the parts of a number as it is written
* `Numeral.IsMantissa`: a literal in radix ten up to its exponent
* `Numeral.CutShort`: a numeral that wants a digit

## Main results

* `Numeral.IsMantissa.isSome_readNumeral?`: a mantissa, with an exponent or without, is a number
* `Numeral.exists_of_spanMantissa`, `Numeral.exists_of_spanExponent`: what the readers of the parts take
* `Numeral.cutShort_of_read`: a numeral that fails, and does not fail in a longer text, is cut short
* `Numeral.exists_read_eq_ok`: a numeral that is cut short is read with a digit behind it
-/

namespace EcmaEval

open Scan Cursor

variable {c d : Cursor} {ch : Char}

namespace Number

variable {whole fraction exponent digits : List Char}

/-! ## The text of a numeral -/

/-- Nothing, or the letter of an exponent with at least one digit. -/
def IsExponent (exponent : List Char) : Prop :=
  exponent = [] ∨ ∃ letter sign digits, exponent = letter :: (sign ++ digits) ∧
    (letter == 'e' || letter == 'E') = true ∧ sign ∈ [[], ['+'], ['-']] ∧ digits ≠ [] ∧
    digits.all isDecimalDigit = true

theorem readExponent?_cons (letter : Char) (rest : List Char) : readExponent? (letter :: rest) =
    if (letter == 'e' || letter == 'E') = true then
      if (!(splitSign rest).2.isEmpty && (splitSign rest).2.all isDecimalDigit) = true then
        some (if (splitSign rest).1 = true then -(natOfDigits (splitSign rest).2 : Int)
          else natOfDigits (splitSign rest).2)
      else none
    else none := rfl

/-- A sign is split off, and a digit is no sign. -/
theorem splitSign_append {sign : List Char} (hsign : sign ∈ [[], ['+'], ['-']])
    (hdigits : digits.all isDecimalDigit = true) : (splitSign (sign ++ digits)).2 = digits := by
  simp only [List.mem_cons, List.not_mem_nil, or_false] at hsign
  rcases hsign with rfl | rfl | rfl
  · have hsign {ch : Char} {rest : List Char} (hch : isDecimalDigit ch = false)
        (heq : digits = ch :: rest) : False := by
      rw [heq, List.all_cons, hch] at hdigits
      cases hdigits
    unfold splitSign
    split
    · next heq => exact (hsign (by decide) heq).elim
    · next heq => exact (hsign (by decide) heq).elim
    · rfl
  · rfl
  · rfl

theorem isSome_readExponent? (h : IsExponent exponent) : (readExponent? exponent).isSome = true := by
  rcases h with rfl | ⟨letter, sign, digits, rfl, hletter, hsign, hne, hdigits⟩
  · rfl
  · rw [readExponent?_cons, if_pos hletter, splitSign_append hsign hdigits, hdigits,
      List.isEmpty_eq_false_iff.mpr hne]
    rfl

/-- An exponent does not begin with a digit or a point. -/
theorem IsExponent.head (h : IsExponent exponent) :
    ∀ ch ∈ exponent.head?, isDecimalDigit ch = false ∧ ch ≠ '.' := by
  rcases h with rfl | ⟨letter, sign, digits, rfl, hletter, -⟩
  · nofun
  · rintro ch hch
    obtain rfl := Option.some.inj hch
    rcases Bool.or_eq_true_iff.mp hletter with h | h <;> obtain rfl := eq_of_beq h <;> decide

theorem spanDigits_append {rest : List Char} (hdigits : digits.all isDecimalDigit = true)
    (hrest : ∀ ch ∈ rest.head?, isDecimalDigit ch = false) :
    spanDigits (digits ++ rest) = (digits, rest) := by
  have hall := List.all_eq_true.mp hdigits
  unfold spanDigits
  cases rest with
  | nil =>
    rw [List.append_nil, List.takeWhile_eq_self_iff.mpr hall, List.dropWhile_eq_nil_iff.mpr hall]
  | cons ch rest =>
    obtain ⟨htake, hdrop⟩ := Text.cut_append_cons (hrest ch rfl) digits rest
    rw [htake, hdrop, List.takeWhile_eq_self_iff.mpr hall, List.dropWhile_eq_nil_iff.mpr hall,
      List.nil_append]

/-- A point and digits, or nothing. -/
def IsFraction (fraction : List Char) : Prop :=
  fraction = [] ∨ ∃ digits, fraction = '.' :: digits ∧ digits.all isDecimalDigit = true

/-- The digits behind a point, and the rest. -/
def splitPoint : List Char → List Char × List Char
  | '.' :: rest => spanDigits rest
  | rest => ([], rest)

theorem splitPoint_eq {rest : List Char} (h : ∀ ch ∈ rest.head?, ch ≠ '.') :
    splitPoint rest = ([], rest) := by
  unfold splitPoint
  split
  · exact absurd rfl (h '.' rfl)
  · rfl

theorem readNumeral?_eq (cs : List Char) : readNumeral? cs =
    if ((spanDigits cs).1.isEmpty && (splitPoint (spanDigits cs).2).1.isEmpty) = true then none
    else (readExponent? (splitPoint (spanDigits cs).2).2).map fun exponent =>
      ofDecimal (natOfDigits ((spanDigits cs).1 ++ (splitPoint (spanDigits cs).2).1))
        (exponent - (splitPoint (spanDigits cs).2).1.length) := rfl

/-- Digits with a point among or around them and an exponent are a number. -/
theorem isSome_readNumeral? (hwhole : whole.all isDecimalDigit = true)
    (hfraction : IsFraction fraction) (hne : whole ≠ [] ∨ ∃ ch digits, fraction = '.' :: ch :: digits)
    (hexponent : IsExponent exponent) :
    (readNumeral? (whole ++ (fraction ++ exponent))).isSome = true := by
  have hhead := hexponent.head
  have hnumber := isSome_readExponent? hexponent
  rcases hfraction with rfl | ⟨digits, rfl, hdigits⟩
  · have hwhole' : whole.isEmpty = false := List.isEmpty_eq_false_iff.mpr (hne.resolve_right nofun)
    rw [List.nil_append, readNumeral?_eq, spanDigits_append hwhole fun ch hch => (hhead ch hch).1,
      splitPoint_eq fun ch hch => (hhead ch hch).2, hwhole', Bool.false_and,
      if_neg Bool.false_ne_true, Option.isSome_map]
    exact hnumber
  · have hempty : (whole.isEmpty && digits.isEmpty) = false := by
      rcases hne with hne | ⟨ch, digits', heq⟩
      · rw [List.isEmpty_eq_false_iff.mpr hne, Bool.false_and]
      · rw [(List.cons.inj heq).2]
        exact Bool.and_false _
    have hpoint : ∀ ch ∈ ('.' :: (digits ++ exponent)).head?, isDecimalDigit ch = false := by
      rintro ch hch
      obtain rfl := Option.some.inj hch
      decide
    have hsplit : splitPoint ('.' :: (digits ++ exponent)) = (digits, exponent) :=
      spanDigits_append hdigits fun ch hch => (hhead ch hch).1
    rw [List.cons_append, readNumeral?_eq, spanDigits_append hwhole hpoint, hsplit, hempty,
      if_neg Bool.false_ne_true, Option.isSome_map]
    exact hnumber

end Number

namespace Numeral

open Number

variable {first : Char} {text : List Char}

/-! ## The parts of a numeral -/

/-- A decimal digit or an underscore. -/
def isDigitOrGap (ch : Char) : Bool := isDecimalDigit ch || ch == '_'

/-- A literal in radix ten up to its exponent: a digit and what may stand behind it, with a point or
without, or a point and a digit. -/
inductive IsMantissa : List Char → Prop where
  | whole {first : Char} {whole : List Char} (hfirst : isDecimalDigit first = true)
    (hwhole : whole.all isDigitOrGap = true) : IsMantissa (first :: whole)
  | point {first : Char} {whole fraction : List Char} (hfirst : isDecimalDigit first = true)
    (hwhole : whole.all isDigitOrGap = true) (hfraction : fraction.all isDigitOrGap = true) :
    IsMantissa (first :: (whole ++ '.' :: fraction))
  | fraction {first : Char} {fraction : List Char} (hfirst : isDecimalDigit first = true)
    (hfraction : fraction.all isDigitOrGap = true) : IsMantissa ('.' :: first :: fraction)

/-- The characters of a literal that count. -/
def withoutGaps (text : List Char) : List Char := text.filter (· != '_')

theorem withoutGaps_cons (h : ch ≠ '_') (cs : List Char) :
    withoutGaps (ch :: cs) = ch :: withoutGaps cs :=
  List.filter_cons_of_pos (by simpa using h)

theorem withoutGaps_append (cs cs' : List Char) :
    withoutGaps (cs ++ cs') = withoutGaps cs ++ withoutGaps cs' :=
  List.filter_append ..

theorem all_withoutGaps {digit : Char → Bool} {taken : List Char}
    (h : taken.all (fun ch => digit ch || ch == '_') = true) :
    (withoutGaps taken).all digit = true := by
  rw [List.all_eq_true] at h ⊢
  intro ch hch
  obtain ⟨hmem, hne⟩ := List.mem_filter.mp hch
  have := h ch hmem
  simp_all

theorem all_eq_of_withoutGaps {taken : List Char} (h : withoutGaps taken = []) :
    taken.all (· == '_') = true := by
  rw [List.all_eq_true]
  intro ch hch
  have := List.filter_eq_nil_iff.mp h ch hch
  simpa using this

theorem ne_gap_of_isDecimalDigit (h : isDecimalDigit ch = true) : ch ≠ '_' := by
  rintro rfl
  exact absurd h (by decide)

/-- A mantissa with an exponent, or without one, is a number. -/
theorem IsMantissa.isSome_readNumeral? {exponent : List Char} (h : IsMantissa text)
    (hexponent : IsExponent exponent) :
    (readNumeral? (withoutGaps text ++ exponent)).isSome = true := by
  cases h with
  | @whole first whole hfirst hwhole =>
    have hall : (first :: withoutGaps whole).all isDecimalDigit = true := by
      rw [List.all_cons, hfirst, all_withoutGaps hwhole]
      rfl
    rw [withoutGaps_cons (ne_gap_of_isDecimalDigit hfirst)]
    exact Number.isSome_readNumeral? hall (.inl rfl) (.inl (List.cons_ne_nil _ _)) hexponent
  | @point first whole fraction hfirst hwhole hfraction =>
    have hall : (first :: withoutGaps whole).all isDecimalDigit = true := by
      rw [List.all_cons, hfirst, all_withoutGaps hwhole]
      rfl
    rw [withoutGaps_cons (ne_gap_of_isDecimalDigit hfirst), withoutGaps_append,
      withoutGaps_cons (by decide), ← List.cons_append, List.append_assoc]
    exact Number.isSome_readNumeral? hall (.inr ⟨_, rfl, all_withoutGaps hfraction⟩)
      (.inl (List.cons_ne_nil _ _)) hexponent
  | @fraction first fraction hfirst hfraction =>
    have hall : (first :: withoutGaps fraction).all isDecimalDigit = true := by
      rw [List.all_cons, hfirst, all_withoutGaps hfraction]
      rfl
    rw [withoutGaps_cons (by decide), withoutGaps_cons (ne_gap_of_isDecimalDigit hfirst)]
    have hwhole : ([] : List Char).all isDecimalDigit = true := rfl
    exact Number.isSome_readNumeral? hwhole (.inr ⟨_, rfl, hall⟩) (.inr ⟨_, _, rfl⟩) hexponent

/-! ### What the parts take -/

theorem exists_of_spanDigits (c : Cursor) (digit : Char → Bool) :
    ∃ taken, c.rest = taken ++ (spanDigits c digit).2.rest ∧
      (spanDigits c digit).1 = withoutGaps taken ∧
      taken.all (fun ch => digit ch || ch == '_') = true :=
  ⟨_, List.takeWhile_append_dropWhile.symm, rfl, List.all_takeWhile⟩

/-- What is read of a literal before its exponent. -/
def spanMantissa (c : Cursor) (first : Char) : List Char × Cursor :=
  let whole := spanDigits c isDecimalDigit
  let fraction := if first == '.' then ([], whole.2) else spanFraction whole.2
  (first :: (whole.1 ++ fraction.1), fraction.2)

/-- A literal begins with a digit, or with a point and a digit behind it. -/
def Starts (first : Char) (c : Cursor) : Prop :=
  isDecimalDigit first = true ∨ first = '.' ∧ c.peek?.any isDecimalDigit = true

theorem Starts.ne (h : Starts first c) (hdigit : isDecimalDigit ch = false) (hpoint : ch ≠ '.') :
    first ≠ ch := by
  rintro rfl
  rcases h with h | ⟨rfl, -⟩
  · rw [hdigit] at h
    cases h
  · exact hpoint rfl

theorem exists_of_spanMantissa (hfirst : Starts first c) :
    ∃ text, first :: c.rest = text ++ (spanMantissa c first).2.rest ∧ IsMantissa text ∧
      (spanMantissa c first).1 = withoutGaps text := by
  unfold spanMantissa
  dsimp only
  rcases hfirst with hfirst | ⟨rfl, hpeek⟩
  · obtain ⟨taken, hrest, hdigits, hall⟩ := exists_of_spanDigits c isDecimalDigit
    have hpoint : ¬(first == '.') = true := by
      intro heq
      obtain rfl := eq_of_beq heq
      exact absurd hfirst (by decide)
    rw [if_neg hpoint, hdigits]
    unfold spanFraction
    split
    · next d hskip =>
      obtain ⟨taken', hrest', hdigits', hall'⟩ := exists_of_spanDigits d isDecimalDigit
      refine ⟨first :: (taken ++ '.' :: taken'), ?_, .point hfirst hall hall', ?_⟩
      · rw [hrest, (Moves.skipIf? hskip).rest, hrest']
        simp
      · rw [withoutGaps_cons (ne_gap_of_isDecimalDigit hfirst), withoutGaps_append,
          withoutGaps_cons (by decide), ← hdigits']
    · refine ⟨first :: taken, ?_, .whole hfirst hall, ?_⟩
      · rw [List.cons_append, ← hrest]
      · rw [withoutGaps_cons (ne_gap_of_isDecimalDigit hfirst), List.append_nil]
  · obtain ⟨ch, rest, hcons⟩ : ∃ ch rest, c.rest = ch :: rest := by
      refine List.exists_cons_of_ne_nil fun hend => ?_
      rw [peek?_eq_none hend] at hpeek
      cases hpeek
    rw [peek?_of_rest hcons, Option.any_some] at hpeek
    have hclass : isDigitOrGap ch = true := by
      rw [isDigitOrGap, hpeek]
      rfl
    rw [if_pos (by decide), List.append_nil]
    refine ⟨'.' :: ch :: rest.takeWhile isDigitOrGap, ?_, .fraction hpeek List.all_takeWhile, ?_⟩
    · change _ = '.' :: ch :: (_ ++ c.rest.dropWhile isDigitOrGap)
      rw [hcons, List.dropWhile_cons_of_pos hclass, List.takeWhile_append_dropWhile]
    · change '.' :: withoutGaps (c.rest.takeWhile isDigitOrGap) = _
      rw [hcons, List.takeWhile_cons_of_pos hclass, withoutGaps_cons (show '.' ≠ '_' by decide)]

/-- The sign of an exponent. -/
theorem exists_of_spanSign (c : Cursor) :
    (spanSign c).1 ∈ [[], ['+'], ['-']] ∧ c.rest = (spanSign c).1 ++ (spanSign c).2.rest := by
  unfold spanSign
  split
  · next sign hpeek =>
    split
    · next hsign =>
      refine ⟨?_, (Moves.skip hpeek).rest⟩
      rcases Bool.or_eq_true_iff.mp hsign with h | h <;> obtain rfl := eq_of_beq h <;> simp
    · exact ⟨List.mem_cons_self, rfl⟩
  · exact ⟨List.mem_cons_self, rfl⟩

/-- An exponent is its letter, maybe a sign, and digits, if there are any. -/
theorem exists_of_spanExponent (c : Cursor) :
    spanExponent c = ([], c) ∨ ∃ letter sign taken,
      (letter == 'e' || letter == 'E') = true ∧ sign ∈ [[], ['+'], ['-']] ∧
      taken.all isDigitOrGap = true ∧
      c.rest = letter :: (sign ++ taken) ++ (spanExponent c).2.rest ∧
      (spanExponent c).1 = letter :: (sign ++ withoutGaps taken) := by
  rw [spanExponent_eq_spanSign]
  split
  · next letter hpeek =>
    split
    · next hletter =>
      obtain ⟨hsign, hrest⟩ := exists_of_spanSign c.skip
      obtain ⟨taken, hrest', hdigits, hall⟩ := exists_of_spanDigits (spanSign c.skip).2 isDecimalDigit
      refine .inr ⟨letter, _, taken, hletter, hsign, hall, ?_, ?_⟩
      · rw [(Moves.skip hpeek).rest, hrest, hrest']
        simp
      · rw [hdigits]
    · exact .inl rfl
  · exact .inl rfl

variable {l t : List Char} {c' d' : Cursor} {letter : Char} {gap sign : List Char} {token : Token}
  {x : LexError}

/-! ## Numerals that want a digit -/

/-- A numeral that wants a digit, behind the mark of its radix or behind that of its exponent. -/
inductive CutShort : List Char → Prop where
  | radix {mark : Char} {gap : List Char} (hmark : (markOf? mark).isSome = true)
    (hgap : gap.all (· == '_') = true) : CutShort ('0' :: mark :: gap)
  | exponent {mantissa sign gap : List Char} {letter : Char} (hmantissa : IsMantissa mantissa)
    (hletter : (letter == 'e' || letter == 'E') = true) (hsign : sign ∈ [[], ['+'], ['-']])
    (hgap : gap.all (· == '_') = true) : CutShort (mantissa ++ letter :: (sign ++ gap))

/-! ## At the end of the text -/

/-- Where the end is reached behind a mantissa, the text is a number, or an exponent wants a digit. -/
theorem IsMantissa.cutShort (h : IsMantissa text) (hend : (spanExponent c).2.rest = [])
    (hread : readNumeral? (withoutGaps text ++ (spanExponent c).1) = none) :
    CutShort (text ++ c.rest) := by
  have hnone {exponent : List Char} (hexponent : IsExponent exponent)
      (hread : readNumeral? (withoutGaps text ++ exponent) = none) : False := by
    have hsome := h.isSome_readNumeral? hexponent
    rw [hread] at hsome
    cases hsome
  rcases exists_of_spanExponent c with hnil | ⟨letter, sign, taken, hletter, hsign, hall, hrest, heq⟩
  · rw [hnil] at hread
    exact (hnone (.inl rfl) hread).elim
  · rw [hrest, hend, List.append_nil]
    -- An exponent with a digit would have made the text a number.
    refine .exponent h hletter hsign (all_eq_of_withoutGaps ?_)
    refine Classical.byContradiction fun hne => ?_
    rw [heq] at hread
    exact hnone (.inr ⟨letter, sign, _, rfl, hletter, hsign, hne, all_withoutGaps hall⟩) hread

theorem readDecimal_eq (c : Cursor) (first : Char) : readDecimal c first =
    match (spanExponent (spanMantissa c first).2).2.skipIf? 'n' with
    | some e => .ok (.bigint (String.ofList
        ((spanMantissa c first).1 ++ (spanExponent (spanMantissa c first).2).1))) e
    | none => finishDecimal (spanExponent (spanMantissa c first).2).2
        ((spanMantissa c first).1 ++ (spanExponent (spanMantissa c first).2).1) := rfl

/-- The digits behind a leading zero are octal, and neither a point nor an exponent follows. -/
def isOctal (c : Cursor) : Bool :=
  ((spanDigits c isDecimalDigit).1.all fun ch => '0' ≤ ch && ch ≤ '7') &&
    !((spanDigits c isDecimalDigit).2.peek?.any fun ch => ch == '.' || ch == 'e' || ch == 'E')

theorem readZeroLed_eq (c : Cursor) : readZeroLed c =
    if isOctal c = true then
      finish (spanDigits c isDecimalDigit).2
        (.ok (.numeric (radixValue 8 (spanDigits c isDecimalDigit).1))
          (spanDigits c isDecimalDigit).2)
    else finishDecimal (spanExponent (spanMantissa c '0').2).2
      ((spanMantissa c '0').1 ++ (spanExponent (spanMantissa c '0').2).1) := rfl

/-- At the end of the text nothing stands behind a literal. -/
theorem finish_of_end (hend : c.rest = []) (result : Result Token) : finish c result = result := by
  unfold finish
  rw [peek?_eq_none hend]

/-- A literal that fails stops where it is complete. -/
theorem eq_of_finish_eq_error (h : finish c (.ok token c) = .error x d) : d = c := by
  have hcursor := cursor_finish_ok c token
  rwa [h] at hcursor

theorem eq_of_finishDecimal_eq_error {cs : List Char} (h : finishDecimal c cs = .error x d) :
    d = c := by
  have hcursor := cursor_finishDecimal c cs
  rwa [h] at hcursor

theorem readNumeral?_eq_none {cs : List Char} (h : finishDecimal c cs = .error x d)
    (hend : d.rest = []) : c.rest = [] ∧ readNumeral? cs = none := by
  obtain rfl := eq_of_finishDecimal_eq_error h
  refine ⟨hend, ?_⟩
  unfold finishDecimal at h
  rw [finish_of_end hend] at h
  split at h
  · cases h
  · assumption

theorem cutShort_of_finishDecimal (hfirst : Starts first c)
    (h : finishDecimal (spanExponent (spanMantissa c first).2).2
      ((spanMantissa c first).1 ++ (spanExponent (spanMantissa c first).2).1) = .error x d)
    (hend : d.rest = []) : CutShort (first :: c.rest) := by
  obtain ⟨text, hrest, htext, heq⟩ := exists_of_spanMantissa hfirst
  obtain ⟨hend, hread⟩ := readNumeral?_eq_none h hend
  rw [heq] at hread
  rw [hrest]
  exact htext.cutShort hend hread

theorem cutShort_of_readDecimal (hfirst : Starts first c) (h : readDecimal c first = .error x d)
    (hend : d.rest = []) : CutShort (first :: c.rest) := by
  rw [readDecimal_eq] at h
  split at h
  · cases h
  · exact cutShort_of_finishDecimal hfirst h hend

theorem cutShort_of_readZeroLed (h : readZeroLed c = .error x d) (hend : d.rest = []) :
    CutShort ('0' :: c.rest) := by
  rw [readZeroLed_eq] at h
  split at h
  · rw [finish_of_end (eq_of_finish_eq_error h ▸ hend)] at h
    cases h
  · exact cutShort_of_finishDecimal (.inl (by decide)) h hend

theorem cutShort_of_readMarked {radix : Nat} {mark : String} (hmark : (markOf? ch).isSome = true)
    (h : readMarked c radix mark = .error x d) (hend : d.rest = []) :
    CutShort ('0' :: ch :: c.rest) := by
  obtain ⟨taken, hrest, hdigits, -⟩ := exists_of_spanDigits c fun ch => (digitValue? radix ch).isSome
  unfold readMarked at h
  dsimp only at h
  split at h
  · next hempty =>
    cases h
    rw [hdigits, List.isEmpty_iff] at hempty
    rw [hrest, hend, List.append_nil]
    exact .radix hmark (all_eq_of_withoutGaps hempty)
  split at h
  · cases h
  · rw [finish_of_end (eq_of_finish_eq_error h ▸ hend)] at h
    cases h

/-- A numeral that fails at the end of the text wants a digit. -/
theorem cutShort_of_end (hfirst : Starts first c) (h : read c first = .error x d)
    (hend : d.rest = []) : CutShort (first :: c.rest) := by
  unfold read at h
  split at h
  · next hzero =>
    obtain rfl := eq_of_beq hzero
    split at h
    · next ch hpeek =>
      have hrest := (Moves.skip hpeek).rest
      split at h
      · next radix mark hmark =>
        rw [hrest]
        exact cutShort_of_readMarked (by rw [hmark]; rfl) h hend
      · split at h
        · exact cutShort_of_readZeroLed h hend
        · exact cutShort_of_readDecimal hfirst h hend
    · exact cutShort_of_readDecimal hfirst h hend
  · exact cutShort_of_readDecimal hfirst h hend

/-! ## Before the end of the text -/

theorem rest_ne_of_reaches (h : c.Reaches d) (hd : d.rest ≠ []) : c.rest ≠ [] := by
  rintro hc
  have := h.length_le
  rw [hc, List.length_nil, Nat.le_zero, List.length_eq_zero_iff] at this
  exact hd this

theorem samePart_spanDigits (h : c.SamePlace l t c') {digit : Char → Bool}
    (hrest : (spanDigits c digit).2.rest ≠ []) :
    SamePart l t (spanDigits c digit) (spanDigits c' digit) := by
  obtain ⟨htaken, hd⟩ := h.span_of_rest hrest
  exact ⟨congrArg withoutGaps htaken, hd⟩

theorem samePart_spanFraction (h : c.SamePlace l t c') (hrest : (spanFraction c).2.rest ≠ []) :
    SamePart l t (spanFraction c) (spanFraction c') := by
  have hc := rest_ne_of_reaches (reaches_spanFraction c) hrest
  have hskip := h.skipIf?_of_peek? '.' (by rw [h.peek? hc])
  unfold spanFraction at hrest ⊢
  generalize c.skipIf? '.' = found at hskip hrest ⊢
  generalize c'.skipIf? '.' = found' at hskip ⊢
  cases hskip with
  | none => exact ⟨rfl, h⟩
  | some hd =>
    obtain ⟨hdigits, he⟩ := samePart_spanDigits hd hrest
    exact ⟨congrArg ('.' :: ·) hdigits, he⟩

theorem reaches_spanSign (c : Cursor) : c.Reaches (spanSign c).2 := by
  unfold spanSign
  split
  · split
    · exact .skip c
    · exact .refl c
  · exact .refl c

theorem samePart_spanSign (h : c.SamePlace l t c') (hrest : (spanSign c).2.rest ≠ []) :
    SamePart l t (spanSign c) (spanSign c') := by
  have hc := rest_ne_of_reaches (reaches_spanSign c) hrest
  unfold spanSign
  rw [h.peek? hc]
  split
  · split
    · exact ⟨rfl, h.skip hc⟩
    · exact ⟨rfl, h⟩
  · exact ⟨rfl, h⟩

theorem samePart_spanExponent (h : c.SamePlace l t c') (hrest : (spanExponent c).2.rest ≠ []) :
    SamePart l t (spanExponent c) (spanExponent c') := by
  have hc := rest_ne_of_reaches (reaches_spanExponent c) hrest
  rw [spanExponent_eq_spanSign] at hrest ⊢
  rw [spanExponent_eq_spanSign, h.peek? hc]
  split
  · next letter hpeek =>
    rw [hpeek] at hrest
    dsimp only at hrest
    split
    · next hletter =>
      rw [if_pos hletter] at hrest
      have hsign' := rest_ne_of_reaches (reaches_spanDigits _ _) hrest
      obtain ⟨hsign, hd⟩ := samePart_spanSign (h.skip hc) hsign'
      obtain ⟨hdigits, he⟩ := samePart_spanDigits hd hrest
      exact ⟨by rw [hsign, hdigits], he⟩
    · exact ⟨rfl, h⟩
  · exact ⟨rfl, h⟩

theorem samePart_spanMantissa (h : c.SamePlace l t c') (first : Char)
    (hrest : (spanMantissa c first).2.rest ≠ []) :
    SamePart l t (spanMantissa c first) (spanMantissa c' first) := by
  unfold spanMantissa at hrest ⊢
  dsimp only at hrest ⊢
  by_cases hpoint : (first == '.') = true
  · rw [if_pos hpoint] at hrest ⊢
    rw [if_pos hpoint]
    obtain ⟨hdigits, hd⟩ := samePart_spanDigits h hrest
    exact ⟨by rw [hdigits], hd⟩
  · rw [if_neg hpoint] at hrest ⊢
    rw [if_neg hpoint]
    obtain ⟨hdigits, hd⟩ := samePart_spanDigits h (rest_ne_of_reaches (reaches_spanFraction _) hrest)
    obtain ⟨hfraction, he⟩ := samePart_spanFraction hd hrest
    exact ⟨by rw [hdigits, hfraction], he⟩

/-- What stands behind a literal is the same in the longer text. -/
theorem exists_finish_eq_error (h : c.SamePlace l t c') {result result' : Result Token}
    (herror : finish c result = .error x d) (hc : c.rest ≠ [])
    (hresult : result = .error x d → ∃ d', result' = .error x d') :
    ∃ d', finish c' result' = .error x d' := by
  unfold finish at herror ⊢
  rw [h.peek? hc]
  split
  · next ch hpeek =>
    rw [hpeek] at herror
    dsimp only at herror
    split
    · next hword =>
      rw [if_pos hword] at herror
      cases herror
      exact ⟨c', rfl⟩
    · next hword =>
      rw [if_neg hword] at herror
      exact hresult herror
  · next hpeek =>
    rw [hpeek] at herror
    exact hresult herror

theorem exists_finishDecimal_eq_error (h : c.SamePlace l t c') {cs : List Char}
    (herror : finishDecimal c cs = .error x d) (hd : d.rest ≠ []) :
    ∃ d', finishDecimal c' cs = .error x d' := by
  obtain rfl := eq_of_finishDecimal_eq_error herror
  refine exists_finish_eq_error h herror hd fun hresult => ?_
  split at hresult
  · cases hresult
  · cases hresult
    exact ⟨c', rfl⟩

/-- The decimal literal fails in the longer text too. -/
theorem exists_of_finishDecimal (h : c.SamePlace l t c') (first : Char)
    (herror : finishDecimal (spanExponent (spanMantissa c first).2).2
      ((spanMantissa c first).1 ++ (spanExponent (spanMantissa c first).2).1) = .error x d)
    (hd : d.rest ≠ []) :
    (spanExponent (spanMantissa c first).2).2.SamePlace l t (spanExponent (spanMantissa c' first).2).2 ∧
      ∃ d', finishDecimal (spanExponent (spanMantissa c' first).2).2
        ((spanMantissa c' first).1 ++ (spanExponent (spanMantissa c' first).2).1) = .error x d' := by
  -- Something is left behind each part, so that the longer text has no more of it.
  have hexponent : (spanExponent (spanMantissa c first).2).2.rest ≠ [] :=
    eq_of_finishDecimal_eq_error herror ▸ hd
  obtain ⟨hchars, hmantissa⟩ := samePart_spanMantissa h first
    (rest_ne_of_reaches (reaches_spanExponent _) hexponent)
  obtain ⟨hchars', hsame⟩ := samePart_spanExponent hmantissa hexponent
  refine ⟨hsame, ?_⟩
  rw [hchars, hchars']
  exact exists_finishDecimal_eq_error hsame herror hd

theorem exists_readDecimal_eq_error (h : c.SamePlace l t c')
    (herror : readDecimal c first = .error x d) (hd : d.rest ≠ []) :
    ∃ d', readDecimal c' first = .error x d' := by
  rw [readDecimal_eq] at herror
  split at herror
  · cases herror
  · next hsuffix =>
    obtain ⟨hsame, hfinish⟩ := exists_of_finishDecimal h first herror hd
    have hrest : (spanExponent (spanMantissa c first).2).2.rest ≠ [] :=
      eq_of_finishDecimal_eq_error herror ▸ hd
    have hskip := hsame.skipIf?_of_peek? 'n' (by rw [hsame.peek? hrest])
    rw [hsuffix] at hskip
    rw [readDecimal_eq]
    generalize Cursor.skipIf? _ 'n' = found at hskip
    cases hskip
    exact hfinish

theorem exists_readZeroLed_eq_error (h : c.SamePlace l t c') (herror : readZeroLed c = .error x d)
    (hd : d.rest ≠ []) : ∃ d', readZeroLed c' = .error x d' := by
  have hreach := reaches_spanFraction (spanDigits c isDecimalDigit).2
  rw [readZeroLed_eq] at herror
  -- Something is left behind the digits, so that the longer text has no more of them.
  have hdigits : (spanDigits c isDecimalDigit).2.rest ≠ [] := by
    split at herror
    · exact eq_of_finish_eq_error herror ▸ hd
    · exact rest_ne_of_reaches (hreach.trans (reaches_spanExponent _))
        (eq_of_finishDecimal_eq_error herror ▸ hd)
  obtain ⟨hchars, hsame⟩ := samePart_spanDigits h hdigits
  have hoctal : isOctal c' = isOctal c := by
    unfold isOctal
    rw [hchars, hsame.peek? hdigits]
  rw [readZeroLed_eq, hoctal]
  split
  · next hc =>
    rw [if_pos hc] at herror
    refine exists_finish_eq_error hsame herror hdigits fun hresult => ?_
    cases hresult
  · next hc =>
    rw [if_neg hc] at herror
    exact (exists_of_finishDecimal h '0' herror hd).2

theorem exists_readMarked_eq_error {radix : Nat} {mark : String} (h : c.SamePlace l t c')
    (herror : readMarked c radix mark = .error x d) (hd : d.rest ≠ []) :
    ∃ d', readMarked c' radix mark = .error x d' := by
  unfold readMarked at herror
  dsimp only at herror
  -- A failing literal stops behind its digits.
  have hdigits : (spanDigits c fun ch => (digitValue? radix ch).isSome).2.rest ≠ [] := by
    split at herror
    · cases herror
      exact hd
    split at herror
    · cases herror
    · exact eq_of_finish_eq_error herror ▸ hd
  obtain ⟨hchars, hsame⟩ := samePart_spanDigits h hdigits
  unfold readMarked
  dsimp only
  rw [hchars]
  split
  · next hempty =>
    rw [if_pos hempty] at herror
    cases herror
    exact ⟨_, rfl⟩
  · next hempty =>
    rw [if_neg hempty] at herror
    have hskip := hsame.skipIf?_of_peek? 'n' (by rw [hsame.peek? hdigits])
    generalize Cursor.skipIf? (spanDigits c _).2 'n' = found at hskip herror
    generalize Cursor.skipIf? _ 'n' = found' at hskip ⊢
    cases hskip with
    | none =>
      refine exists_finish_eq_error hsame herror hdigits fun hresult => ?_
      cases hresult
    | some => cases herror

/-- A numeral that fails before the end of the text fails in the longer text too. -/
theorem exists_read_eq_error (h : c.SamePlace l t c') (herror : read c first = .error x d)
    (hd : d.rest ≠ []) : ∃ d', read c' first = .error x d' := by
  have hc : c.rest ≠ [] :=
    rest_ne_of_reaches (Result.reaches_of_error (reaches_read c first) herror) hd
  unfold read at herror ⊢
  split
  · next hzero =>
    rw [if_pos hzero] at herror
    rw [h.peek? hc]
    split at herror
    · next ch hpeek =>
      split at herror
      · exact exists_readMarked_eq_error (h.skip hc) herror hd
      · split
        · next hdigit =>
          rw [if_pos hdigit] at herror
          exact exists_readZeroLed_eq_error h herror hd
        · next hdigit =>
          rw [if_neg hdigit] at herror
          exact exists_readDecimal_eq_error h herror hd
    · exact exists_readDecimal_eq_error h herror hd
  · next hzero =>
    rw [if_neg hzero] at herror
    exact exists_readDecimal_eq_error h herror hd

/-- A numeral that fails, and does not fail in a longer text, wants a digit. -/
theorem cutShort_of_read (h : c.SamePlace l t c') (hfirst : Starts first c)
    (herror : read c first = .error x d) (hok : read c' first = .ok token d') :
    CutShort (first :: c.rest) := by
  by_cases hend : d.rest = []
  · exact cutShort_of_end hfirst herror hend
  · obtain ⟨d'', herror'⟩ := exists_read_eq_error h herror hend
    rw [herror'] at hok
    cases hok

/-! ## With a digit behind it -/

section Completed

variable {rest mantissa : List Char}

/-- Digits end before what is neither a digit nor an underscore. -/
theorem spanDigits_cut {digit : Char → Bool} {taken : List Char}
    (hall : taken.all (fun ch => digit ch || ch == '_') = true)
    (hch : (digit ch || ch == '_') = false) (hrest : c.rest = taken ++ ch :: rest) :
    (spanDigits c digit).1 = withoutGaps taken ∧ (spanDigits c digit).2.rest = ch :: rest := by
  obtain ⟨htake, hdrop⟩ :=
    Text.cut_append_cons (p := fun ch => digit ch || ch == '_') hch taken rest
  have hall := List.all_eq_true.mp hall
  unfold spanDigits Cursor.span
  dsimp only
  rw [hrest, htake, hdrop, List.takeWhile_eq_self_iff.mpr hall, List.dropWhile_eq_nil_iff.mpr hall]
  exact ⟨rfl, rfl⟩

theorem spanDigits_all (digit : Char → Bool)
    (hall : c.rest.all (fun ch => digit ch || ch == '_') = true) :
    (spanDigits c digit).1 = withoutGaps c.rest ∧ (spanDigits c digit).2.rest = [] := by
  have hall := List.all_eq_true.mp hall
  unfold spanDigits Cursor.span
  dsimp only
  rw [List.takeWhile_eq_self_iff.mpr hall, List.dropWhile_eq_nil_iff.mpr hall]
  exact ⟨rfl, rfl⟩

theorem withoutGaps_of_gap (hgap : gap.all (· == '_') = true) : withoutGaps gap = [] :=
  List.filter_eq_nil_iff.mpr fun ch hch => by simpa using List.all_eq_true.mp hgap ch hch

/-- Underscores with a digit behind them are the digit. -/
theorem withoutGaps_gap_zero (hgap : gap.all (· == '_') = true) :
    withoutGaps (gap ++ ['0']) = ['0'] := by
  rw [withoutGaps_append, withoutGaps_of_gap hgap]
  rfl

theorem all_gap_zero {digit : Char → Bool} (hzero : digit '0' = true)
    (hgap : gap.all (· == '_') = true) :
    (gap ++ ['0']).all (fun ch => digit ch || ch == '_') = true := by
  rw [List.all_append, Bool.and_eq_true]
  refine ⟨List.all_eq_true.mpr fun ch hch => ?_, ?_⟩
  · rw [List.all_eq_true.mp hgap ch hch, Bool.or_true]
  · rw [List.all_cons, hzero]
    rfl

theorem exists_readMarked_eq_ok {radix : Nat} (mark : String)
    (hradix : (digitValue? radix '0').isSome = true) (hgap : gap.all (· == '_') = true)
    (hrest : c.rest = gap ++ ['0']) : ∃ token d, readMarked c radix mark = .ok token d := by
  obtain ⟨hdigits, hend⟩ := spanDigits_all (fun ch => (digitValue? radix ch).isSome)
    (hrest ▸ all_gap_zero hradix hgap)
  rw [hrest, withoutGaps_gap_zero hgap] at hdigits
  unfold readMarked
  dsimp only
  rw [hdigits, if_neg (by decide)]
  split
  · exact ⟨_, _, rfl⟩
  · rw [finish_of_end hend]
    exact ⟨_, _, rfl⟩

/-- The letter of an exponent ends the digits before it. -/
theorem isDigitOrGap_of_letter (hletter : (letter == 'e' || letter == 'E') = true) :
    isDigitOrGap letter = false := by
  rcases Bool.or_eq_true_iff.mp hletter with h | h <;> obtain rfl := eq_of_beq h <;> decide

theorem spanMantissa_of_isMantissa (h : IsMantissa mantissa)
    (hletter : (letter == 'e' || letter == 'E') = true)
    (hrest : first :: c.rest = mantissa ++ letter :: rest) :
    (spanMantissa c first).1 = withoutGaps mantissa ∧
      (spanMantissa c first).2.rest = letter :: rest := by
  have hclass := isDigitOrGap_of_letter hletter
  have hne (hfirst : isDecimalDigit first = true) : ¬(first == '.') = true := by
    intro heq
    obtain rfl := eq_of_beq heq
    exact absurd hfirst (by decide)
  unfold spanMantissa
  cases h with
  | @whole _ whole hfirst hwhole =>
    obtain ⟨rfl, hbehind⟩ := List.cons.inj hrest
    obtain ⟨hdigits, hd⟩ := spanDigits_cut hwhole hclass hbehind
    have hpoint : (spanDigits c isDecimalDigit).2.skipIf? '.' = none := by
      rw [Cursor.skipIf?, peek?_of_rest hd, if_neg]
      rintro heq
      obtain rfl := Option.some.inj (eq_of_beq heq)
      exact absurd hletter (by decide)
    dsimp only
    rw [if_neg (hne hfirst), spanFraction, hpoint, hdigits, List.append_nil,
      withoutGaps_cons (ne_gap_of_isDecimalDigit hfirst)]
    exact ⟨rfl, hd⟩
  | @point _ whole fraction hfirst hwhole hfraction =>
    rw [List.cons_append, List.append_assoc, List.cons_append] at hrest
    obtain ⟨rfl, hbehind⟩ := List.cons.inj hrest
    obtain ⟨hdigits, hd⟩ := spanDigits_cut hwhole (show isDigitOrGap '.' = false by decide) hbehind
    obtain ⟨hskip, hskipped⟩ := skipIf?_of_rest hd
    obtain ⟨hdigits', he⟩ := spanDigits_cut hfraction hclass hskipped
    dsimp only
    rw [if_neg (hne hfirst), spanFraction, hskip, hdigits]
    dsimp only
    rw [hdigits', withoutGaps_cons (ne_gap_of_isDecimalDigit hfirst), withoutGaps_append,
      withoutGaps_cons (by decide)]
    exact ⟨rfl, he⟩
  | @fraction digit fraction hfirst hfraction =>
    rw [List.cons_append] at hrest
    obtain ⟨rfl, hbehind⟩ := List.cons.inj hrest
    have hall : (digit :: fraction).all isDigitOrGap = true := by
      rw [List.all_cons, hfraction, isDigitOrGap, hfirst]
      rfl
    obtain ⟨hdigits, hd⟩ := spanDigits_cut hall hclass hbehind
    dsimp only
    rw [if_pos (by decide), hdigits, List.append_nil, withoutGaps_cons (show '.' ≠ '_' by decide)]
    exact ⟨rfl, hd⟩

theorem spanExponent_of_digit (hletter : (letter == 'e' || letter == 'E') = true)
    (hsign : sign ∈ [[], ['+'], ['-']]) (hgap : gap.all (· == '_') = true)
    (hrest : c.rest = letter :: (sign ++ (gap ++ ['0']))) :
    (spanExponent c).1 = letter :: (sign ++ ['0']) ∧ (spanExponent c).2.rest = [] := by
  have hskip := rest_skip hrest
  have hspan : (spanSign c.skip).1 = sign ∧ (spanSign c.skip).2.rest = gap ++ ['0'] := by
    simp only [List.mem_cons, List.not_mem_nil, or_false] at hsign
    unfold spanSign
    rcases hsign with rfl | rfl | rfl
    · -- What stands there instead of a sign is an underscore or the digit.
      cases gap with
      | nil =>
        rw [peek?_of_rest hskip]
        exact ⟨rfl, hskip⟩
      | cons ch gap =>
        obtain rfl := eq_of_beq (Bool.and_eq_true_iff.mp hgap).1
        rw [peek?_of_rest hskip]
        exact ⟨rfl, hskip⟩
    · rw [peek?_of_rest hskip]
      exact ⟨rfl, rest_skip hskip⟩
    · rw [peek?_of_rest hskip]
      exact ⟨rfl, rest_skip hskip⟩
  obtain ⟨hdigits, hend⟩ := spanDigits_all (c := (spanSign c.skip).2) isDecimalDigit
    (hspan.2 ▸ all_gap_zero (by decide) hgap)
  rw [hspan.2, withoutGaps_gap_zero hgap] at hdigits
  rw [spanExponent_eq_spanSign, peek?_of_rest hrest]
  dsimp only
  rw [if_pos hletter, hspan.1, hdigits]
  exact ⟨rfl, hend⟩

/-- Behind the digits with which a mantissa begins there is a point or the letter of an exponent. -/
theorem exists_spanDigits_of_isMantissa (h : IsMantissa mantissa)
    (hfirst : isDecimalDigit first = true) (hletter : (letter == 'e' || letter == 'E') = true)
    (hrest : first :: c.rest = mantissa ++ letter :: rest) :
    ∃ whole ch behind, whole.all isDigitOrGap = true ∧
      (ch == '.' || ch == 'e' || ch == 'E') = true ∧ c.rest = whole ++ ch :: behind ∧
      (spanDigits c isDecimalDigit).2.rest = ch :: behind := by
  cases h with
  | @whole _ whole _ hwhole =>
    obtain ⟨rfl, hbehind⟩ := List.cons.inj hrest
    refine ⟨whole, letter, rest, hwhole, ?_, hbehind, ?_⟩
    · rw [Bool.or_assoc, hletter, Bool.or_true]
    · exact (spanDigits_cut hwhole (isDigitOrGap_of_letter hletter) hbehind).2
  | @point _ whole fraction _ hwhole _ =>
    rw [List.cons_append, List.append_assoc, List.cons_append] at hrest
    obtain ⟨rfl, hbehind⟩ := List.cons.inj hrest
    exact ⟨whole, '.', _, hwhole, by decide, hbehind,
      (spanDigits_cut hwhole (show isDigitOrGap '.' = false by decide) hbehind).2⟩
  | fraction =>
    obtain ⟨rfl, -⟩ := List.cons.inj hrest
    exact absurd hfirst (by decide)

theorem markOf?_eq_none (hch : isDigitOrGap ch = true ∨ (ch == '.' || ch == 'e' || ch == 'E') = true) :
    markOf? ch = none := by
  unfold markOf?
  split
  · next h =>
    rcases Bool.or_eq_true_iff.mp h with h | h <;> obtain rfl := eq_of_beq h <;>
      exact absurd hch (by decide)
  split
  · next h =>
    rcases Bool.or_eq_true_iff.mp h with h | h <;> obtain rfl := eq_of_beq h <;>
      exact absurd hch (by decide)
  split
  · next h =>
    rcases Bool.or_eq_true_iff.mp h with h | h <;> obtain rfl := eq_of_beq h <;>
      exact absurd hch (by decide)
  · rfl

/-- With a digit an exponent is complete. -/
theorem exists_finishDecimal_eq_ok (h : IsMantissa mantissa)
    (hletter : (letter == 'e' || letter == 'E') = true) (hsign : sign ∈ [[], ['+'], ['-']])
    (hgap : gap.all (· == '_') = true)
    (hrest : first :: c.rest = mantissa ++ letter :: (sign ++ (gap ++ ['0']))) :
    (spanExponent (spanMantissa c first).2).2.rest = [] ∧
      ∃ token d, finishDecimal (spanExponent (spanMantissa c first).2).2
        ((spanMantissa c first).1 ++ (spanExponent (spanMantissa c first).2).1) = .ok token d := by
  obtain ⟨hchars, hmantissa⟩ := spanMantissa_of_isMantissa h hletter hrest
  obtain ⟨hchars', hend⟩ := spanExponent_of_digit hletter hsign hgap hmantissa
  have hsome := h.isSome_readNumeral?
    (.inr ⟨letter, sign, ['0'], rfl, hletter, hsign, List.cons_ne_nil _ _, by decide⟩)
  obtain ⟨value, hvalue⟩ := Option.isSome_iff_exists.mp hsome
  refine ⟨hend, .numeric value, (spanExponent (spanMantissa c first).2).2, ?_⟩
  rw [finishDecimal, finish_of_end hend, hchars, hchars', hvalue]

/-- A numeral that wants a digit begins as one. -/
theorem CutShort.exists_cons (h : CutShort text) : ∃ first behind, text = first :: behind ∧
    ∀ {c : Cursor}, c.rest = behind ++ ['0'] → Starts first c := by
  cases h with
  | radix => exact ⟨'0', _, rfl, fun _ => .inl (by decide)⟩
  | exponent hmantissa =>
    cases hmantissa with
    | whole hfirst => exact ⟨_, _, rfl, fun _ => .inl hfirst⟩
    | point hfirst => exact ⟨_, _, rfl, fun _ => .inl hfirst⟩
    | fraction hfirst =>
      refine ⟨'.', _, rfl, fun {c} hrest => .inr ⟨rfl, ?_⟩⟩
      rw [peek?_of_rest hrest]
      exact hfirst

/-- A numeral that wants a digit is read with one. -/
theorem exists_read_eq_ok (h : CutShort text) (hrest : first :: c.rest = text ++ ['0']) :
    ∃ token d, read c first = .ok token d := by
  cases h with
  | @radix mark gap hmark hgap =>
    rw [List.cons_append, List.cons_append] at hrest
    obtain ⟨rfl, hbehind⟩ := List.cons.inj hrest
    obtain ⟨⟨radix, spelling⟩, hradix⟩ := Option.isSome_iff_exists.mp hmark
    have hzero : (digitValue? radix '0').isSome = true := by
      obtain ⟨letter, -, ⟨-, rfl⟩ | ⟨-, rfl⟩ | ⟨-, rfl⟩⟩ := markOf?_eq_some hradix <;> decide
    unfold read
    rw [if_pos (by decide), peek?_of_rest hbehind]
    dsimp only
    rw [hradix]
    exact exists_readMarked_eq_ok spelling hzero hgap (rest_skip hbehind)
  | @exponent mantissa sign gap letter hmantissa hletter hsign hgap =>
    rw [List.append_assoc, List.cons_append, List.append_assoc] at hrest
    obtain ⟨hend, hfinish⟩ := exists_finishDecimal_eq_ok hmantissa hletter hsign hgap hrest
    have hdecimal : ∃ token d, readDecimal c first = .ok token d := by
      rw [readDecimal_eq]
      split
      · exact ⟨_, _, rfl⟩
      · exact hfinish
    by_cases hzero : (first == '0') = true
    · obtain rfl := eq_of_beq hzero
      obtain ⟨whole, ch, behind, hwhole, hch, hcons, hdigits⟩ :=
        exists_spanDigits_of_isMantissa hmantissa (by decide) hletter hrest
      -- A point or an exponent behind the leading zero keeps it from being octal, and no mark of a
      -- radix is there.
      have hoctal : isOctal c = false := by
        rw [isOctal, peek?_of_rest hdigits, Option.any_some, hch]
        exact Bool.and_false _
      have hmark : ∀ ch ∈ c.rest.head?, markOf? ch = none := by
        rw [hcons]
        rintro ch' hch'
        cases whole with
        | nil =>
          obtain rfl := Option.some.inj hch'
          exact markOf?_eq_none (.inr hch)
        | cons ch'' whole =>
          obtain rfl := Option.some.inj hch'
          exact markOf?_eq_none (.inl (Bool.and_eq_true_iff.mp hwhole).1)
      unfold read
      rw [if_pos hzero]
      split
      · next ch' hpeek =>
        rw [hmark ch' hpeek]
        dsimp only
        split
        · rw [readZeroLed_eq, if_neg (Bool.eq_false_iff.mp hoctal)]
          exact hfinish
        · exact hdecimal
      · exact hdecimal
    · unfold read
      rw [if_neg hzero]
      exact hdecimal

end Completed

end Numeral

end EcmaEval
