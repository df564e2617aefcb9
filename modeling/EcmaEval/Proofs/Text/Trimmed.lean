import Mathlib
import EcmaEval.Library.Call
import EcmaEval.Proofs.Integer.Numeral
import EcmaEval.Proofs.Text.SplitJoin
import EcmaEval.Proofs.Token.CutNumeral

/-!
# The numbers of trimmed strings

A string is trimmed by its code units, and converted to a number by the characters of its text.  Each
has a class of blanks of its own.  Trimming removes the byte order mark, which no conversion passes;
a conversion passes the next-line control, which trimming keeps; all other blanks are the same.  So a
string is the number that it is when it is trimmed, unless a byte order mark is among what is removed.
Then it is no number, whatever the rest of it is.

## Main definitions

* `UnitString.TrimsTo`: a string without the blanks around it
* `Engine.CountSame`: two strings that are the same numbers

## Main results

* `UnitString.isWhiteSpace_charOfUnit`: how the two classes of blanks differ
* `Number.ofText_of_stray`, `Integer.ofText?_of_stray`: a text with a character that stands in no
  numeral is no number
* `Engine.countSame_unit_iff`: which units numbers ignore
* `Engine.numbers_of_trimmed`: the numbers of a string and of the trimmed one
-/

namespace EcmaEval

/-! ## Blanks -/

namespace UnitString

/-- The unit of the byte order mark. -/
def byteOrderUnit : UInt16 := 0xFEFF

/-- The unit of the next-line control. -/
def nextLineUnit : UInt16 := 0x85

/-- The character of a unit that is no surrogate. -/
def charOfUnit (u : UInt16) : Char := Char.ofNat u.toNat

variable {u : UInt16} {front back units : List UInt16}

theorem toNat_charOfUnit (hhigh : isHighSurrogate u = false) (hlow : isLowSurrogate u = false) :
    (charOfUnit u).toNat = u.toNat := by
  rw [Bool.eq_false_iff, Ne, isHighSurrogate_iff] at hhigh
  rw [Bool.eq_false_iff, Ne, isLowSurrogate_iff] at hlow
  have hunit := u.toNat_lt
  exact (Char.toNat_ofNat _).trans (if_pos (by unfold Nat.isValidChar; omega))

/-- No surrogate is a blank. -/
theorem not_surrogate_of_isBlankUnit (h : Text.isBlankUnit u = true) :
    isHighSurrogate u = false ∧ isLowSurrogate u = false := by
  rw [Bool.eq_false_iff, Ne, isHighSurrogate_iff, Bool.eq_false_iff, Ne, isLowSurrogate_iff]
  simp only [Text.isBlankUnit, Bool.or_eq_true, Bool.and_eq_true, decide_eq_true_eq,
    beq_iff_eq] at h
  omega

/-- The white space of conversions has the next-line control, and lacks the byte order mark. -/
theorem isWhiteSpace_charOfUnit (hhigh : isHighSurrogate u = false)
    (hlow : isLowSurrogate u = false) :
    Text.isWhiteSpace (charOfUnit u) = true ↔
      (Text.isBlankUnit u = true ∧ u ≠ byteOrderUnit) ∨ u = nextLineUnit := by
  have hmark : u = byteOrderUnit ↔ u.toNat = 0xFEFF := UInt16.toNat_inj.symm
  have hline : u = nextLineUnit ↔ u.toNat = 0x85 := UInt16.toNat_inj.symm
  rw [Text.isWhiteSpace, Text.Ranges.contains_iff, toNat_charOfUnit hhigh hlow, Ne, hmark, hline]
  simp only [Text.whiteSpaceRanges, List.mem_cons, List.not_mem_nil, or_false, exists_eq_or_imp,
    exists_eq_left, Text.isBlankUnit, Bool.or_eq_true, Bool.and_eq_true, decide_eq_true_eq, beq_iff_eq]
  omega

/-! ### Reading units in parts -/

/-- What was read before stays in front. -/
theorem decodeOnto_append_left (before seen : String) (units : List UInt16) :
    decodeOnto (before ++ seen) units = before ++ decodeOnto seen units := by
  have hpush (seen : String) (c : Char) : (before ++ seen).push c = before ++ seen.push c := by
    simp only [String.push_eq_append, String.append_assoc]
  induction units using mend.induct generalizing seen with
  | case1 => rfl
  | case2 u => simp only [decodeOnto, hpush]
  | case3 u v rest hpair ih => simp only [decodeOnto, if_pos hpair, hpush, ih]
  | case4 u v rest hpair ih =>
    simp only [decodeOnto, if_neg hpair, hpush]
    split <;> exact ih _

/-- Units are read in two parts, unless the second one completes a pair. -/
theorem decodeOnto_append {back : List UInt16} (hback : ∀ u ∈ back.head?, isLowSurrogate u = false)
    (units : List UInt16) (seen : String) :
    decodeOnto seen (units ++ back) = decodeOnto (decodeOnto seen units) back := by
  induction units using mend.induct generalizing seen with
  | case1 => rfl
  | case2 u =>
    cases back with
    | nil => rfl
    | cons v back =>
      have hlow := hback v rfl
      simp only [List.singleton_append, decodeOnto, hlow, Bool.and_false, Bool.false_eq_true, if_false]
      split <;> rfl
  | case3 u v rest hpair ih =>
    simp only [List.cons_append, decodeOnto, if_pos hpair, ih]
  | case4 u v rest hpair ih =>
    simp only [List.cons_append, decodeOnto, if_neg hpair] at ih ⊢
    split <;> exact ih _

/-- Units without surrogates are read one by one. -/
theorem decodeOnto_plain (hunits : ∀ u ∈ units, isHighSurrogate u = false ∧ isLowSurrogate u = false)
    (seen : String) (rest : List UInt16) :
    decodeOnto seen (units ++ rest) = decodeOnto (seen ++ String.ofList (units.map charOfUnit)) rest := by
  induction units generalizing seen with
  | nil => simp
  | cons u units ih =>
    obtain ⟨hhigh, hlow⟩ := hunits u List.mem_cons_self
    rw [List.cons_append, decodeOnto_unit hhigh hlow, ih fun v hv => hunits v (List.mem_cons_of_mem _ hv),
      List.map_cons, String.ofList_cons, String.push_eq_append, String.append_assoc]
    rfl

/-- The text of a string with units around it that are no surrogates. -/
theorem toList_text_of_plain {s t : UnitString}
    (hs : s.units.toList = front ++ t.units.toList ++ back)
    (hfront : ∀ u ∈ front, isHighSurrogate u = false ∧ isLowSurrogate u = false)
    (hback : ∀ u ∈ back, isHighSurrogate u = false ∧ isLowSurrogate u = false) :
    s.text.toList = front.map charOfUnit ++ t.text.toList ++ back.map charOfUnit := by
  have hlow : ∀ u ∈ back.head?, isLowSurrogate u = false :=
    fun u hu => (hback u (List.mem_of_mem_head? hu)).2
  have hmiddle : decodeOnto (String.ofList (front.map charOfUnit)) t.units.toList =
      String.ofList (front.map charOfUnit) ++ t.text := by
    simpa [text] using decodeOnto_append_left (String.ofList (front.map charOfUnit)) "" t.units.toList
  have htext : s.text = String.ofList (front.map charOfUnit) ++ t.text ++
      String.ofList (back.map charOfUnit) := by
    rw [text, hs, decodeOnto_append hlow, decodeOnto_plain hfront, String.empty_append, hmiddle,
      ← List.append_nil back, decodeOnto_plain hback, List.append_nil]
    rfl
  simp [htext]

/-! ### Trimming -/

/-- The second string is the first one without the blanks around it, which are listed. -/
structure TrimsTo (s t : UnitString) (front back : List UInt16) : Prop where
  units : s.units.toList = front ++ t.units.toList ++ back
  front : ∀ u ∈ front, Text.isBlankUnit u = true
  back : ∀ u ∈ back, Text.isBlankUnit u = true
  head : ∀ u ∈ t.units.toList.head?, Text.isBlankUnit u = false
  last : ∀ u ∈ t.units.toList.getLast?, Text.isBlankUnit u = false

/-- What is left behind the blanks in front begins with none. -/
theorem isBlankUnit_of_head? (units : List UInt16)
    (hu : u ∈ (units.dropWhile Text.isBlankUnit).head?) :
    Text.isBlankUnit u = false := by
  have hhead := List.head?_dropWhile_not Text.isBlankUnit units
  rw [Option.mem_def.mp hu] at hhead
  simpa using hhead

theorem trimsTo_drop (s : UnitString) : ∃ front back,
    s.TrimsTo ((s.dropFront Text.isBlankUnit).dropBack Text.isBlankUnit) front back := by
  generalize hrest : s.units.toList.dropWhile Text.isBlankUnit = rest
  generalize hkept : rest.reverse.dropWhile Text.isBlankUnit = kept
  have hunits : ((s.dropFront Text.isBlankUnit).dropBack Text.isBlankUnit).units.toList =
      kept.reverse := by
    simp [dropFront, dropBack, hrest, hkept]
  have hbehind : rest = kept.reverse ++ (rest.reverse.takeWhile Text.isBlankUnit).reverse := by
    rw [← hkept, ← List.reverse_append, List.takeWhile_append_dropWhile, List.reverse_reverse]
  refine ⟨s.units.toList.takeWhile Text.isBlankUnit, (rest.reverse.takeWhile Text.isBlankUnit).reverse,
    ?_, fun u hu => List.mem_takeWhile_imp hu,
    fun u hu => List.mem_takeWhile_imp (List.mem_reverse.mp hu), fun u hu => ?_, fun u hu => ?_⟩
  · rw [hunits, List.append_assoc, ← hbehind, ← hrest, List.takeWhile_append_dropWhile]
  · refine isBlankUnit_of_head? s.units.toList ?_
    rw [hunits] at hu
    rw [hrest, hbehind, List.head?_append, Option.mem_def.mp hu]
    rfl
  · refine isBlankUnit_of_head? rest.reverse ?_
    rwa [hunits, List.getLast?_reverse, ← hkept] at hu

end UnitString

/-! ## Texts that are no numbers

A character that is neither ASCII nor white space stands in no numeral, so a text that has one is no
number.  The byte order mark is such a character. -/

/-- The character is beyond those of which numerals are made, and no white space. -/
def Text.IsStray (c : Char) : Prop := 0x85 ≤ c.toNat ∧ Text.isWhiteSpace c = false

namespace Text

variable {blank : Char → Bool} {c : Char} {cs front back : List Char}

theorem trimBoth_of_blanks (hfront : ∀ c ∈ front, blank c = true) (hback : ∀ c ∈ back, blank c = true)
    (cs : List Char) : trimBoth blank (front ++ cs ++ back) = trimBoth blank cs := by
  generalize hcore : trimBoth blank cs = core
  obtain ⟨before, behind, rfl, hbefore, hbehind, hhead, hlast⟩ := trimBoth_eq_iff.mp hcore
  refine trimBoth_eq_iff.mpr ⟨front ++ before, behind ++ back, by simp only [List.append_assoc],
    List.forall_mem_append.mpr ⟨hfront, hbefore⟩, List.forall_mem_append.mpr ⟨hbehind, hback⟩, hhead,
    hlast⟩

theorem mem_trimBoth (hc : blank c = false) (hmem : c ∈ cs) : c ∈ trimBoth blank cs := by
  generalize hcore : trimBoth blank cs = core
  obtain ⟨before, behind, rfl, hbefore, hbehind, -⟩ := trimBoth_eq_iff.mp hcore
  have hbefore' : c ∉ before := fun h => by simp [hbefore c h] at hc
  have hbehind' : c ∉ behind := fun h => by simp [hbehind c h] at hc
  simpa [hbefore', hbehind'] using hmem

end Text

namespace Number

variable {c : Char} {cs : List Char} {text : String}

theorem isDecimalDigit_eq_false (hc : 0x85 ≤ c.toNat) : isDecimalDigit c = false := by
  rw [Bool.eq_false_iff, Ne, isDecimalDigit_iff]
  omega

theorem digitValue?_eq_none (hc : 0x85 ≤ c.toNat) (radix : Nat) : digitValue? radix c = none := by
  rw [← Option.not_isSome_iff_eq_none]
  intro h
  have := toNat_of_digitValue? h
  omega

theorem ne_of_le_toNat {c' : Char} (hc : 0x85 ≤ c.toNat) (hc' : c'.toNat < 0x85) : c ≠ c' := by
  rintro rfl
  omega

theorem mem_of_mem_cons {c' : Char} (hc : 0x85 ≤ c.toNat) (hc' : c'.toNat < 0x85)
    (hmem : c ∈ c' :: cs) : c ∈ cs :=
  (List.mem_cons.mp hmem).resolve_left (ne_of_le_toNat hc hc')

theorem mem_splitSign (hc : 0x85 ≤ c.toNat) (hmem : c ∈ cs) : c ∈ (splitSign cs).2 := by
  unfold splitSign
  split
  · exact mem_of_mem_cons hc (by decide) hmem
  · exact mem_of_mem_cons hc (by decide) hmem
  · exact hmem

theorem mem_spanDigits (hc : 0x85 ≤ c.toNat) (hmem : c ∈ cs) : c ∈ (spanDigits cs).2 := by
  rw [← List.takeWhile_append_dropWhile (p := isDecimalDigit) (l := cs), List.mem_append] at hmem
  refine hmem.resolve_left fun htaken => ?_
  have := List.mem_takeWhile_imp htaken
  rw [isDecimalDigit_eq_false hc] at this
  cases this

theorem mem_splitPoint (hc : 0x85 ≤ c.toNat) (hmem : c ∈ cs) : c ∈ (splitPoint cs).2 := by
  unfold splitPoint
  split
  · exact mem_spanDigits hc (mem_of_mem_cons hc (by decide) hmem)
  · exact hmem

theorem readExponent?_of_mem (hc : 0x85 ≤ c.toNat) (hmem : c ∈ cs) : readExponent? cs = none := by
  cases cs with
  | nil => cases hmem
  | cons letter rest =>
    rw [readExponent?_cons]
    split
    · next hletter =>
      have hrest : c ∈ rest := by
        refine mem_of_mem_cons hc ?_ hmem
        rcases Bool.or_eq_true_iff.mp hletter with h | h <;> rw [eq_of_beq h] <;> decide
      have hdigits : (splitSign rest).2.all isDecimalDigit = false :=
        List.all_eq_false.mpr ⟨c, mem_splitSign hc hrest, by simp [isDecimalDigit_eq_false hc]⟩
      rw [hdigits, Bool.and_false]
      rfl
    · rfl

theorem readNumeral?_of_mem (hc : 0x85 ≤ c.toNat) (hmem : c ∈ cs) : readNumeral? cs = none := by
  rw [readNumeral?_eq, readExponent?_of_mem hc (mem_splitPoint hc (mem_spanDigits hc hmem))]
  split <;> rfl

theorem readSignedNumeral?_of_mem (hc : 0x85 ≤ c.toNat) (hmem : c ∈ cs) :
    readSignedNumeral? cs = none := by
  unfold readSignedNumeral?
  split
  · rw [readNumeral?_of_mem hc (mem_of_mem_cons hc (by decide) hmem)]
    rfl
  · exact readNumeral?_of_mem hc (mem_of_mem_cons hc (by decide) hmem)
  · exact readNumeral?_of_mem hc hmem

theorem readDigits?_of_mem (hc : 0x85 ≤ c.toNat) (hmem : c ∈ cs) (radix : Nat) :
    readDigits? radix cs = none := by
  have hfold : ∀ acc : Float, cs.foldlM (fun acc c => (digitValue? radix c).map fun d =>
      acc * Float.ofNat radix + Float.ofNat d) acc = none := by
    induction cs with
    | nil => cases hmem
    | cons c' cs ih =>
      intro acc
      rw [List.foldlM_cons]
      rcases List.mem_cons.mp hmem with rfl | hmem
      · rw [digitValue?_eq_none hc]
        rfl
      · cases digitValue? radix c' with
        | none => rfl
        | some d => exact ih hmem _
  unfold readDigits?
  split
  · rfl
  · exact hfold 0.0

/-- What stands behind the mark of a radix. -/
theorem mem_of_markedRadix? {radix : Nat} {digits : List Char} (hc : 0x85 ≤ c.toNat)
    (h : markedRadix? cs = some (radix, digits)) (hmem : c ∈ cs) : c ∈ digits := by
  obtain ⟨mark, hmark, rfl⟩ := Integer.markedRadix?_eq_some_iff.mp h
  have hmarks : ∀ entry ∈ Integer.radixMarks, entry.1.toNat < 0x85 := by decide
  exact mem_of_mem_cons hc (hmarks _ hmark) (mem_of_mem_cons hc (by decide) hmem)

/-- A text with a stray character is no number. -/
theorem ofText_of_stray (hc : Text.IsStray c) (hmem : c ∈ text.toList) : ofText text = nan := by
  have hcore := Text.mem_trimBoth hc.2 hmem
  obtain ⟨hc, -⟩ := hc
  unfold ofText
  generalize Text.trimBoth Text.isWhiteSpace text.toList = core at hcore
  have hne {word : String} (hword : word.toList.all (·.toNat < 0x85) = true) :
      (core == word.toList) = false := by
    rw [beq_eq_false_iff_ne]
    rintro rfl
    have := of_decide_eq_true (List.all_eq_true.mp hword c hcore)
    omega
  dsimp only
  rw [if_neg (by simp [List.ne_nil_of_mem hcore])]
  split
  · next radix digits hmarked =>
    rw [readDigits?_of_mem hc (mem_of_markedRadix? hc hmarked hcore)]
    rfl
  · rw [hne rfl, hne rfl, hne rfl, readSignedNumeral?_of_mem hc hcore]
    rfl

end Number

namespace Integer

open Number

variable {c : Char} {cs : List Char} {text : String}

theorem readNat?_of_mem (hc : 0x85 ≤ c.toNat) (hmem : c ∈ cs) (radix : Nat) :
    readNat? radix cs = none := by
  by_cases hgap : cs.head (List.ne_nil_of_mem hmem) = '_'
  · obtain ⟨first, rest, rfl⟩ := List.exists_cons_of_ne_nil (List.ne_nil_of_mem hmem)
    obtain rfl : first = '_' := hgap
    rfl
  · rw [readNat?_eq_foldlM _ hgap, foldlM_readDigit_eq_none hmem
      (ne_of_le_toNat hc (by decide)) (digitValue?_eq_none hc radix)]

theorem readSigned?_of_mem (hc : 0x85 ≤ c.toNat) (hmem : c ∈ cs) : readSigned? cs = none := by
  unfold readSigned?
  split
  · rw [readNat?_of_mem hc (mem_of_mem_cons hc (by decide) hmem)]
    rfl
  · rw [readNat?_of_mem hc (mem_of_mem_cons hc (by decide) hmem)]
    rfl
  · rw [readNat?_of_mem hc hmem]
    rfl

/-- A text with a stray character is no integer. -/
theorem ofText?_of_stray (hc : Text.IsStray c) (hmem : c ∈ text.toList) : ofText? text = none := by
  have hcore := Text.mem_trimBoth hc.2 hmem
  obtain ⟨hc, -⟩ := hc
  unfold ofText?
  generalize Text.trimBoth Text.isWhiteSpace text.toList = core at hcore
  dsimp only
  rw [if_neg (by simp [List.ne_nil_of_mem hcore])]
  split
  · next radix digits hmarked =>
    rw [readNat?_of_mem hc (mem_of_markedRadix? hc hmarked hcore)]
    rfl
  · exact readSigned?_of_mem hc hcore

end Integer

/-! ## Strings and their trimmed forms -/

namespace UnitString

variable {s t : UnitString} {front back : List UInt16} {u : UInt16}

theorem isStray_byteOrderUnit : Text.IsStray (charOfUnit byteOrderUnit) :=
  ⟨by decide, by decide⟩

/-- Numbers do not depend on the white space around them. -/
theorem numbers_of_whiteSpace (front back : List UInt16)
    (hs : s.units.toList = front ++ t.units.toList ++ back)
    (hplain : ∀ u ∈ front ++ back, isHighSurrogate u = false ∧ isLowSurrogate u = false)
    (hspace : ∀ u ∈ front ++ back, Text.isWhiteSpace (charOfUnit u) = true) :
    Number.ofText s.text = Number.ofText t.text ∧ Integer.ofText? s.text = Integer.ofText? t.text := by
  obtain ⟨hplainFront, hplainBack⟩ := List.forall_mem_append.mp hplain
  obtain ⟨hfront, hback⟩ := List.forall_mem_append.mp hspace
  have htrim : Text.trimBoth Text.isWhiteSpace s.text.toList =
      Text.trimBoth Text.isWhiteSpace t.text.toList := by
    rw [toList_text_of_plain hs hplainFront hplainBack]
    exact Text.trimBoth_of_blanks (List.forall_mem_map.mpr hfront) (List.forall_mem_map.mpr hback) _
  constructor
  · unfold Number.ofText
    rw [htrim]
  · unfold Integer.ofText?
    rw [htrim]

/-- All blanks that are trimmed are white space, except for the byte order mark. -/
theorem TrimsTo.numbers_of_not_mem (h : s.TrimsTo t front back)
    (hmark : byteOrderUnit ∉ front ++ back) :
    Number.ofText s.text = Number.ofText t.text ∧ Integer.ofText? s.text = Integer.ofText? t.text := by
  have hblank : ∀ u ∈ front ++ back, Text.isBlankUnit u = true :=
    List.forall_mem_append.mpr ⟨h.front, h.back⟩
  have hplain := fun u hu => not_surrogate_of_isBlankUnit (hblank u hu)
  exact numbers_of_whiteSpace front back h.units hplain fun u hu =>
    (isWhiteSpace_charOfUnit (hplain u hu).1 (hplain u hu).2).mpr
      (.inl ⟨hblank u hu, fun heq => hmark (heq ▸ hu)⟩)

/-- A byte order mark in front of a string or behind it spoils its numbers. -/
theorem TrimsTo.numbers_of_mem (h : s.TrimsTo t front back) (hmark : byteOrderUnit ∈ front ++ back) :
    Number.ofText s.text = Number.nan ∧ Integer.ofText? s.text = none := by
  have hmem : charOfUnit byteOrderUnit ∈ s.text.toList := by
    rw [toList_text_of_plain h.units (fun u hu => not_surrogate_of_isBlankUnit (h.front u hu))
      fun u hu => not_surrogate_of_isBlankUnit (h.back u hu)]
    rcases List.mem_append.mp hmark with hmark | hmark
    · exact List.mem_append_left _ (List.mem_append_left _ (List.mem_map_of_mem hmark))
    · exact List.mem_append_right _ (List.mem_map_of_mem hmark)
  exact ⟨Number.ofText_of_stray isStray_byteOrderUnit hmem,
    Integer.ofText?_of_stray isStray_byteOrderUnit hmem⟩

/-- The string of one unit. -/
def ofUnit (u : UInt16) : UnitString := ⟨#[u]⟩

/-- The digit one, a string that is a number. -/
def one : UnitString := ofUnit 0x31

/-- The integer reader passes an underscore, the number reader does not. -/
theorem ofText_one_underscore : Number.ofText (String.ofList ['1', '_']) = Number.nan := by
  decide +kernel

theorem ofText?_one_ascii : ∀ n < 0x85, Text.isWhiteSpace (Char.ofNat n) = false → Char.ofNat n ≠ '_' →
    Integer.ofText? (String.ofList ['1', Char.ofNat n]) ≠ some 1 := by
  decide +kernel

theorem text_one_append (u : UInt16) : (one ++ ofUnit u).text =
    String.ofList ['1', if isHighSurrogate u || isLowSurrogate u then replacement else charOfUnit u] := by
  have hunits : (one ++ ofUnit u).units.toList = [0x31, u] := rfl
  rw [text, hunits, decodeOnto_unit (by decide) (by decide), decodeOnto]
  simp only [String.push_eq_append, String.empty_append, String.ofList_cons, String.ofList_nil,
    String.append_empty]
  rfl

/-- Behind a digit, only white space leaves the numbers as they are. -/
theorem isWhiteSpace_of_numbers_one
    (hnumber : Number.ofText (one ++ ofUnit u).text = Number.ofText one.text)
    (hinteger : Integer.ofText? (one ++ ofUnit u).text = Integer.ofText? one.text) :
    isHighSurrogate u = false ∧ isLowSurrogate u = false ∧ Text.isWhiteSpace (charOfUnit u) = true := by
  by_contra hnone
  have hone : Number.ofText one.text ≠ Number.nan ∧ Integer.ofText? one.text = some 1 := by
    decide +kernel
  have hstray : ∀ c ∈ (one ++ ofUnit u).text.toList, ¬ Text.IsStray c := fun c hmem hc =>
    hone.1 (hnumber ▸ Number.ofText_of_stray hc hmem)
  have htext := text_one_append u
  by_cases hsurrogate : isHighSurrogate u || isLowSurrogate u
  · rw [if_pos hsurrogate] at htext
    exact hstray replacement (by simp [htext]) ⟨by decide, by decide⟩
  rw [if_neg hsurrogate] at htext
  obtain ⟨hhigh, hlow⟩ := Bool.or_eq_false_iff.mp (Bool.eq_false_iff.mpr hsurrogate)
  have hspace : Text.isWhiteSpace (charOfUnit u) = false :=
    Bool.eq_false_iff.mpr fun h => hnone ⟨hhigh, hlow, h⟩
  have hascii : u.toNat < 0x85 := by
    by_contra hge
    refine hstray (charOfUnit u) (by simp [htext]) ⟨?_, hspace⟩
    rw [toNat_charOfUnit hhigh hlow]
    omega
  rw [htext] at hnumber hinteger
  by_cases hgap : charOfUnit u = '_'
  · rw [hgap, ofText_one_underscore] at hnumber
    exact hone.1 hnumber.symm
  · exact ofText?_one_ascii u.toNat hascii hspace hgap (hinteger.trans hone.2)

end UnitString

namespace Engine

open EcmaEval.Action

variable {engine : Engine} {this : Value} {m : Machine} {s t : UnitString}

/-- `Number` of a string is the number that its text spells. -/
theorem callBuiltin_number (s : UnitString) :
    engine.callBuiltin (.number .construct) this [.string s] m = .ok (.number (Number.ofText s.text)) m :=
  rfl

/-- `BigInt` of a string is the integer that its text spells, or throws. -/
theorem callBuiltin_bigint (s : UnitString) :
    engine.callBuiltin (.bigint .construct) this [.string s] m =
      match Integer.ofText? s.text with
      | some n => .ok (.bigint n) m
      | none => (throwFault (.bigintFromText s.text) : Action Value) m := by
  have hcall : engine.callBuiltin (.bigint .construct) this [.string s] =
      orElseThrow (Integer.ofText? s.text) (throwFault (.bigintFromText s.text)) >>=
        fun n => (pure (.bigint n) : Action Value) := rfl
  rw [hcall]
  cases Integer.ofText? s.text with
  | some n => rfl
  | none => rw [orElseThrow, throwFault_bind]

theorem throwFault_ne_ok {α : Type} (f : Fault) (x : α) (m' : Machine) :
    (throwFault f : Action α) m ≠ .ok x m' := nofun

theorem ofText?_of_bigint {n : Int}
    (h : engine.callBuiltin (.bigint .construct) this [.string s] m = .ok (.bigint n) m) :
    Integer.ofText? s.text = some n := by
  rw [callBuiltin_bigint] at h
  split at h
  · next hread =>
    injection h with h
    injection h with h
    rw [hread, h]
  · exact absurd h (throwFault_ne_ok _ _ _)

theorem ofText?_of_throwFault {f : Fault}
    (h : engine.callBuiltin (.bigint .construct) this [.string s] m = (throwFault f : Action Value) m) :
    Integer.ofText? s.text = none := by
  rw [callBuiltin_bigint] at h
  split at h
  · exact absurd h.symm (throwFault_ne_ok _ _ _)
  · assumption

/-- Two strings are the same numbers: `Number` gives one number for both, and `BigInt` gives one
integer for both or throws for both. -/
structure CountSame (engine : Engine) (this : Value) (m : Machine) (s t : UnitString) : Prop where
  number : engine.callBuiltin (.number .construct) this [.string s] m =
    engine.callBuiltin (.number .construct) this [.string t] m
  integer :
    (∃ n, engine.callBuiltin (.bigint .construct) this [.string s] m = .ok (.bigint n) m ∧
      engine.callBuiltin (.bigint .construct) this [.string t] m = .ok (.bigint n) m) ∨
    (engine.callBuiltin (.bigint .construct) this [.string s] m =
        (throwFault (.bigintFromText s.text) : Action Value) m ∧
      engine.callBuiltin (.bigint .construct) this [.string t] m =
        (throwFault (.bigintFromText t.text) : Action Value) m)

theorem countSame_iff : engine.CountSame this m s t ↔
    Number.ofText s.text = Number.ofText t.text ∧ Integer.ofText? s.text = Integer.ofText? t.text := by
  constructor
  · rintro ⟨hnumber, hinteger⟩
    rw [callBuiltin_number, callBuiltin_number] at hnumber
    injection hnumber with hnumber
    injection hnumber with hnumber
    refine ⟨hnumber, ?_⟩
    rcases hinteger with ⟨n, hs, ht⟩ | ⟨hs, ht⟩
    · rw [ofText?_of_bigint hs, ofText?_of_bigint ht]
    · rw [ofText?_of_throwFault hs, ofText?_of_throwFault ht]
  · rintro ⟨hnumber, hinteger⟩
    refine ⟨by rw [callBuiltin_number, callBuiltin_number, hnumber], ?_⟩
    rw [callBuiltin_bigint, callBuiltin_bigint, hinteger]
    cases Integer.ofText? t.text with
    | some n => exact .inl ⟨n, rfl, rfl⟩
    | none => exact .inr ⟨rfl, rfl⟩

/-- Which units numbers ignore, wherever they stand around a string: those that are trimmed, without
the byte order mark, and the next-line control. -/
theorem countSame_unit_iff {u : UInt16} :
    (∀ t, engine.CountSame this m (.ofUnit u ++ t) t ∧ engine.CountSame this m (t ++ .ofUnit u) t) ↔
      (Text.isBlankUnit u = true ∧ u ≠ UnitString.byteOrderUnit) ∨ u = UnitString.nextLineUnit := by
  constructor
  · intro h
    obtain ⟨hnumber, hinteger⟩ := countSame_iff.mp (h .one).2
    obtain ⟨hhigh, hlow, hspace⟩ := UnitString.isWhiteSpace_of_numbers_one hnumber hinteger
    exact (UnitString.isWhiteSpace_charOfUnit hhigh hlow).mp hspace
  · intro h t
    have hplain : UnitString.isHighSurrogate u = false ∧ UnitString.isLowSurrogate u = false := by
      rcases h with h | rfl
      · exact UnitString.not_surrogate_of_isBlankUnit h.1
      · decide
    have hspace := (UnitString.isWhiteSpace_charOfUnit hplain.1 hplain.2).mpr h
    constructor
    · refine countSame_iff.mpr (UnitString.numbers_of_whiteSpace [u] [] ?_
        (by simpa using hplain) (by simpa using hspace))
      exact (Array.toList_append ..).trans (List.append_nil _).symm
    · exact countSame_iff.mpr (UnitString.numbers_of_whiteSpace [] [u]
        (Array.toList_append ..) (by simpa using hplain) (by simpa using hspace))

/-- A string is the same numbers as the trimmed one exactly if no byte order mark is trimmed from it, or
the trimmed one is no number either: with a byte order mark at one of its ends a string is no number,
though the mark is trimmed.  The units that numbers ignore are those that are trimmed, but for the byte
order mark, and the next-line control, which is not trimmed. -/
theorem numbers_of_trimmed (engine : Engine) (this : Value) (m : Machine) (s : UnitString) :
    (∃ t front back,
      engine.callBuiltin (.string (.method .trim)) (.string s) [] m = .ok (.string t) m ∧
      s.TrimsTo t front back ∧
      (engine.CountSame this m s t ↔ UnitString.byteOrderUnit ∉ front ++ back ∨
        (Number.ofText t.text = Number.nan ∧ Integer.ofText? t.text = none)) ∧
      (UnitString.byteOrderUnit ∈ front ++ back →
        engine.callBuiltin (.number .construct) this [.string s] m = .ok (.number Number.nan) m ∧
        engine.callBuiltin (.bigint .construct) this [.string s] m =
          (throwFault (.bigintFromText s.text) : Action Value) m)) ∧
    ∀ u, (∀ t, engine.CountSame this m (.ofUnit u ++ t) t ∧ engine.CountSame this m (t ++ .ofUnit u) t) ↔
      (Text.isBlankUnit u = true ∧ u ≠ UnitString.byteOrderUnit) ∨ u = UnitString.nextLineUnit := by
  refine ⟨?_, fun u => countSame_unit_iff⟩
  obtain ⟨front, back, htrims⟩ := s.trimsTo_drop
  refine ⟨_, front, back, rfl, htrims, ?_, fun hmark => ?_⟩
  · rw [countSame_iff]
    by_cases hmark : UnitString.byteOrderUnit ∈ front ++ back
    · obtain ⟨hnumber, hinteger⟩ := htrims.numbers_of_mem hmark
      rw [hnumber, hinteger, eq_comm, eq_comm (a := none)]
      exact (or_iff_right (not_not_intro hmark)).symm
    · exact iff_of_true (htrims.numbers_of_not_mem hmark) (.inl hmark)
  · obtain ⟨hnumber, hinteger⟩ := htrims.numbers_of_mem hmark
    refine ⟨by rw [callBuiltin_number, hnumber], ?_⟩
    rw [callBuiltin_bigint, hinteger]

/-- A byte order mark and a digit: trimmed the string is the digit, and untrimmed no number. -/
example : (UnitString.mk #[0xFEFF, 0x31]).dropFront Text.isBlankUnit = .one ∧
    ¬ engine.CountSame this m ⟨#[0xFEFF, 0x31]⟩ .one := by
  rw [countSame_iff]
  decide +kernel

end Engine

end EcmaEval
