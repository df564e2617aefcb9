import Mathlib
import EcmaEval.Text.Units

/-!
# Texts as code units

A text is read back from its code units.  So are the units of a string from its text, if every
surrogate stands in a pair.

## Main definitions

* `UnitString.IsPaired`: no surrogate stands alone

## Main results

* `UnitString.text_ofString`: the text of the units of a text
* `UnitString.ofString_text`: the units of the text of a string
-/

namespace EcmaEval.UnitString

/-- Every surrogate among the units is the first half or the second half of a pair. -/
inductive PairedUnits : List UInt16 → Prop where
  | nil : PairedUnits []
  | unit {u : UInt16} {rest : List UInt16} (hhigh : isHighSurrogate u = false)
    (hlow : isLowSurrogate u = false) (hrest : PairedUnits rest) : PairedUnits (u :: rest)
  | pair {high low : UInt16} {rest : List UInt16} (hhigh : isHighSurrogate high = true)
    (hlow : isLowSurrogate low = true) (hrest : PairedUnits rest) :
    PairedUnits (high :: low :: rest)

/-- No surrogate of the string stands alone. -/
def IsPaired (s : UnitString) : Prop := PairedUnits s.units.toList

/-! ### The units of a character -/

theorem isHighSurrogate_iff {u : UInt16} :
    isHighSurrogate u = true ↔ 0xD800 ≤ u.toNat ∧ u.toNat < 0xDC00 := by
  simp [isHighSurrogate]

theorem isLowSurrogate_iff {u : UInt16} :
    isLowSurrogate u = true ↔ 0xDC00 ≤ u.toNat ∧ u.toNat < 0xE000 := by
  simp [isLowSurrogate]

/-- A character of the basic plane is its own unit, and any other one a pair. -/
theorem unitsOfChar_cases (c : Char) :
    (∃ u, unitsOfChar c = [u] ∧ Char.ofNat u.toNat = c ∧ isHighSurrogate u = false ∧
      isLowSurrogate u = false) ∨
    ∃ high low, unitsOfChar c = [high, low] ∧ ofSurrogates high low = c ∧
      isHighSurrogate high = true ∧ isLowSurrogate low = true := by
  have hvalid : c.toNat < 0xD800 ∨ 0xDFFF < c.toNat ∧ c.toNat < 0x110000 := c.valid
  by_cases hbasic : c.toNat < 0x10000
  · left
    have hunit : c.toNat.toUInt16.toNat = c.toNat := UInt16.toNat_ofNat_of_lt' hbasic
    refine ⟨c.toNat.toUInt16, if_pos hbasic, ?_, ?_, ?_⟩
    · rw [hunit, Char.ofNat_toNat]
    · rw [Bool.eq_false_iff, Ne, isHighSurrogate_iff, hunit]
      omega
    · rw [Bool.eq_false_iff, Ne, isLowSurrogate_iff, hunit]
      omega
  · right
    have hhigh : ((0xD800 + (c.toNat - 0x10000) / 0x400).toUInt16).toNat =
        0xD800 + (c.toNat - 0x10000) / 0x400 := UInt16.toNat_ofNat_of_lt' (by unfold UInt16.size; omega)
    have hlow : ((0xDC00 + (c.toNat - 0x10000) % 0x400).toUInt16).toNat =
        0xDC00 + (c.toNat - 0x10000) % 0x400 := UInt16.toNat_ofNat_of_lt' (by unfold UInt16.size; omega)
    refine ⟨_, _, if_neg hbasic, ?_, ?_, ?_⟩
    · rw [ofSurrogates, hhigh, hlow]
      have hvalue : 0x10000 + (0xD800 + (c.toNat - 0x10000) / 0x400 - 0xD800) * 0x400 +
          (0xDC00 + (c.toNat - 0x10000) % 0x400 - 0xDC00) = c.toNat := by omega
      rw [hvalue, Char.ofNat_toNat]
    · rw [isHighSurrogate_iff, hhigh]
      omega
    · rw [isLowSurrogate_iff, hlow]
      omega

theorem isHighSurrogate_of_isLowSurrogate {u : UInt16} (h : isLowSurrogate u = true) :
    isHighSurrogate u = false := by
  rw [Bool.eq_false_iff, Ne, isHighSurrogate_iff]
  rw [isLowSurrogate_iff] at h
  omega

/-! ### Reading units -/

theorem decodeOnto_pair {high low : UInt16} (hhigh : isHighSurrogate high = true)
    (hlow : isLowSurrogate low = true) (seen : String) (rest : List UInt16) :
    decodeOnto seen (high :: low :: rest) = decodeOnto (seen.push (ofSurrogates high low)) rest := by
  rw [decodeOnto, hhigh, hlow]
  rfl

theorem decodeOnto_unit {u : UInt16} (hhigh : isHighSurrogate u = false)
    (hlow : isLowSurrogate u = false) (seen : String) (rest : List UInt16) :
    decodeOnto seen (u :: rest) = decodeOnto (seen.push (Char.ofNat u.toNat)) rest := by
  cases rest with
  | nil => simp [decodeOnto, hhigh, hlow]
  | cons v rest => simp [decodeOnto, hhigh, hlow]

theorem decodeOnto_unitsOfChar (c : Char) (seen : String) (rest : List UInt16) :
    decodeOnto seen (unitsOfChar c ++ rest) = decodeOnto (seen.push c) rest := by
  rcases unitsOfChar_cases c with ⟨u, hunits, hchar, hhigh, hlow⟩ | ⟨high, low, hunits, hchar,
    hhigh, hlow⟩
  · rw [hunits, List.cons_append, List.nil_append, decodeOnto_unit hhigh hlow, hchar]
  · rw [hunits, List.cons_append, List.cons_append, List.nil_append, decodeOnto_pair hhigh hlow,
      hchar]

theorem decodeOnto_flatMap (cs : List Char) (seen : String) :
    decodeOnto seen (cs.flatMap unitsOfChar) = seen ++ String.ofList cs := by
  induction cs generalizing seen with
  | nil => simp [decodeOnto]
  | cons c cs ih =>
    rw [List.flatMap_cons, decodeOnto_unitsOfChar, ih, String.ofList_cons, String.push_eq_append,
      String.append_assoc]

theorem toList_units_ofChars (cs : List Char) :
    (ofChars cs).units.toList = cs.flatMap unitsOfChar := by
  suffices hfold : ∀ units : Array UInt16,
      (cs.foldl (fun (units : Array UInt16) c => units ++ unitsOfChar c) units).toList =
        units.toList ++ cs.flatMap unitsOfChar by
    simpa [ofChars] using hfold #[]
  intro units
  induction cs generalizing units with
  | nil => simp
  | cons c cs ih => simp [ih]

/-- A text is the text of its units. -/
theorem text_ofString (s : String) : (ofString s).text = s := by
  rw [text, ofString, toList_units_ofChars, decodeOnto_flatMap, String.ofList_toList]
  simp

/-! ### Writing units -/

/-- The units of the character that a pair stands for. -/
theorem unitsOfChar_ofSurrogates {high low : UInt16} (hhigh : isHighSurrogate high = true)
    (hlow : isLowSurrogate low = true) : unitsOfChar (ofSurrogates high low) = [high, low] := by
  rw [isHighSurrogate_iff] at hhigh
  rw [isLowSurrogate_iff] at hlow
  have hvalue : (ofSurrogates high low).toNat =
      0x10000 + (high.toNat - 0xD800) * 0x400 + (low.toNat - 0xDC00) :=
    (Char.toNat_ofNat _).trans (if_pos (.inr ⟨by omega, by omega⟩))
  unfold unitsOfChar
  rw [hvalue]
  dsimp only
  rw [if_neg (by omega)]
  have hfirst : 0xD800 + (0x10000 + (high.toNat - 0xD800) * 0x400 + (low.toNat - 0xDC00) -
      0x10000) / 0x400 = high.toNat := by omega
  have hsecond : 0xDC00 + (0x10000 + (high.toNat - 0xD800) * 0x400 + (low.toNat - 0xDC00) -
      0x10000) % 0x400 = low.toNat := by omega
  rw [hfirst, hsecond]
  simp

/-- The unit of a character of the basic plane. -/
theorem unitsOfChar_ofNat {u : UInt16} (hhigh : isHighSurrogate u = false)
    (hlow : isLowSurrogate u = false) : unitsOfChar (Char.ofNat u.toNat) = [u] := by
  rw [Bool.eq_false_iff, Ne, isHighSurrogate_iff] at hhigh
  rw [Bool.eq_false_iff, Ne, isLowSurrogate_iff] at hlow
  have hunit := u.toNat_lt
  have hvalue : (Char.ofNat u.toNat).toNat = u.toNat :=
    (Char.toNat_ofNat _).trans (if_pos (by unfold Nat.isValidChar; omega))
  unfold unitsOfChar
  rw [hvalue]
  dsimp only
  rw [if_pos (by omega)]
  simp

theorem PairedUnits.exists_chars {units : List UInt16} (h : PairedUnits units) :
    ∃ cs : List Char, cs.flatMap unitsOfChar = units := by
  induction h with
  | nil => exact ⟨[], rfl⟩
  | @unit u rest hhigh hlow _ ih =>
    obtain ⟨cs, rfl⟩ := ih
    exact ⟨Char.ofNat u.toNat :: cs, by
      rw [List.flatMap_cons, unitsOfChar_ofNat hhigh hlow, List.singleton_append]⟩
  | @pair high low rest hhigh hlow _ ih =>
    obtain ⟨cs, rfl⟩ := ih
    exact ⟨ofSurrogates high low :: cs, by
      rw [List.flatMap_cons, unitsOfChar_ofSurrogates hhigh hlow]
      rfl⟩

theorem pairedUnits_flatMap (cs : List Char) : PairedUnits (cs.flatMap unitsOfChar) := by
  induction cs with
  | nil => exact .nil
  | cons c cs ih =>
    rw [List.flatMap_cons]
    rcases unitsOfChar_cases c with ⟨u, hunits, -, hhigh, hlow⟩ | ⟨high, low, hunits, -, hhigh,
      hlow⟩
    · rw [hunits]
      exact .unit hhigh hlow ih
    · rw [hunits]
      exact .pair hhigh hlow ih

/-- The strings without a surrogate that stands alone are those of texts. -/
theorem isPaired_iff {s : UnitString} : s.IsPaired ↔ ∃ text, ofString text = s := by
  constructor
  · intro h
    obtain ⟨cs, hcs⟩ := PairedUnits.exists_chars h
    refine ⟨String.ofList cs, ?_⟩
    rw [ofString, String.toList_ofList]
    have htoList : (ofChars cs).units.toList = s.units.toList := by rw [toList_units_ofChars, hcs]
    obtain ⟨units⟩ := s
    exact congrArg UnitString.mk (Array.toList_inj.mp htoList)
  · rintro ⟨text, rfl⟩
    rw [IsPaired, ofString, toList_units_ofChars]
    exact pairedUnits_flatMap _

/-- A string without a surrogate that stands alone has the units of its text. -/
theorem ofString_text {s : UnitString} (h : s.IsPaired) : ofString s.text = s := by
  obtain ⟨text, rfl⟩ := isPaired_iff.mp h
  rw [text_ofString]

end EcmaEval.UnitString
