import Mathlib
import EcmaEval.Integer.Text
import EcmaEval.Proofs.Syntax.Rereading

/-!
# The texts that are unbounded integers

A text is an integer if it is a numeral, with white space around it or not: digits of radix ten with
an optional sign in front of them, or digits of radix 2, 8 or 16 behind the mark of the radix, which
admit no sign.  White space alone is zero.  Digits may have underscores between and behind them,
which count for nothing; an underscore in front of them is no numeral.

## Main definitions

* `Text.Surrounds`: a text without the blanks around it
* `Integer.Denotes`: digits and the natural number that they are in a radix
* `Integer.IsNumeral`: the numerals, each with the integer that it is

## Main results

* `Integer.ofText?_iff_isNumeral`: a text is read as an integer exactly if it is a numeral of it
-/

namespace EcmaEval

open List (Forall₂)

/-! ## Blanks around a text -/

namespace Text

variable {blank : Char → Bool} {cs core : List Char}

/-- The list is `core` with blanks before and behind it; what is left begins and ends with none. -/
def Surrounds (blank : Char → Bool) (cs core : List Char) : Prop :=
  ∃ before behind, cs = before ++ core ++ behind ∧
    (∀ c ∈ before, blank c = true) ∧ (∀ c ∈ behind, blank c = true) ∧
    (∀ c ∈ core.head?, blank c = false) ∧ ∀ c ∈ core.getLast?, blank c = false

theorem dropWhile_eq_self {rest : List Char} (h : ∀ c ∈ rest.head?, blank c = false) :
    rest.dropWhile blank = rest := by
  cases rest with
  | nil => rfl
  | cons c rest => exact List.dropWhile_cons_of_neg (by simp [h c rfl])

/-- What is left of a list begins with no blank. -/
theorem exists_of_dropWhile (blank : Char → Bool) (cs : List Char) :
    ∃ before, cs = before ++ cs.dropWhile blank ∧ (∀ c ∈ before, blank c = true) ∧
      ∀ c ∈ (cs.dropWhile blank).head?, blank c = false := by
  refine ⟨cs.takeWhile blank, List.takeWhile_append_dropWhile.symm,
    fun c hc => List.mem_takeWhile_imp hc, fun c hc => ?_⟩
  have hhead := List.head?_dropWhile_not blank cs
  rw [Option.mem_def.mp hc] at hhead
  simpa using hhead

/-- Blanks are removed at both ends. -/
theorem trimBoth_eq_iff : trimBoth blank cs = core ↔ Surrounds blank cs core := by
  unfold trimBoth
  constructor
  · rintro rfl
    obtain ⟨before, hbefore, hblank, hhead⟩ := exists_of_dropWhile blank cs
    generalize cs.dropWhile blank = rest at *
    obtain ⟨behind, hbehind, hblank', hlast⟩ := exists_of_dropWhile blank rest.reverse
    generalize rest.reverse.dropWhile blank = kept at *
    obtain rfl : rest = kept.reverse ++ behind.reverse := by
      rw [← List.reverse_append, ← hbehind, List.reverse_reverse]
    refine ⟨before, behind.reverse, by rw [hbefore, List.append_assoc], hblank,
      fun c hc => hblank' c (List.mem_reverse.mp hc), fun c hc => hhead c ?_, ?_⟩
    · rw [List.head?_append, Option.mem_def.mp hc]
      rfl
    · rwa [List.getLast?_reverse]
  · rintro ⟨before, behind, rfl, hbefore, hbehind, hhead, hlast⟩
    have hfront : (core ++ behind).dropWhile blank =
        if core = [] then [] else core ++ behind := by
      cases core with
      | nil => exact List.dropWhile_eq_nil_iff.mpr hbehind
      | cons c core => exact dropWhile_eq_self fun _ hc => hhead _ hc
    rw [List.append_assoc, List.dropWhile_append_of_pos hbefore, hfront]
    split
    · next hnil => rw [hnil]; rfl
    · rw [List.reverse_append, List.dropWhile_append_of_pos (by simpa using hbehind),
        dropWhile_eq_self (by rwa [List.head?_reverse]), List.reverse_reverse]

end Text

/-! ## Digits -/

namespace Integer

open Number

variable {radix d n : Nat} {c : Char} {cs : List Char}

/-- The character is the digit of value `d`, in either case. -/
def IsDigit (radix : Nat) (c : Char) (d : Nat) : Prop :=
  d < radix ∧ (c = Nat.digitChar d ∨ c = (Nat.digitChar d).toUpper)

/-- One or more digits, with underscores anywhere behind the first one, and the number that they
denote.  The digit of the highest place comes first. -/
def Denotes (radix : Nat) (cs : List Char) (n : Nat) : Prop :=
  cs.head? ≠ some '_' ∧ ∃ digits, digits ≠ [] ∧
    Forall₂ (IsDigit radix) (cs.filter (· != '_')) digits ∧ n = Nat.ofDigits radix digits.reverse

/-- The marks of the radixes. -/
def radixMarks : List (Char × Nat) :=
  [('x', 16), ('X', 16), ('o', 8), ('O', 8), ('b', 2), ('B', 2)]

/-- A list of characters is an integer. -/
inductive IsNumeral : List Char → Int → Prop where
  /-- Nothing is zero. -/
  | empty : IsNumeral [] 0
  | unsigned {cs : List Char} {n : Nat} (h : Denotes 10 cs n) : IsNumeral cs n
  | positive {cs : List Char} {n : Nat} (h : Denotes 10 cs n) : IsNumeral ('+' :: cs) n
  | negative {cs : List Char} {n : Nat} (h : Denotes 10 cs n) : IsNumeral ('-' :: cs) (-n)
  | marked {cs : List Char} {n : Nat} {mark : Char} {radix : Nat}
    (hmark : (mark, radix) ∈ radixMarks) (h : Denotes radix cs n) : IsNumeral ('0' :: mark :: cs) n

/-- The three ranges of digits are those of the digits and of the letters of either case. -/
theorem digitValue?_sixteen_iff :
    digitValue? 16 c = some d ↔
      d < 16 ∧ (c = Nat.digitChar d ∨ c = (Nat.digitChar d).toUpper) := by
  constructor
  · intro h
    simp only [digitValue?, Option.filter_eq_some_iff, decide_eq_true_eq] at h
    obtain ⟨h, hd⟩ := h
    refine ⟨hd, ?_⟩
    have hchar {k : Nat} (hk : c.toNat = k) : c = Char.ofNat k := by rw [← hk, Char.ofNat_toNat]
    split at h
    · next hdigit =>
      have hrange := isDecimalDigit_iff.mp hdigit
      have hvalue := Option.some.inj h
      rw [hchar (k := 0x30 + d) (by omega)]
      have hten : d < 10 := by omega
      exact .inl (by clear * - hten; interval_cases d <;> rfl)
    · split at h
      · next hletter =>
        have hrange : 0x61 ≤ c.toNat := of_decide_eq_true (Bool.and_eq_true_iff.mp hletter).1
        have hvalue := Option.some.inj h
        rw [hchar (k := 0x57 + d) (by omega)]
        have hten : 10 ≤ d := by omega
        exact .inl (by clear * - hten hd; interval_cases d <;> rfl)
      · split at h
        · next hletter =>
          have hrange : 0x41 ≤ c.toNat := of_decide_eq_true (Bool.and_eq_true_iff.mp hletter).1
          have hvalue := Option.some.inj h
          rw [hchar (k := 0x37 + d) (by omega)]
          have hten : 10 ≤ d := by omega
          exact .inr (by clear * - hten hd; interval_cases d <;> rfl)
        · cases h
  · rintro ⟨hd, rfl | rfl⟩ <;> interval_cases d <;> rfl

theorem digitValue?_eq_some_iff (hradix : radix ≤ 16) :
    digitValue? radix c = some d ↔ IsDigit radix c d := by
  have hvalue : digitValue? radix c = (digitValue? 16 c).filter (· < radix) := by
    simp only [digitValue?, Option.filter_filter]
    congr
    funext d
    rw [eq_comm, Bool.and_eq_right_iff_imp, decide_eq_true_eq, decide_eq_true_eq]
    exact fun hd => hd.trans_le hradix
  rw [hvalue, Option.filter_eq_some_iff, digitValue?_sixteen_iff, decide_eq_true_eq]
  constructor
  · rintro ⟨⟨-, hc⟩, hd⟩
    exact ⟨hd, hc⟩
  · rintro ⟨hd, hc⟩
    exact ⟨⟨hd.trans_le hradix, hc⟩, hd⟩

/-- Digits are read from the number that those before them denote. -/
theorem foldlM_readDigit_eq_some_iff (hradix : radix ≤ 16) {m : Nat} :
    cs.foldlM (readDigit radix) m = some n ↔
      ∃ digits, Forall₂ (IsDigit radix) (cs.filter (· != '_')) digits ∧
        n = digits.foldl (fun n d => radix * n + d) m := by
  induction cs generalizing m with
  | nil =>
    rw [List.foldlM_nil, List.filter_nil]
    constructor
    · intro h
      exact ⟨[], .nil, (Option.some.inj h).symm⟩
    · rintro ⟨digits, hdigits, rfl⟩
      cases hdigits
      rfl
  | cons c cs ih =>
    rw [List.foldlM_cons]
    by_cases hgap : c = '_'
    · subst hgap
      exact ih
    · have hread : readDigit radix m c = (digitValue? radix c).map fun d => radix * m + d :=
        if_neg (by simpa using hgap)
      rw [hread, List.filter_cons_of_pos (by simpa using hgap)]
      constructor
      · intro h
        obtain ⟨m', hm', hrest⟩ := Option.bind_eq_some_iff.mp h
        obtain ⟨d, hd, rfl⟩ := Option.map_eq_some_iff.mp hm'
        obtain ⟨digits, hdigits, rfl⟩ := ih.mp hrest
        exact ⟨d :: digits, .cons ((digitValue?_eq_some_iff hradix).mp hd) hdigits, rfl⟩
      · rintro ⟨_, hall, rfl⟩
        obtain ⟨d, digits, hd, hdigits, rfl⟩ := List.forall₂_cons_left_iff.mp hall
        rw [(digitValue?_eq_some_iff hradix).mpr hd]
        exact ih.mpr ⟨digits, hdigits, rfl⟩

theorem foldl_eq_ofDigits (digits : List Nat) :
    digits.foldl (fun n d => radix * n + d) 0 = Nat.ofDigits radix digits.reverse := by
  rw [Nat.ofDigits_eq_foldr, List.foldr_reverse]
  congr
  funext n d
  exact Nat.add_comm _ _

theorem not_denotes_nil : ¬ Denotes radix [] n := by
  rintro ⟨-, digits, hne, hdigits, -⟩
  cases hdigits
  exact hne rfl

theorem readNat?_eq_some_iff (hradix : radix ≤ 16) :
    readNat? radix cs = some n ↔ Denotes radix cs n := by
  cases cs with
  | nil => exact ⟨nofun, fun h => (not_denotes_nil h).elim⟩
  | cons c cs =>
    by_cases hgap : c = '_'
    · subst hgap
      constructor
      · nofun
      · exact fun h => (h.1 rfl).elim
    · rw [readNat?_eq_foldlM (List.cons_ne_nil c cs) hgap, foldlM_readDigit_eq_some_iff hradix]
      simp only [foldl_eq_ofDigits]
      constructor
      · rintro ⟨digits, hdigits, hn⟩
        refine ⟨by simpa using hgap, digits, ?_, hdigits, hn⟩
        rw [List.filter_cons_of_pos (by simpa using hgap)] at hdigits
        rintro rfl
        cases hdigits
      · rintro ⟨-, digits, -, hdigits, hn⟩
        exact ⟨digits, hdigits, hn⟩

/-! ## Texts -/

theorem markedRadix?_eq_some_iff {rest : List Char} :
    markedRadix? cs = some (radix, rest) ↔
      ∃ mark, (mark, radix) ∈ radixMarks ∧ cs = '0' :: mark :: rest := by
  constructor
  · intro h
    unfold markedRadix? at h
    split at h
    · next mark rest' =>
      refine ⟨mark, ?_⟩
      split_ifs at h with hmark hmark hmark <;> cases h <;>
        rcases Bool.or_eq_true_iff.mp hmark with hmark | hmark <;> simp_all [radixMarks]
    · cases h
  · rintro ⟨mark, hmark, rfl⟩
    simp only [radixMarks, List.mem_cons, List.not_mem_nil, or_false, Prod.mk.injEq] at hmark
    rcases hmark with
      ⟨rfl, rfl⟩ | ⟨rfl, rfl⟩ | ⟨rfl, rfl⟩ | ⟨rfl, rfl⟩ | ⟨rfl, rfl⟩ | ⟨rfl, rfl⟩ <;> rfl

theorem le_of_mem_radixMarks {mark : Char} (h : (mark, radix) ∈ radixMarks) : radix ≤ 16 := by
  have hall : ∀ entry ∈ radixMarks, entry.2 ≤ 16 := by decide
  exact hall _ h

/-- A letter that is no digit spoils a numeral. -/
theorem not_denotes_of_mem (hmem : c ∈ cs) (hgap : c ≠ '_') (hnone : digitValue? 10 c = none) :
    ¬ Denotes 10 cs n := by
  intro h
  have hread := (readNat?_eq_some_iff (by decide)).mpr h
  rw [readNat?_eq_foldlM (List.ne_nil_of_mem hmem) (fun hhead => ?_),
    foldlM_readDigit_eq_none hmem hgap hnone] at hread
  · cases hread
  · exact h.1 (hhead ▸ List.head?_eq_some_head _)

theorem not_denotes_of_mark {mark : Char} {rest : List Char} (hmark : (mark, radix) ∈ radixMarks) :
    ¬ Denotes 10 ('0' :: mark :: rest) n := by
  have hall : ∀ entry ∈ radixMarks, entry.1 ≠ '_' ∧ digitValue? 10 entry.1 = none := by decide
  obtain ⟨hgap, hnone⟩ := hall _ hmark
  exact not_denotes_of_mem (List.mem_cons_of_mem _ List.mem_cons_self) hgap hnone

theorem not_denotes_of_sign {sign : Char} {rest : List Char} (hsign : sign = '-' ∨ sign = '+') :
    ¬ Denotes 10 (sign :: rest) n := by
  rcases hsign with rfl | rfl <;>
    exact not_denotes_of_mem List.mem_cons_self (by decide) (by decide)

/-- What is made of the natural number that digits denote. -/
theorem map_readNat?_eq_some_iff (hradix : radix ≤ 16) {f : Int → Int} {i : Int} :
    (do let n ← readNat? radix cs; pure (n : Int) : Option Int).map f = some i ↔
      ∃ n : Nat, Denotes radix cs n ∧ i = f n := by
  simp only [← readNat?_eq_some_iff hradix]
  cases readNat? radix cs with
  | none => simp
  | some n => simp [eq_comm]

theorem readSigned?_eq_some_iff {i : Int} :
    readSigned? cs = some i ↔ ∃ n : Nat, (Denotes 10 cs n ∧ i = n) ∨
      (∃ rest, cs = '+' :: rest ∧ Denotes 10 rest n ∧ i = n) ∨
      ∃ rest, cs = '-' :: rest ∧ Denotes 10 rest n ∧ i = -n := by
  unfold readSigned?
  split
  · next rest =>
    refine (map_readNat?_eq_some_iff (by decide)).trans (exists_congr fun n => ?_)
    simp [not_denotes_of_sign (Or.inl rfl)]
  · next rest =>
    refine (map_readNat?_eq_some_iff (by decide)).trans (exists_congr fun n => ?_)
    simp [not_denotes_of_sign (Or.inr rfl)]
  · next hminus hplus =>
    refine (map_readNat?_eq_some_iff (by decide)).trans (exists_congr fun n => ?_)
    have hminus : ∀ rest, cs ≠ '-' :: rest := hminus
    have hplus : ∀ rest, cs ≠ '+' :: rest := hplus
    simp [hminus, hplus]

/-- What is read once the white space is gone. -/
theorem ofText?_eq_some_iff (text : String) (i : Int) :
    ofText? text = some i ↔ IsNumeral (Text.trimBoth Text.isWhiteSpace text.toList) i := by
  unfold ofText?
  generalize Text.trimBoth Text.isWhiteSpace text.toList = cs
  dsimp only
  split
  · next hempty =>
    obtain rfl := List.isEmpty_iff.mp hempty
    constructor
    · intro h
      cases h
      exact .empty
    · intro h
      cases h with
      | empty => rfl
      | unsigned h => exact (not_denotes_nil h).elim
  · next hne =>
    split
    · next radix digits hmarked =>
      obtain ⟨mark, hmark, rfl⟩ := markedRadix?_eq_some_iff.mp hmarked
      refine (map_readNat?_eq_some_iff (le_of_mem_radixMarks hmark)).trans ?_
      constructor
      · rintro ⟨n, hn, rfl⟩
        exact .marked hmark hn
      · intro h
        cases h with
        | unsigned h => exact (not_denotes_of_mark hmark h).elim
        | @marked _ n _ _ hmark' h =>
          -- A mark has one radix.
          have hsame : markedRadix? ('0' :: mark :: digits) = some (_, digits) :=
            markedRadix?_eq_some_iff.mpr ⟨mark, hmark', rfl⟩
          cases hmarked.symm.trans hsame
          exact ⟨n, h, rfl⟩
    · next hunmarked =>
      rw [readSigned?_eq_some_iff]
      constructor
      · rintro ⟨n, ⟨h, rfl⟩ | ⟨rest, rfl, h, rfl⟩ | ⟨rest, rfl, h, rfl⟩⟩
        · exact .unsigned h
        · exact .positive h
        · exact .negative h
      · intro h
        cases h with
        | empty => exact (hne rfl).elim
        | @unsigned cs n h => exact ⟨n, .inl ⟨h, rfl⟩⟩
        | @positive cs n h => exact ⟨n, .inr (.inl ⟨cs, rfl, h, rfl⟩)⟩
        | @negative cs n h => exact ⟨n, .inr (.inr ⟨cs, rfl, h, rfl⟩)⟩
        | marked hmark h =>
          rw [markedRadix?_eq_some_iff.mpr ⟨_, hmark, rfl⟩] at hunmarked
          cases hunmarked

theorem denotes_toDigits (n : Nat) : Denotes 10 (Nat.toDigits 10 n) n := by
  obtain ⟨first, digits, hn⟩ := List.exists_cons_of_ne_nil (Nat.toDigits_ne_nil (n := n) (b := 10))
  have hdigit : ∀ c ∈ Nat.toDigits 10 n, isDecimalDigit c = true :=
    fun c => isDecimalDigit_of_mem_toDigits
  have hfirst := hdigit first (hn ▸ List.mem_cons_self)
  rw [← readNat?_eq_some_iff (by decide), readNat?_eq_foldlM Nat.toDigits_ne_nil ?_,
    foldlM_readDigit_of_digits hdigit, ← natOfDigits, natOfDigits_toDigits]
  simp only [hn]
  rintro rfl
  cases hfirst

theorem isNumeral_toText (i : Int) : IsNumeral (toText i).toList i := by
  match i with
  | .ofNat n =>
    rw [PlainValue.toList_toText_ofNat]
    exact .unsigned (denotes_toDigits n)
  | .negSucc n =>
    rw [PlainValue.toList_toText_negSucc]
    exact .negative (denotes_toDigits (n + 1))

/-- There is no white space in the text of an integer. -/
theorem trimBoth_toText (i : Int) :
    Text.trimBoth Text.isWhiteSpace (toText i).toList = (toText i).toList := by
  have hdigit {n : Nat} {c : Char} (hc : c ∈ Nat.toDigits 10 n) : Text.isWhiteSpace c = false := by
    have := isDecimalDigit_iff.mp (isDecimalDigit_of_mem_toDigits hc)
    exact Text.isWhiteSpace_eq_false (by omega) (by omega)
  refine Text.trimBoth_eq_self fun c hc => ?_
  match i with
  | .ofNat n => exact hdigit (PlainValue.toList_toText_ofNat n ▸ hc)
  | .negSucc n =>
    rw [PlainValue.toList_toText_negSucc] at hc
    rcases List.mem_cons.mp hc with rfl | hc
    · exact Text.isWhiteSpace_eq_false (by decide) (by decide)
    · exact hdigit hc

/-- **The texts that are integers.**  A text is read as an integer exactly if it is a numeral of it,
once the white space around it is gone.  The decimal text of an integer is one. -/
theorem ofText?_iff_isNumeral :
    (∀ text i, ofText? text = some i ↔
      ∃ core, Text.Surrounds Text.isWhiteSpace text.toList core ∧ IsNumeral core i) ∧
    ∀ i, ofText? (toText i) = some i := by
  refine ⟨fun text i => ?_, fun i => ?_⟩
  · simp only [ofText?_eq_some_iff, ← Text.trimBoth_eq_iff, exists_eq_left']
  · rw [ofText?_eq_some_iff, trimBoth_toText]
    exact isNumeral_toText i

/-- A sign stands in front of decimal digits only, and an underscore behind a digit only. -/
example : ofText? "\t-1_000 " = some (-1000) ∧ ofText? "0X1f" = some 31 ∧
    ofText? "0x-1" = none ∧ ofText? "_1" = none := by
  decide +kernel

end Integer

end EcmaEval
