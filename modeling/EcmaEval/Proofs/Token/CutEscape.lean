import EcmaEval.Proofs.Token.Name

/-!
# Escape sequences that are cut short

An escape sequence that wants hexadecimal digits fails at the end of the text, and most such failures do
not say that the text ended.  Whatever is read before the end of the text is read in a longer text too.

## Main definitions

* `Escape.CutOff`: an escape sequence that wants hexadecimal digits

## Main results

* `Escape.cutOff_of_read`: an escape sequence that only a longer text completes wants digits
* `Escape.CutOff.exists_read_eq_ok`: with digits it is complete
-/

namespace EcmaEval

open Scan Cursor

variable {l t : List Char} {c c' d d' e start : Cursor} {ch : Char} {x : LexError}
  {text more digits : List Char} {cs : List Char}

/-! ## Escape sequences -/

namespace Escape

/-- Behind its backslash the text is an escape sequence that wants hexadecimal digits. -/
inductive CutOff : List Char → Prop where
  | pair {digits : List Char} (hlength : digits.length < 2) (hdigits : digits.all isHex = true) :
    CutOff ('x' :: digits)
  | quad {digits : List Char} (hlength : digits.length < 4) (hdigits : digits.all isHex = true) :
    CutOff ('u' :: digits)

/-- Digits in braces at the end of the text want the closing one, and the failure says so. -/
theorem readBraced_of_end {value : Nat} {started : Bool} (hdigits : c.rest.all isHex = true)
    (hbound : c.rest.foldl appendDigit value ≤ 0x10FFFF)
    (h : readBraced c value started = .error x d) : x.atEnd = true := by
  fun_induction readBraced c value started with
  | case1 =>
    cases h
    rfl
  | case2 => cases h
  | case3 c value started ch e hnext _ _ hdigit =>
    rw [rest_of_next? hnext, List.all_cons, isHex, hdigit] at hdigits
    cases hdigits
  | case4 c value started ch e hnext _ _ digit hdigit hlarge =>
    rw [rest_of_next? hnext, List.foldl_cons, appendDigit_of_hexValue? hdigit] at hbound
    exact absurd (Nat.lt_of_lt_of_le hlarge (le_foldl_appendDigit _ _)) (Nat.not_lt.mpr hbound)
  | case5 c value started ch e hnext _ _ digit hdigit _ ih =>
    rw [rest_of_next? hnext, List.all_cons, Bool.and_eq_true] at hdigits
    rw [rest_of_next? hnext, List.foldl_cons, appendDigit_of_hexValue? hdigit] at hbound
    exact ih hdigits.2 hbound h

/-- A text is shorter than what it is completed to. -/
theorem exists_append_of_not_prefix {cs more text rest : List Char} (h : cs ++ more = text ++ rest)
    (hbegins : ∀ behind, cs ≠ text ++ behind) : ∃ last init, text = cs ++ (init ++ [last]) := by
  rcases List.append_eq_append_iff.mp h with ⟨behind, htext, -⟩ | ⟨behind, hcs, -⟩
  · rcases List.eq_nil_or_concat behind with rfl | ⟨init, last, rfl⟩
    · exact absurd (by rw [htext, List.append_nil, List.append_nil]) (hbegins [])
    · exact ⟨last, init, by rw [htext, List.concat_eq_append]⟩
  · exact absurd hcs (hbegins behind)

/-- A code point that fails, and does not fail in a longer text, wants hexadecimal digits. -/
theorem cutOff_of_readCodePoint (hrest : c'.rest = c.rest ++ t)
    (herror : readCodePoint c = .error x d) (hopen : x.atEnd = false)
    (hok : readCodePoint c' = .ok ch d') : c.rest.length < 4 ∧ c.rest.all isHex = true := by
  obtain ⟨text, htext, hmove⟩ := exists_of_readCodePoint hok
  -- The shorter text does not hold all of the code point, so that it is a proper front of it.
  have hbegins (behind : List Char) : c.rest ≠ text ++ behind := by
    intro hwhole
    obtain ⟨e, hread, -⟩ := exists_readCodePoint_eq_ok htext hwhole
    rw [hread] at herror
    cases herror
  obtain ⟨last, init, heq⟩ := exists_append_of_not_prefix (hrest.symm.trans hmove.rest) hbegins
  cases htext with
  | quad hlength hhex =>
    rw [heq] at hlength hhex
    rw [List.all_append, Bool.and_eq_true] at hhex
    refine ⟨?_, hhex.1⟩
    simp only [List.length_append, List.length_singleton] at hlength
    omega
  | @braced digits hne hhex hbound =>
    cases hcons : c.rest with
    | nil => exact ⟨by decide, rfl⟩
    | cons ch' front =>
      rw [hcons, List.cons_append, ← List.append_assoc] at heq
      obtain ⟨rfl, hdigits⟩ := List.cons.inj heq
      obtain ⟨rfl, -⟩ := List.append_inj' hdigits rfl
      obtain ⟨hskip, hfront⟩ := skipIf?_of_rest hcons
      rw [List.all_append, Bool.and_eq_true] at hhex
      rw [number, List.foldl_append] at hbound
      rw [readCodePoint, hskip] at herror
      have hend := readBraced_of_end (hfront ▸ hhex.1)
        (hfront ▸ Nat.le_trans (le_foldl_appendDigit init _) hbound) herror
      rw [hopen] at hend
      cases hend

/-- Only digits in hexadecimal can be missing. -/
theorem readHexPair_or_readCodePoint (hnext : c.next? = some (ch, e))
    (herror : read c = .error x d) :
    ch = 'x' ∧ readHexPair e = .error x d ∨ ch = 'u' ∧ readCodePoint e = .error x d := by
  unfold read at herror
  rw [hnext] at herror
  dsimp only at herror
  split at herror
  · cases herror
  split at herror
  · cases herror
  split at herror
  · exact absurd herror readOctal_ne_error
  split at herror
  · next hx => exact .inl ⟨eq_of_beq hx, herror⟩
  split at herror
  · next hu =>
    refine .inr ⟨eq_of_beq hu, ?_⟩
    cases hread : readCodePoint e with
    | ok ch f =>
      rw [hread] at herror
      cases herror
    | error y f =>
      rw [hread] at herror
      cases herror
      rfl
  split at herror
  · cases herror
  · cases herror

theorem read_of_x (hnext : c.next? = some ('x', e)) : read c = readHexPair e := by
  unfold read
  rw [hnext]
  rfl

theorem read_of_u (hnext : c.next? = some ('u', e)) :
    read c = (readCodePoint e).map fun c => [c] := by
  unfold read
  rw [hnext]
  rfl

theorem exists_readHexPair_eq_ok {high low : Char} {a b : Nat} {rest : List Char}
    (hhigh : hexValue? high = some a) (hlow : hexValue? low = some b)
    (hrest : c.rest = high :: low :: rest) :
    ∃ d, readHexPair c = .ok [Char.ofNat (a * 16 + b)] d ∧ d.rest = rest := by
  obtain ⟨d, hnext, hd⟩ := exists_next? hrest
  obtain ⟨e, hnext', he⟩ := exists_next? hd
  refine ⟨e, ?_, he⟩
  unfold readHexPair
  rw [hnext]
  dsimp only
  rw [hnext']
  dsimp only
  rw [hhigh, hlow]

/-- A pair of digits that fails, and does not fail in a longer text, wants hexadecimal digits. -/
theorem cutOff_of_readHexPair (hrest : c'.rest = c.rest ++ t)
    (herror : readHexPair c = .error x d) (hok : readHexPair c' = .ok cs d') :
    c.rest.length < 2 ∧ c.rest.all isHex = true := by
  obtain ⟨high, low, hmove, hhigh, hlow⟩ := exists_of_readHexPair hok
  have hbegins (behind : List Char) : c.rest ≠ [high, low] ++ behind := by
    intro hwhole
    obtain ⟨a, ha, -⟩ := exists_hexValue? hhigh
    obtain ⟨b, hb, -⟩ := exists_hexValue? hlow
    obtain ⟨e, hread, -⟩ := exists_readHexPair_eq_ok ha hb hwhole
    rw [hread] at herror
    cases herror
  obtain ⟨last, init, heq⟩ := exists_append_of_not_prefix (hrest.symm.trans hmove.rest) hbegins
  have hlength : c.rest.length < 2 := by
    have := congrArg List.length heq
    simp only [List.length_cons, List.length_append, List.length_nil] at this
    omega
  have hall : (c.rest ++ (init ++ [last])).all isHex = true := by
    rw [← heq, List.all_cons, List.all_cons, hhigh, hlow]
    rfl
  rw [List.all_append, Bool.and_eq_true] at hall
  exact ⟨hlength, hall.1⟩

/-- So does an escape sequence of a string. -/
theorem cutOff_of_read (hrest : c'.rest = c.rest ++ t) (herror : read c = .error x d)
    (hopen : x.atEnd = false) (hok : read c' = .ok cs d') : CutOff c.rest := by
  cases hcons : c.rest with
  | nil =>
    unfold read at herror
    rw [next?_of_end hcons] at herror
    cases herror
    cases hopen
  | cons ch front =>
    obtain ⟨e, hnext, he⟩ := exists_next? hcons
    rw [hcons, List.cons_append] at hrest
    obtain ⟨e', hnext', he'⟩ := exists_next? hrest
    rw [← he] at he'
    rw [← he]
    rcases readHexPair_or_readCodePoint hnext herror with ⟨rfl, herror⟩ | ⟨rfl, herror⟩
    · rw [read_of_x hnext'] at hok
      obtain ⟨hlength, hdigits⟩ := cutOff_of_readHexPair he' herror hok
      exact .pair hlength hdigits
    · rw [read_of_u hnext'] at hok
      cases hread : readCodePoint e' with
      | error y f =>
        rw [hread] at hok
        cases hok
      | ok ch f =>
        obtain ⟨hlength, hdigits⟩ := cutOff_of_readCodePoint he' herror hopen hread
        exact .quad hlength hdigits

/-- More digits make as many as are wanted. -/
theorem exists_zeros {count : Nat} (hlength : digits.length < count)
    (hdigits : digits.all isHex = true) :
    ∃ zeros, (digits ++ zeros).length = count ∧ (digits ++ zeros).all isHex = true := by
  refine ⟨List.replicate (count - digits.length) '0', ?_, ?_⟩
  · rw [List.length_append, List.length_replicate]
    omega
  · rw [List.all_append, hdigits, List.all_replicate]
    split <;> rfl

/-- An escape sequence that wants digits is read with them. -/
theorem CutOff.exists_read_eq_ok (h : CutOff text) :
    ∃ digits cs, ∀ {c : Cursor} {rest : List Char}, c.rest = text ++ (digits ++ rest) →
      ∃ d, read c = .ok cs d ∧ d.rest = rest := by
  cases h with
  | pair hlength hdigits =>
    obtain ⟨zeros, hcount, hall⟩ := exists_zeros hlength hdigits
    obtain ⟨high, low, heq⟩ := List.length_eq_two.mp hcount
    rw [heq, List.all_cons, List.all_cons, Bool.and_eq_true, Bool.and_eq_true] at hall
    obtain ⟨a, ha, -⟩ := exists_hexValue? hall.1
    obtain ⟨b, hb, -⟩ := exists_hexValue? hall.2.1
    refine ⟨zeros, [Char.ofNat (a * 16 + b)], fun {c rest} hrest => ?_⟩
    rw [List.cons_append, ← List.append_assoc, heq] at hrest
    obtain ⟨d, hnext, hd⟩ := exists_next? hrest
    rw [read_of_x hnext]
    exact exists_readHexPair_eq_ok ha hb hd
  | @quad digits hlength hdigits =>
    obtain ⟨zeros, hcount, hall⟩ := exists_zeros hlength hdigits
    refine ⟨zeros, [charOf (number (digits ++ zeros))], fun {c rest} hrest => ?_⟩
    rw [List.cons_append, ← List.append_assoc] at hrest
    obtain ⟨d, hnext, hd⟩ := exists_next? hrest
    obtain ⟨e, hread, he⟩ := exists_readCodePoint_eq_ok (.quad hcount hall) hd
    exact ⟨e, by rw [read_of_u hnext, hread]; rfl, he⟩

/-! ### Escape sequences that are read -/

theorem rest_breakLine (hrest : c'.rest = c.rest ++ t) (hne : (c.breakLine ch).rest ≠ []) :
    (c'.breakLine ch).rest = (c.breakLine ch).rest ++ t := by
  cases hcons : c.rest with
  | nil =>
    have := c.length_breakLine_le ch
    rw [hcons, List.length_nil, Nat.le_zero, List.length_eq_zero_iff] at this
    exact absurd this hne
  | cons first front =>
    have hcons' : c'.rest = first :: (front ++ t) := by rw [hrest, hcons, List.cons_append]
    unfold Cursor.breakLine Cursor.skipIf?
    rw [peek?_of_rest hcons, peek?_of_rest hcons']
    split
    · split
      · rw [Option.getD_some, Option.getD_some]
        exact (rest_skip hcons').trans (congrArg (· ++ t) (rest_skip hcons).symm)
      · exact hrest
    · exact hrest

theorem exists_readOctal_eq_ok {value count : Nat} (hrest : c'.rest = c.rest ++ t)
    (hok : readOctal c value count = .ok cs d) (hd : d.rest ≠ []) :
    ∃ d', readOctal c' value count = .ok cs d' ∧ d'.rest = d.rest ++ t := by
  induction count generalizing c c' value with
  | zero =>
    cases hok
    exact ⟨c', rfl, hrest⟩
  | succ count ih =>
    unfold readOctal at hok ⊢
    cases hcons : c.rest with
    | nil =>
      rw [peek?_eq_none hcons] at hok
      cases hok
      exact absurd hcons hd
    | cons first front =>
      have hcons' : c'.rest = first :: (front ++ t) := by rw [hrest, hcons, List.cons_append]
      rw [peek?_of_rest hcons] at hok
      rw [peek?_of_rest hcons']
      dsimp only at hok ⊢
      split
      · next hoctal =>
        rw [if_pos hoctal] at hok
        exact ih (by rw [rest_skip hcons, rest_skip hcons']) hok
      · next hoctal =>
        rw [if_neg hoctal] at hok
        cases hok
        exact ⟨c', rfl, hrest⟩

/-- What is read before the end of the text is read in the longer text too. -/
theorem exists_read_eq_ok (hrest : c'.rest = c.rest ++ t) (hok : read c = .ok cs d)
    (hd : d.rest ≠ []) : ∃ d', read c' = .ok cs d' ∧ d'.rest = d.rest ++ t := by
  cases hcons : c.rest with
  | nil =>
    unfold read at hok
    rw [next?_of_end hcons] at hok
    cases hok
  | cons ch front =>
    obtain ⟨e, hnext, he⟩ := exists_next? hcons
    have hcons' : c'.rest = ch :: (front ++ t) := by rw [hrest, hcons, List.cons_append]
    obtain ⟨e', hnext', he'⟩ := exists_next? hcons'
    have hbehind : e'.rest = e.rest ++ t := by rw [he, he']
    unfold read at hok ⊢
    rw [hnext] at hok
    rw [hnext']
    dsimp only at hok ⊢
    split at hok
    · cases hok
      exact ⟨e', rfl, hbehind⟩
    -- A digit that would make a null an octal number is in the shorter text too.
    have hnull : (ch == '0' && !(e'.peek?.any Number.isDecimalDigit)) =
        (ch == '0' && !(e.peek?.any Number.isDecimalDigit)) := by
      cases hfront : e.rest with
      | cons first back =>
        rw [hfront, List.cons_append] at hbehind
        rw [peek?_of_rest hfront, peek?_of_rest hbehind]
      | nil =>
        cases hch : ch == '0' with
        | false => rfl
        | true =>
          rw [hch, peek?_eq_none hfront] at hok
          cases hok
          exact absurd hfront hd
    rw [hnull]
    split
    · next hzero =>
      rw [if_pos hzero] at hok
      cases hok
      exact ⟨e', rfl, hbehind⟩
    next hzero =>
    rw [if_neg hzero] at hok
    split
    · next hoctal =>
      rw [if_pos hoctal] at hok
      exact exists_readOctal_eq_ok hbehind hok hd
    next hoctal =>
    rw [if_neg hoctal] at hok
    split
    · next hx =>
      rw [if_pos hx] at hok
      obtain ⟨high, low, hmove, hhigh, hlow⟩ := exists_of_readHexPair hok
      obtain ⟨a, ha, -⟩ := exists_hexValue? hhigh
      obtain ⟨b, hb, -⟩ := exists_hexValue? hlow
      obtain ⟨f, hread, -⟩ := exists_readHexPair_eq_ok ha hb hmove.rest
      rw [hread] at hok
      cases hok
      exact exists_readHexPair_eq_ok ha hb (hbehind.trans (congrArg (· ++ t) hmove.rest))
    next hx =>
    rw [if_neg hx] at hok
    split
    · next hu =>
      rw [if_pos hu] at hok
      cases hread : readCodePoint e with
      | error y f =>
        rw [hread] at hok
        cases hok
      | ok ch f =>
        rw [hread] at hok
        cases hok
        obtain ⟨text, htext, hmove⟩ := exists_of_readCodePoint hread
        have hrest' : e'.rest = text ++ (d.rest ++ t) := by
          rw [hbehind, hmove.rest, List.append_assoc]
        obtain ⟨d', hread', hd'⟩ := exists_readCodePoint_eq_ok htext hrest'
        exact ⟨d', by rw [hread']; rfl, hd'⟩
    next hu =>
    rw [if_neg hu] at hok
    split
    · next hline =>
      rw [if_pos hline] at hok
      cases hok
      exact ⟨_, rfl, rest_breakLine hbehind hd⟩
    · next hline =>
      rw [if_neg hline] at hok
      cases hok
      exact ⟨e', rfl, hbehind⟩

end Escape

end EcmaEval
