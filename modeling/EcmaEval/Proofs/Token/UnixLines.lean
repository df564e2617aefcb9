import EcmaEval.Proofs.Token.Name

/-!
# Texts with line feeds for pairs

A line may end in a carriage return and a line feed.  The text in which each such pair is a line feed is
read alike, as long as no pair stands behind another carriage return, where the line feed would make a
pair of that, and none breaks an escape sequence off.

## Main definitions

* `Text.unixLines`, `Text.withUnixLines`: the text with a line feed for each pair
* `Cursor.UnixPlace`: the same place of that text

## Main results

* `Cursor.UnixPlace.next?`, `Cursor.UnixPlace.breakLine`: the steps of a reader
* `Escape.unix_read`: escape sequences
-/

namespace EcmaEval

open Scan

/-! ## Texts -/

namespace Text

/-- The text with a line feed for each carriage return and line feed. -/
def unixLines : List Char → List Char
  | '\r' :: '\n' :: cs => '\n' :: unixLines cs
  | ch :: cs => ch :: unixLines cs
  | [] => []

/-- A source text with a line feed for each carriage return and line feed. -/
def withUnixLines (source : String) : String := .ofList (unixLines source.toList)

variable {ch : Char} {cs front : List Char} {p : Char → Bool}

theorem unixLines_pair (cs : List Char) : unixLines ('\r' :: '\n' :: cs) = '\n' :: unixLines cs :=
  rfl

theorem unixLines_cons (h : ch = '\r' → cs.head? ≠ some '\n') :
    unixLines (ch :: cs) = ch :: unixLines cs := by
  rw [unixLines]
  rintro cs' rfl rfl
  exact h rfl rfl

theorem unixLines_append (h : '\r' ∉ front) : unixLines (front ++ cs) = front ++ unixLines cs := by
  induction front with
  | nil => rfl
  | cons ch front ih =>
    rw [List.mem_cons, not_or] at h
    rw [List.cons_append, unixLines_cons fun heq => absurd heq.symm h.1, ih h.2]
    rfl

theorem length_unixLines_le (cs : List Char) : (unixLines cs).length ≤ cs.length := by
  fun_induction unixLines cs with
  | case1 cs ih => exact Nat.le_succ_of_le (Nat.succ_le_succ ih)
  | case2 ch cs _ ih => exact Nat.succ_le_succ ih
  | case3 => exact Nat.le_refl _

/-- What stands first is the same, unless it is a pair. -/
theorem head?_unixLines (cs : List Char) : (unixLines cs).head? = cs.head? ∨
    cs.head? = some '\r' ∧ cs.tail.head? = some '\n' ∧ (unixLines cs).head? = some '\n' := by
  fun_cases unixLines cs with
  | case1 => exact .inr ⟨rfl, rfl, rfl⟩
  | case2 => exact .inl rfl
  | case3 => exact .inl rfl

/-- A class that has none of the two characters ends at the same place. -/
theorem span_unixLines (hreturn : p '\r' = false) (hfeed : p '\n' = false) (cs : List Char) :
    (unixLines cs).takeWhile p = cs.takeWhile p ∧
      (unixLines cs).dropWhile p = unixLines (cs.dropWhile p) := by
  fun_induction unixLines cs with
  | case1 cs =>
    simp only [List.takeWhile_cons, List.dropWhile_cons, hreturn, hfeed]
    exact ⟨rfl, rfl⟩
  | case2 ch cs hpair ih =>
    rw [List.takeWhile_cons, List.takeWhile_cons, List.dropWhile_cons, List.dropWhile_cons, ih.1, ih.2]
    split
    · exact ⟨rfl, rfl⟩
    · refine ⟨rfl, (unixLines_cons fun heq hhead => ?_).symm⟩
      obtain ⟨cs', rfl⟩ := List.head?_eq_some_iff.mp hhead
      exact hpair cs' heq rfl
  | case3 => exact ⟨rfl, rfl⟩

end Text

open Text

variable {c c' d d' e start : Cursor} {ch : Char} {cs digits front taken : List Char} {p : Char → Bool}

/-! ## Places -/

namespace Cursor

/-- The second cursor is at the same place of the text with line feeds for pairs.  What is left at the
first one has no pair behind another carriage return, and none that breaks an escape sequence off. -/
structure UnixPlace (c c' : Cursor) : Prop where
  rest : c'.rest = unixLines c.rest
  offset : c'.offset = 0 ↔ c.offset = 0
  single : ¬['\r', '\r', '\n'] <:+: c.rest
  whole : ¬BreaksEscape ['\r', '\n'] c.rest

namespace UnixPlace

/-- The fronts of the texts. -/
theorem ofText {source : String} (hsingle : ¬['\r', '\r', '\n'] <:+: source.toList)
    (hwhole : ¬BreaksEscape ['\r', '\n'] source.toList) :
    (Cursor.ofText source).UnixPlace (.ofText (withUnixLines source)) where
  rest := String.toList_ofList
  offset := Iff.rfl
  single := hsingle
  whole := hwhole

theorem of_suffix (h : c.UnixPlace c') (hsuffix : d.rest <:+ c.rest)
    (hrest : d'.rest = unixLines d.rest) (hoffset : d'.offset = 0 ↔ d.offset = 0) :
    d.UnixPlace d' where
  rest := hrest
  offset := hoffset
  single hpairs := h.single (hpairs.trans hsuffix.isInfix)
  whole hbreaks := h.whole (hbreaks.mono hsuffix.isInfix)

/-! ### Steps -/

theorem offset_pos_of_next? (h : c.next? = some (ch, d)) : d.offset ≠ 0 := by
  rw [offset_of_next? h]
  have := ch.utf8Size_pos
  omega

theorem next?_of_none (h : c.UnixPlace c') (hnext : c.next? = none) : c'.next? = none :=
  next?_of_end (by rw [h.rest, rest_of_next?_eq_none hnext]; rfl)

/-- A character that is not the first one of a pair is passed in both texts. -/
theorem next? (h : c.UnixPlace c') (hnext : c.next? = some (ch, d))
    (hpair : ch = '\r' → d.peek? ≠ some '\n') :
    ∃ d', c'.next? = some (ch, d') ∧ d.UnixPlace d' := by
  have hrest := rest_of_next? hnext
  have hrest' := h.rest
  rw [hrest, unixLines_cons hpair] at hrest'
  obtain ⟨d', hnext', hd'⟩ := exists_next? hrest'
  refine ⟨d', hnext', h.of_suffix ⟨[ch], hrest.symm⟩ hd' ?_⟩
  exact iff_of_false (offset_pos_of_next? hnext') (offset_pos_of_next? hnext)

theorem next?_of_ne (h : c.UnixPlace c') (hnext : c.next? = some (ch, d)) (hch : ch ≠ '\r') :
    ∃ d', c'.next? = some (ch, d') ∧ d.UnixPlace d' :=
  h.next? hnext fun heq => absurd heq hch

/-- A pair is passed in the one text where a line feed is in the other one. -/
theorem next?_pair (h : c.UnixPlace c') (hnext : c.next? = some ('\r', d))
    (hfeed : d.peek? = some '\n') : ∃ d', c'.next? = some ('\n', d') ∧ d.skip.UnixPlace d' := by
  obtain ⟨rest, hrest⟩ := List.head?_eq_some_iff.mp hfeed
  obtain ⟨e, hnext', he⟩ := exists_next? hrest
  rw [skip_of_next? hnext']
  have hc := rest_of_next? hnext
  have hrest' := h.rest
  rw [hc, hrest, unixLines_pair] at hrest'
  obtain ⟨d', hnext'', hd'⟩ := exists_next? hrest'
  refine ⟨d', hnext'', h.of_suffix ⟨['\r', '\n'], ?_⟩ (by rw [hd', he]) ?_⟩
  · rw [hc, hrest, he]
    rfl
  · exact iff_of_false (offset_pos_of_next? hnext'') (offset_pos_of_next? hnext')

/-! ### Looking -/

theorem peek?_cases (h : c.UnixPlace c') :
    c'.peek? = c.peek? ∨ c.peek? = some '\r' ∧ c'.peek? = some '\n' := by
  unfold Cursor.peek?
  rw [h.rest]
  exact (head?_unixLines c.rest).imp_right fun ⟨hreturn, _, hfeed⟩ => ⟨hreturn, hfeed⟩

theorem any_peek? (h : c.UnixPlace c') (hp : p '\r' = p '\n') : c'.peek?.any p = c.peek?.any p := by
  rcases h.peek?_cases with heq | ⟨hreturn, hfeed⟩
  · rw [heq]
  · rw [hreturn, hfeed, Option.any_some, Option.any_some, hp]

theorem beq_peek? (h : c.UnixPlace c') (hreturn : ch ≠ '\r') (hfeed : ch ≠ '\n') :
    (c'.peek? == some ch) = (c.peek? == some ch) := by
  rcases h.peek?_cases with heq | ⟨hreturn', hfeed'⟩
  · rw [heq]
  · rw [hreturn', hfeed']
    simp [hreturn.symm, hfeed.symm]

/-- What is looked at is passed. -/
theorem skip (h : c.UnixPlace c') (hpeek : c.peek? = some ch) (hch : ch ≠ '\r') :
    c.skip.UnixPlace c'.skip := by
  obtain ⟨rest, hrest⟩ := List.head?_eq_some_iff.mp hpeek
  obtain ⟨d, hnext, -⟩ := exists_next? hrest
  obtain ⟨d', hnext', hd⟩ := h.next?_of_ne hnext hch
  rw [skip_of_next? hnext, skip_of_next? hnext']
  exact hd

theorem skipIf? (h : c.UnixPlace c') (hreturn : ch ≠ '\r') (hfeed : ch ≠ '\n') :
    Option.Rel UnixPlace (c.skipIf? ch) (c'.skipIf? ch) := by
  unfold Cursor.skipIf?
  rw [h.beq_peek? hreturn hfeed]
  split
  · next hpeek => exact .some (h.skip (eq_of_beq hpeek) hreturn)
  · exact .none

theorem span (h : c.UnixPlace c') (hreturn : p '\r' = false) (hfeed : p '\n' = false) :
    (c'.span p).1 = (c.span p).1 ∧ (c.span p).2.UnixPlace (c'.span p).2 := by
  obtain ⟨htake, hdrop⟩ := span_unixLines hreturn hfeed c.rest
  have htaken : (c'.span p).1 = (c.span p).1 := by
    change c'.rest.takeWhile p = c.rest.takeWhile p
    rw [h.rest, htake]
  refine ⟨htaken, h.of_suffix (List.dropWhile_suffix p) ?_ ?_⟩
  · change c'.rest.dropWhile p = unixLines (c.rest.dropWhile p)
    rw [h.rest, hdrop]
  · change c'.offset + byteCount (c'.span p).1 = 0 ↔ c.offset + byteCount (c.span p).1 = 0
    rw [htaken, Nat.add_eq_zero_iff, Nat.add_eq_zero_iff, h.offset]

theorem skipWhile (h : c.UnixPlace c') (hreturn : p '\r' = false) (hfeed : p '\n' = false) :
    (c.skipWhile p).UnixPlace (c'.skipWhile p) :=
  (h.span hreturn hfeed).2

/-! ### Line ends -/

/-- The end of a line is passed in both texts. -/
theorem breakLine (h : c.UnixPlace c') (hnext : c.next? = some (ch, d)) (hline : isLineEnd ch = true) :
    ∃ ch' d', c'.next? = some (ch', d') ∧ isLineEnd ch' = true ∧
      (d.breakLine ch).UnixPlace (d'.breakLine ch') := by
  by_cases hpair : ch = '\r' ∧ d.peek? = some '\n'
  · obtain ⟨rfl, hfeed⟩ := hpair
    obtain ⟨d', hnext', hd⟩ := h.next?_pair hnext hfeed
    refine ⟨'\n', d', hnext', rfl, ?_⟩
    rw [breakLine_pair hfeed, breakLine_single fun heq => absurd heq (by decide)]
    exact ⟨hd.rest, hd.offset, hd.single, hd.whole⟩
  · have hsingle := not_and.mp hpair
    obtain ⟨d', hnext', hd⟩ := h.next? hnext hsingle
    refine ⟨ch, d', hnext', hline, ?_⟩
    -- A pair behind the carriage return would be a second line feed for it.
    have hsingle' : ch = '\r' → d'.peek? ≠ some '\n' := by
      rintro rfl
      rcases head?_unixLines d.rest with heq | ⟨hreturn, hfeed, -⟩
      · rw [Cursor.peek?, hd.rest, heq]
        exact hsingle rfl
      · obtain ⟨rest, hrest⟩ := List.head?_eq_some_iff.mp hreturn
        rw [hrest] at hfeed
        obtain ⟨rest', rfl⟩ := List.head?_eq_some_iff.mp hfeed
        refine absurd ⟨[], rest', ?_⟩ h.single
        rw [rest_of_next? hnext, hrest]
        rfl
    rw [breakLine_single hsingle, breakLine_single hsingle']
    exact ⟨hd.rest, hd.offset, hd.single, hd.whole⟩

end UnixPlace

end Cursor

open Cursor

/-! ## Escape sequences -/

/-- Two readers stop at the same place, with the same value or for the same reason. -/
inductive Scan.UnixAlike {α : Type} : Result α → Result α → Prop where
  | ok {x : α} {d d' : Cursor} (h : d.UnixPlace d') : UnixAlike (.ok x d) (.ok x d')
  | error {e : LexError} {d d' : Cursor} (h : d.UnixPlace d') : UnixAlike (.error e d) (.error e d')

theorem Scan.UnixAlike.map {α β : Type} {result result' : Result α} (h : UnixAlike result result')
    (f : α → β) : UnixAlike (result.map f) (result'.map f) := by
  cases h with
  | ok h => exact .ok h
  | error h => exact .error h

namespace Escape

theorem read_of_isLineEnd (hnext : c.next? = some (ch, d)) (hline : isLineEnd ch = true) :
    read c = .ok [] (d.breakLine ch) := by
  have hchars : ∀ ch ∈ lineEndChars, letterEscape? ch = none ∧ (ch == '0') = false ∧
      ('0' ≤ ch && ch ≤ '7') = false ∧ (ch == 'x') = false ∧ (ch == 'u') = false :=
    forall_mem_lineEndChars.mpr (by decide)
  obtain ⟨hletter, hzero, hoctal, hx, hu⟩ := hchars ch (mem_lineEndChars_of_isLineEnd hline)
  unfold read
  rw [hnext]
  dsimp only
  rw [hletter, hzero, hoctal, hx, hu, hline]
  rfl

/-- No pair stands behind the first part of an escape sequence that needs another character. -/
theorem peek?_ne_of_isOpen {before : List Char} (hopen : isOpen before = true)
    (hwhole : ¬BreaksEscape ['\r', '\n'] ('\\' :: (before ++ c.rest)))
    (hnext : c.next? = some (ch, d)) : ch = '\r' → d.peek? ≠ some '\n' := by
  rintro rfl hfeed
  obtain ⟨rest, hrest⟩ := List.head?_eq_some_iff.mp hfeed
  refine hwhole ⟨before, hopen, [], rest, ?_⟩
  rw [rest_of_next? hnext, hrest]
  simp

theorem unix_readQuad (h : c.UnixPlace c') {value count : Nat}
    (hwhole : ¬BreaksEscape ['\r', '\n'] ('\\' :: 'u' :: (digits ++ c.rest)))
    (hcount : digits.length + count = 4) (hdigits : digits.all isHex = true) :
    UnixAlike (readQuad c value count) (readQuad c' value count) := by
  induction count generalizing c c' value digits with
  | zero => exact .ok h
  | succ count ih =>
    unfold readQuad
    cases hnext : c.next? with
    | none =>
      rw [h.next?_of_none hnext]
      exact .error h
    | some found =>
      obtain ⟨ch, d⟩ := found
      -- As long as digits are wanted the sequence is open, and no pair stands there.
      have hopen : isOpen ('u' :: digits) = true := isOpen_quad (by omega) hdigits
      obtain ⟨d', hnext', hd⟩ := h.next? hnext (peek?_ne_of_isOpen hopen hwhole hnext)
      rw [hnext']
      dsimp only
      cases hdigit : hexValue? ch with
      | none => exact .error hd
      | some digit =>
        have hhex : (digits ++ [ch]).all isHex = true := by
          rw [List.all_append, hdigits, List.all_cons, isHex_of_hexValue? hdigit]
          rfl
        refine ih hd ?_ (by rw [List.length_append, List.length_singleton]; omega) hhex
        rw [rest_of_next? hnext] at hwhole
        rwa [← List.append_cons]

theorem readBraced_of_next?_eq_none (h : c.next? = none) (value : Nat) (started : Bool) :
    readBraced c value started = stopAtEnd .unterminatedCodePoint c := by
  rw [readBraced]
  split
  · rfl
  · next h' => rw [h] at h'; cases h'

theorem unix_readBraced (h : c.UnixPlace c') {value : Nat} {started : Bool}
    (hwhole : ¬BreaksEscape ['\r', '\n'] ('\\' :: 'u' :: '\x7b' :: (digits ++ c.rest)))
    (hdigits : digits.all isHex = true) :
    UnixAlike (readBraced c value started) (readBraced c' value started) := by
  have hopen : isOpen ('u' :: '\x7b' :: digits) = true := hdigits
  fun_induction readBraced c value started generalizing c' digits with
  | case1 c value started hnext =>
    rw [readBraced_of_next?_eq_none (h.next?_of_none hnext)]
    exact .error h
  | case2 c value started ch d hnext _ hclose =>
    obtain ⟨d', hnext', hd⟩ := h.next? hnext (peek?_ne_of_isOpen hopen hwhole hnext)
    rw [readBraced_of_next? hnext', if_pos hclose]
    exact .ok hd
  | case3 c value started ch d hnext _ hclose hdigit =>
    obtain ⟨d', hnext', hd⟩ := h.next? hnext (peek?_ne_of_isOpen hopen hwhole hnext)
    rw [readBraced_of_next? hnext', if_neg hclose, hdigit]
    exact .error hd
  | case4 c value started ch d hnext _ hclose digit hdigit hbound =>
    obtain ⟨d', hnext', hd⟩ := h.next? hnext (peek?_ne_of_isOpen hopen hwhole hnext)
    rw [readBraced_of_next? hnext', if_neg hclose, hdigit]
    dsimp only
    rw [if_pos hbound]
    exact .error hd
  | case5 c value started ch d hnext _ hclose digit hdigit hbound ih =>
    obtain ⟨d', hnext', hd⟩ := h.next? hnext (peek?_ne_of_isOpen hopen hwhole hnext)
    rw [readBraced_of_next? hnext', if_neg hclose, hdigit]
    dsimp only
    rw [if_neg hbound]
    have hhex : (digits ++ [ch]).all isHex = true := by
      rw [List.all_append, hdigits, List.all_cons, isHex_of_hexValue? hdigit]
      rfl
    rw [rest_of_next? hnext, List.append_cons] at hwhole
    exact ih hd hwhole hhex hhex

theorem unix_readCodePoint (h : c.UnixPlace c')
    (hwhole : ¬BreaksEscape ['\r', '\n'] ('\\' :: 'u' :: c.rest)) :
    UnixAlike (readCodePoint c) (readCodePoint c') := by
  have hopen (d : Cursor) (hd : c.skipIf? '\x7b' = some d) : c.rest = '\x7b' :: d.rest :=
    (Moves.skipIf? hd).rest
  have hskip := h.skipIf? (show '\x7b' ≠ '\r' by decide) (by decide)
  unfold readCodePoint
  generalize c'.skipIf? '\x7b' = found' at hskip
  generalize c.skipIf? '\x7b' = found at hopen hskip
  cases hskip with
  | none => exact unix_readQuad h (show ¬BreaksEscape _ ('\\' :: 'u' :: ([] ++ c.rest)) from hwhole) rfl rfl
  | some hd =>
    rw [hopen _ rfl] at hwhole
    exact unix_readBraced hd (show ¬BreaksEscape _ ('\\' :: 'u' :: '\x7b' :: ([] ++ _)) from hwhole) rfl

/-- Escape sequences of identifiers. -/
theorem unix_readIdentifierEscape (h : c.UnixPlace c')
    (hwhole : ¬BreaksEscape ['\r', '\n'] ('\\' :: c.rest)) :
    UnixAlike (readIdentifierEscape c) (readIdentifierEscape c') := by
  have hopen (d : Cursor) (hd : c.skipIf? 'u' = some d) : c.rest = 'u' :: d.rest :=
    (Moves.skipIf? hd).rest
  have hskip := h.skipIf? (show 'u' ≠ '\r' by decide) (by decide)
  unfold readIdentifierEscape
  generalize c'.skipIf? 'u' = found' at hskip
  generalize c.skipIf? 'u' = found at hopen hskip
  cases hskip with
  | none => exact .error h
  | some hd =>
    rw [hopen _ rfl] at hwhole
    exact unix_readCodePoint hd hwhole

theorem unix_readHexPair (h : c.UnixPlace c')
    (hwhole : ¬BreaksEscape ['\r', '\n'] ('\\' :: 'x' :: c.rest)) :
    UnixAlike (readHexPair c) (readHexPair c') := by
  unfold readHexPair
  cases hnext : c.next? with
  | none =>
    rw [h.next?_of_none hnext]
    exact .error h
  | some found =>
    obtain ⟨high, d⟩ := found
    have hopen : isOpen ['x'] = true := rfl
    obtain ⟨d', hnext', hd⟩ := h.next? hnext (peek?_ne_of_isOpen hopen hwhole hnext)
    rw [hnext']
    rw [rest_of_next? hnext] at hwhole
    dsimp only
    cases hlow : d.next? with
    | none =>
      rw [hd.next?_of_none hlow]
      exact .error hd
    | some found =>
      obtain ⟨low, e⟩ := found
      have hopen : isOpen ['x', high] = true := rfl
      obtain ⟨e', hlow', he⟩ := hd.next? hlow (peek?_ne_of_isOpen hopen hwhole hlow)
      rw [hlow']
      dsimp only
      split
      · exact .ok he
      · exact .error he

theorem unix_readOctal (h : c.UnixPlace c') (value count : Nat) :
    UnixAlike (readOctal c value count) (readOctal c' value count) := by
  induction count generalizing c c' value with
  | zero => exact .ok h
  | succ count ih =>
    unfold readOctal
    rcases h.peek?_cases with hpeek | ⟨hreturn, hfeed⟩
    · rw [hpeek]
      split
      · next ch hch =>
        split
        · next hoctal =>
          have hne : ch ≠ '\r' := by
            rintro rfl
            exact absurd hoctal (by decide)
          exact ih (h.skip hch hne) _
        · exact .ok h
      · exact .ok h
    · -- Neither character of a pair is a digit.
      rw [hreturn, hfeed]
      exact .ok h

/-- Escape sequences of strings and templates. -/
theorem unix_read (h : c.UnixPlace c') (hwhole : ¬BreaksEscape ['\r', '\n'] ('\\' :: c.rest)) :
    UnixAlike (read c) (read c') := by
  cases hnext : c.next? with
  | none =>
    unfold read
    rw [hnext, h.next?_of_none hnext]
    exact .error h
  | some found =>
    obtain ⟨ch, d⟩ := found
    -- Only the end of a line may be a pair here, and it stands for no character in either text.
    by_cases hline : isLineEnd ch = true
    · obtain ⟨ch', d', hnext', hline', hd⟩ := h.breakLine hnext hline
      rw [read_of_isLineEnd hnext hline, read_of_isLineEnd hnext' hline']
      exact .ok hd
    · have hne : ch ≠ '\r' := by
        rintro rfl
        exact hline rfl
      obtain ⟨d', hnext', hd⟩ := h.next?_of_ne hnext hne
      rw [rest_of_next? hnext] at hwhole
      unfold read
      rw [hnext, hnext']
      dsimp only
      rw [hd.any_peek? (p := Number.isDecimalDigit) rfl]
      split
      · exact .ok hd
      split
      · exact .ok hd
      split
      · exact unix_readOctal hd _ _
      split
      · next hx =>
        obtain rfl := eq_of_beq hx
        exact unix_readHexPair hd hwhole
      split
      · next hu =>
        obtain rfl := eq_of_beq hu
        exact (unix_readCodePoint hd hwhole).map _
      exact .ok hd

end Escape

end EcmaEval
