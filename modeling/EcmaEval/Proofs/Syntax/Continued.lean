import EcmaEval.Token.Numeral
import EcmaEval.Token.Escape

/-!
# Reading a text that goes on

A text is compared with one that goes on behind a line feed or a space.  What a reader finds in the
shorter text it finds in the longer one too, unless the shorter one ends first.  No reader goes on
over the character that follows, apart from those that reach the end of the shorter text in the
middle of a token.  The two texts need not stand at the same position.

## Main definitions

* `Text.Apart`: a text that does not run into what stands before it
* `Cursor.SamePlace`: the same place in the longer text
* `Scan.Continues`: how reading ends in the longer text

## Main results

* `Escape.continues_read`, `Numeral.follows_read`: escapes and numerals
-/

namespace EcmaEval

variable {α β : Type}

/-- A class ends before what is not in it. -/
theorem Text.cut_append_cons {p : α → Bool} {y : α} (hy : p y = false) (xs ys : List α) :
    (xs ++ y :: ys).takeWhile p = xs.takeWhile p ∧
      (xs ++ y :: ys).dropWhile p = xs.dropWhile p ++ y :: ys := by
  induction xs with
  | nil => simp [hy]
  | cons x xs ih =>
    rw [List.cons_append, List.takeWhile_cons, List.takeWhile_cons, List.dropWhile_cons,
      List.dropWhile_cons, ih.1, ih.2]
    split <;> exact ⟨rfl, rfl⟩

/-! ## Texts apart -/

namespace Text

/-- The characters behind which a text goes on here.  Neither of them belongs to a word, a number or
a mark. -/
def gaps : List Char := ['\n', ' ']

theorem forall_mem_gaps {p : Char → Prop} : (∀ ch ∈ gaps, p ch) ↔ p '\n' ∧ p ' ' := by
  simp [gaps]

/-- The text does not run into the token before it. -/
class Apart (t : List Char) : Prop where
  exists_cons : ∃ ch ∈ gaps, ∃ rest, t = ch :: rest

instance (t : List Char) : Apart ('\n' :: t) := ⟨⟨_, by decide, _, rfl⟩⟩

instance (t : List Char) : Apart (' ' :: t) := ⟨⟨_, by decide, _, rfl⟩⟩

/-- A class of characters that has neither gap. -/
theorem Apart.head_false {t : List Char} [h : Apart t] {p : Char → Bool}
    (hp : ∀ ch ∈ gaps, p ch = false) : ∃ ch rest, t = ch :: rest ∧ p ch = false := by
  obtain ⟨ch, hch, rest, rfl⟩ := h.exists_cons
  exact ⟨ch, rest, rfl, hp ch hch⟩

end Text

open Text

variable {l t : List Char} {c c' d d' : Cursor} {ch : Char}

/-! ## Cursors -/

namespace Cursor

/-- The second cursor is at the same place of the text that goes on with `t`; what is left at the
first one is the end of `l`. -/
structure SamePlace (l t : List Char) (c c' : Cursor) : Prop where
  suffix : c.rest <:+ l
  rest : c'.rest = c.rest ++ t
  offset : c'.offset = 0 ↔ c.offset = 0

/-- The second cursor is at the same place of the text that goes on, or the first one is at its
end. -/
inductive Continues (l t : List Char) (c : Cursor) : Cursor → Prop where
  | same {c' : Cursor} (h : SamePlace l t c c') : Continues l t c c'
  | ended {c' : Cursor} (h : c.rest = []) : Continues l t c c'

theorem Continues.suffix (h : c.Continues l t c') : c.rest <:+ l := by
  cases h with
  | same h => exact h.suffix
  | ended h => exact h ▸ List.nil_suffix

theorem rest_of_next?_eq_none (h : c.next? = none) : c.rest = [] := by
  unfold next? at h
  cases hrest : c.rest with
  | nil => rfl
  | cons ch rest => simp [hrest] at h

theorem next?_of_end (h : c.rest = []) : c.next? = none := by
  simp [next?, h]

theorem next?_of_cons {rest : List Char} (h : c.rest = ch :: rest) :
    c.next? = some (ch, { c with
      rest, column := c.column + 1, offset := c.offset + ch.utf8Size }) := by
  unfold next?
  rw [h]

theorem rest_of_next? (h : c.next? = some (ch, d)) : c.rest = ch :: d.rest := by
  unfold next? at h
  cases hrest : c.rest with
  | nil => simp [hrest] at h
  | cons ch' rest =>
    simp only [hrest, Option.some.injEq, Prod.mk.injEq] at h
    obtain ⟨rfl, rfl⟩ := h
    rfl

theorem rest_ne_of_next? (h : c.next? = some (ch, d)) : c.rest ≠ [] := by
  rw [rest_of_next? h]
  exact List.cons_ne_nil _ _

theorem offset_of_next? (h : c.next? = some (ch, d)) : d.offset = c.offset + ch.utf8Size := by
  unfold next? at h
  cases hrest : c.rest with
  | nil => simp [hrest] at h
  | cons ch' rest =>
    simp only [hrest, Option.some.injEq, Prod.mk.injEq] at h
    obtain ⟨rfl, rfl⟩ := h
    rfl

theorem peek?_eq_none (h : c.rest = []) : c.peek? = none := by
  simp [peek?, h]

theorem skip_of_next? (h : c.next? = some (ch, d)) : c.skip = d := by
  unfold skip
  rw [h]

theorem byteCount_eq_zero_iff (cs : List Char) : byteCount cs = 0 ↔ cs = [] := by
  have hle (cs : List Char) (n : Nat) : n ≤ cs.foldl (fun n ch => n + ch.utf8Size) n := by
    induction cs generalizing n with
    | nil => exact Nat.le_refl n
    | cons ch cs ih => exact Nat.le_trans (Nat.le_add_right _ _) (ih _)
  cases cs with
  | nil => exact iff_of_true rfl rfl
  | cons ch cs =>
    have hpos := ch.utf8Size_pos
    have := hle cs (0 + ch.utf8Size)
    refine iff_of_false ?_ (List.cons_ne_nil _ _)
    unfold byteCount
    rw [List.foldl_cons]
    omega

namespace SamePlace

/-- The next character is the same. -/
theorem next? (h : SamePlace l t c c') (hnext : c.next? = some (ch, d)) :
    ∃ d', c'.next? = some (ch, d') ∧ SamePlace l t d d' := by
  have hrest := rest_of_next? hnext
  have hrest' : c'.rest = ch :: (d.rest ++ t) := by rw [h.rest, hrest, List.cons_append]
  refine ⟨_, next?_of_cons hrest', ⟨?_, rfl, ?_⟩⟩
  · exact ((List.suffix_cons ch d.rest).trans (hrest ▸ List.suffix_rfl)).trans h.suffix
  · have := h.offset
    have := ch.utf8Size_pos
    rw [offset_of_next? hnext]
    dsimp only
    omega

theorem peek? (h : SamePlace l t c c') (hrest : c.rest ≠ []) : c'.peek? = c.peek? := by
  obtain ⟨ch, rest, hcons⟩ := List.exists_cons_of_ne_nil hrest
  simp [Cursor.peek?, h.rest, hcons]

theorem skip (h : SamePlace l t c c') (hrest : c.rest ≠ []) : SamePlace l t c.skip c'.skip := by
  cases hnext : c.next? with
  | none => exact absurd (rest_of_next?_eq_none hnext) hrest
  | some found =>
    obtain ⟨d', hnext', hd⟩ := h.next? hnext
    rw [skip_of_next? hnext, skip_of_next? hnext']
    exact hd

theorem skip_of_peek? (h : SamePlace l t c c') (hpeek : c.peek? = some ch) :
    SamePlace l t c.skip c'.skip :=
  h.skip fun hend => by simp [peek?_eq_none hend] at hpeek

theorem skipIf?_of_peek? (h : SamePlace l t c c') (ch : Char)
    (hpeek : (c'.peek? == some ch) = (c.peek? == some ch)) :
    Option.Rel (SamePlace l t) (c.skipIf? ch) (c'.skipIf? ch) := by
  unfold skipIf?
  rw [hpeek]
  split
  · next hch => exact .some (h.skip_of_peek? (by simpa using hch))
  · exact .none

theorem skipBy {n : Nat} (h : SamePlace l t c c') (hn : n ≤ c.rest.length) :
    SamePlace l t (c.skipBy n) (c'.skipBy n) := by
  induction n generalizing c c' with
  | zero => exact h
  | succ n ih =>
    cases hnext : c.next? with
    | none => simp [rest_of_next?_eq_none hnext] at hn
    | some found =>
      obtain ⟨ch, d⟩ := found
      obtain ⟨d', hnext', hd⟩ := h.next? hnext
      unfold Cursor.skipBy
      rw [skip_of_next? hnext, skip_of_next? hnext']
      have := length_of_next? hnext
      exact ih hd (by omega)

theorem span_of_dropWhile (h : SamePlace l t c c') {p : Char → Bool}
    (htaken : (c.rest ++ t).takeWhile p = c.rest.takeWhile p)
    (hleft : (c.rest ++ t).dropWhile p = c.rest.dropWhile p ++ t) :
    (c'.span p).1 = (c.span p).1 ∧ SamePlace l t (c.span p).2 (c'.span p).2 := by
  unfold span
  rw [h.rest, htaken, hleft]
  refine ⟨rfl, (List.dropWhile_suffix p).trans h.suffix, rfl, ?_⟩
  have := h.offset
  dsimp only
  omega

/-- A class of characters ends in the first text if something of that is left behind it. -/
theorem span_of_rest (h : SamePlace l t c c') {p : Char → Bool} (hrest : (c.span p).2.rest ≠ []) :
    (c'.span p).1 = (c.span p).1 ∧ SamePlace l t (c.span p).2 (c'.span p).2 := by
  have hdropped : c.rest.dropWhile p ≠ [] := hrest
  have hwhole (cs : List Char) (hcs : cs.dropWhile p ≠ []) :
      (cs ++ t).takeWhile p = cs.takeWhile p ∧ (cs ++ t).dropWhile p = cs.dropWhile p ++ t := by
    induction cs with
    | nil => exact absurd rfl hcs
    | cons ch cs ih =>
      rw [List.cons_append, List.takeWhile_cons, List.takeWhile_cons, List.dropWhile_cons,
        List.dropWhile_cons]
      rw [List.dropWhile_cons] at hcs
      split
      · next hch =>
        rw [if_pos hch] at hcs
        exact ⟨congrArg _ (ih hcs).1, (ih hcs).2⟩
      · exact ⟨rfl, rfl⟩
  exact h.span_of_dropWhile (hwhole _ hdropped).1 (hwhole _ hdropped).2

theorem skipWhile_of_rest (h : SamePlace l t c c') {p : Char → Bool}
    (hrest : (c.skipWhile p).rest ≠ []) : SamePlace l t (c.skipWhile p) (c'.skipWhile p) :=
  (h.span_of_rest hrest).2

/-- A line end is the same, unless it is a carriage return at the end of the text. -/
theorem breakLine_of_rest (h : SamePlace l t c c') (hrest : ch = '\r' → c.rest ≠ []) :
    SamePlace l t (c.breakLine ch) (c'.breakLine ch) := by
  unfold Cursor.breakLine
  split
  · next hch =>
    have hskip := h.skipIf?_of_peek? '\n' (by rw [h.peek? (hrest (eq_of_beq hch))])
    generalize c.skipIf? '\n' = found at hskip
    generalize c'.skipIf? '\n' = found' at hskip
    cases hskip with
    | none => exact ⟨h.suffix, h.rest, h.offset⟩
    | some hd => exact ⟨hd.suffix, hd.rest, hd.offset⟩
  · exact ⟨h.suffix, h.rest, h.offset⟩

/-- A carriage return at the end of the text is one line end with a line feed behind it. -/
theorem breakLine (h : SamePlace l t c c') (ch : Char) :
    Continues l t (c.breakLine ch) (c'.breakLine ch) := by
  by_cases hrest : ch = '\r' → c.rest ≠ []
  · exact .same (h.breakLine_of_rest hrest)
  · rw [Classical.not_imp, Classical.not_not] at hrest
    have hle := c.length_breakLine_le ch
    rw [hrest.2, List.length_nil, Nat.le_zero] at hle
    exact .ended (List.eq_nil_of_length_eq_zero hle)

theorem beq_offset (h : SamePlace l t c c') : (c'.offset == 0) = (c.offset == 0) := by
  rw [Bool.eq_iff_iff, beq_iff_eq, beq_iff_eq, h.offset]

theorem between (h : SamePlace l t c c') (hd : SamePlace l t d d') :
    between c' d' = between c d := by
  unfold Cursor.between
  rw [h.rest, hd.rest, List.length_append, List.length_append, Nat.add_sub_add_right,
    List.take_append_of_le_length (Nat.sub_le _ _)]

/-! ### Behind a gap -/

variable [ht : Apart t]

/-- At the end a gap follows. -/
theorem next?_of_end (h : SamePlace l t c c') (hend : c.rest = []) :
    ∃ ch ∈ gaps, ∃ d', c'.next? = some (ch, d') := by
  obtain ⟨ch, hch, rest, rfl⟩ := ht.exists_cons
  exact ⟨ch, hch, _, next?_of_cons (by rw [h.rest, hend, List.nil_append])⟩

theorem peek?_of_end (h : SamePlace l t c c') (hend : c.rest = []) :
    ∃ ch ∈ gaps, c'.peek? = some ch := by
  obtain ⟨ch, hch, rest, rfl⟩ := ht.exists_cons
  exact ⟨ch, hch, by simp [Cursor.peek?, h.rest, hend]⟩

/-- A test that the gaps fail sees no difference. -/
theorem any_peek? (h : SamePlace l t c c') {p : Char → Bool} (hp : ∀ ch ∈ gaps, p ch = false) :
    c'.peek?.any p = c.peek?.any p := by
  by_cases hend : c.rest = []
  · obtain ⟨ch, hch, hpeek⟩ := h.peek?_of_end hend
    rw [hpeek, peek?_eq_none hend, Option.any_some, hp ch hch]
    rfl
  · rw [h.peek? hend]

theorem beq_peek? (h : SamePlace l t c c') (hch : ch ∉ gaps) :
    (c'.peek? == some ch) = (c.peek? == some ch) := by
  by_cases hend : c.rest = []
  · obtain ⟨ch', hch', hpeek⟩ := h.peek?_of_end hend
    have hne : ch' ≠ ch := fun heq => hch (heq ▸ hch')
    rw [hpeek, peek?_eq_none hend]
    simpa using hne
  · rw [h.peek? hend]

theorem skipIf? (h : SamePlace l t c c') (ch : Char) (hch : ch ∉ gaps) :
    Option.Rel (SamePlace l t) (c.skipIf? ch) (c'.skipIf? ch) :=
  h.skipIf?_of_peek? ch (h.beq_peek? hch)

theorem span (h : SamePlace l t c c') {p : Char → Bool} (hp : ∀ ch ∈ gaps, p ch = false) :
    (c'.span p).1 = (c.span p).1 ∧ SamePlace l t (c.span p).2 (c'.span p).2 := by
  obtain ⟨gap, rest, rfl, hgap⟩ := ht.head_false hp
  obtain ⟨htaken, hleft⟩ := Text.cut_append_cons hgap c.rest rest
  exact h.span_of_dropWhile htaken hleft

end SamePlace

end Cursor

/-! ## Results -/

namespace Scan

open Cursor

/-- The second result is that of the same reader on the text that goes on. -/
inductive Continues (l t : List Char) : Result α → Result α → Prop where
  | ok {x : α} {d d' : Cursor} (h : d.Continues l t d') : Continues l t (.ok x d) (.ok x d')
  | excused {e : LexError} {d : Cursor} {result : Result α} (h : e.atEnd = true) :
    Continues l t (.error e d) result
  | failed {e : LexError} {d d' : Cursor} (h : d.Continues l t d') :
    Continues l t (.error e d) (.error e d')

/-- The second reader gives what the first one gives, and stops at the same place. -/
inductive Keeps (l t : List Char) : Result α → Result α → Prop where
  | ok {x : α} {d d' : Cursor} (h : d.SamePlace l t d') : Keeps l t (.ok x d) (.ok x d')
  | excused {e : LexError} {d : Cursor} {result : Result α} (h : e.atEnd = true) :
    Keeps l t (.error e d) result
  | failed {e : LexError} {d d' : Cursor} (h : d.Continues l t d') :
    Keeps l t (.error e d) (.error e d')

/-- The second reader ends like the first one, even where the first one ends too early. -/
inductive Follows (l t : List Char) : Result α → Result α → Prop where
  | ok {x : α} {d d' : Cursor} (h : d.SamePlace l t d') : Follows l t (.ok x d) (.ok x d')
  | error {e e' : LexError} {d d' : Cursor} (h : d.Continues l t d')
    (he : e.atEnd = false → e' = e) : Follows l t (.error e d) (.error e' d')

theorem Follows.continues {result result' : Result α} (h : Follows l t result result') :
    Continues l t result result' := by
  cases h with
  | ok h => exact .ok (.same h)
  | @error e _ _ _ h he =>
    cases hend : e.atEnd with
    | true => exact .excused hend
    | false =>
      rw [he hend]
      exact .failed h

theorem Continues.map {result result' : Result α} (h : Continues l t result result') (f : α → β) :
    Continues l t (result.map f) (result'.map f) := by
  cases h with
  | ok h => exact .ok h
  | excused h => exact .excused h
  | failed h => exact .failed h

end Scan

open Scan Cursor

variable [ht : Apart t]

/-! ## Escapes -/

namespace Escape

theorem hexValue?_of_mem_gaps : ∀ ch ∈ gaps, hexValue? ch = none :=
  forall_mem_gaps.mpr (by decide)

theorem readBraced_of_next? (h : c.next? = some (ch, d)) (value : Nat) (started : Bool) :
    readBraced c value started =
      if (ch == '\x7d' && started) = true then .ok (charOf value) d
      else
        match hexValue? ch with
        | none => stop .invalidUnicodeEscape d
        | some digit =>
          if 0x10FFFF < value * 16 + digit then stop .undefinedCodePoint d
          else readBraced d (value * 16 + digit) true := by
  rw [readBraced]
  split
  · next h' => rw [h] at h'; cases h'
  · next h' =>
    rw [h] at h'
    cases h'
    rfl

theorem follows_readBraced (h : c.SamePlace l t c') (value : Nat) (started : Bool) :
    Follows l t (readBraced c value started) (readBraced c' value started) := by
  fun_induction readBraced c value started generalizing c' with
  | case1 c value started hnext =>
    have hend := rest_of_next?_eq_none hnext
    obtain ⟨ch, hch, d, hgap⟩ := h.next?_of_end hend
    have hclose : ∀ ch ∈ gaps, (ch == '\x7d') = false := forall_mem_gaps.mpr (by decide)
    rw [readBraced_of_next? hgap, hexValue?_of_mem_gaps ch hch, hclose ch hch]
    exact .error (.ended hend) fun hopen => by cases hopen
  | case2 c value started ch d hnext _ hclose =>
    obtain ⟨d', hnext', hd⟩ := h.next? hnext
    rw [readBraced_of_next? hnext', if_pos hclose]
    exact .ok hd
  | case3 c value started ch d hnext _ hclose hdigit =>
    obtain ⟨d', hnext', hd⟩ := h.next? hnext
    rw [readBraced_of_next? hnext', if_neg hclose, hdigit]
    exact .error (.same hd) fun _ => rfl
  | case4 c value started ch d hnext _ hclose digit hdigit hbound =>
    obtain ⟨d', hnext', hd⟩ := h.next? hnext
    rw [readBraced_of_next? hnext', if_neg hclose, hdigit]
    dsimp only
    rw [if_pos hbound]
    exact .error (.same hd) fun _ => rfl
  | case5 c value started ch d hnext _ hclose digit hdigit hbound ih =>
    obtain ⟨d', hnext', hd⟩ := h.next? hnext
    rw [readBraced_of_next? hnext', if_neg hclose, hdigit]
    dsimp only
    rw [if_neg hbound]
    exact ih hd

theorem follows_readQuad (h : c.SamePlace l t c') (value count : Nat) :
    Follows l t (readQuad c value count) (readQuad c' value count) := by
  induction count generalizing c c' value with
  | zero => exact .ok h
  | succ count ih =>
    unfold readQuad
    cases hnext : c.next? with
    | none =>
      have hend := rest_of_next?_eq_none hnext
      obtain ⟨ch, hch, d, hgap⟩ := h.next?_of_end hend
      rw [hgap]
      dsimp only
      rw [hexValue?_of_mem_gaps ch hch]
      exact .error (.ended hend) fun _ => rfl
    | some found =>
      obtain ⟨d', hnext', hd⟩ := h.next? hnext
      rw [hnext']
      dsimp only
      split
      · exact .error (.same hd) fun _ => rfl
      · exact ih hd _

theorem follows_readCodePoint (h : c.SamePlace l t c') :
    Follows l t (readCodePoint c) (readCodePoint c') := by
  unfold readCodePoint
  have hskip := h.skipIf? '\x7b' (by decide)
  generalize c.skipIf? '\x7b' = found at hskip
  generalize c'.skipIf? '\x7b' = found' at hskip
  cases hskip with
  | none => exact follows_readQuad h _ _
  | some hd => exact follows_readBraced hd _ _

theorem follows_readIdentifierEscape (h : c.SamePlace l t c') :
    Follows l t (readIdentifierEscape c) (readIdentifierEscape c') := by
  unfold readIdentifierEscape
  have hskip := h.skipIf? 'u' (by decide)
  generalize c.skipIf? 'u' = found at hskip
  generalize c'.skipIf? 'u' = found' at hskip
  cases hskip with
  | none => exact .error (.same h) fun _ => rfl
  | some hd => exact follows_readCodePoint hd

theorem octal_of_mem_gaps : ∀ ch ∈ gaps, (decide ('0' ≤ ch) && decide (ch ≤ '7')) = false :=
  forall_mem_gaps.mpr (by decide)

theorem continues_readOctal (h : c.SamePlace l t c') (value count : Nat) :
    Continues l t (readOctal c value count) (readOctal c' value count) := by
  induction count generalizing c c' value with
  | zero => exact .ok (.same h)
  | succ count ih =>
    unfold readOctal
    by_cases hend : c.rest = []
    · obtain ⟨ch, hch, hpeek⟩ := h.peek?_of_end hend
      rw [peek?_eq_none hend, hpeek]
      dsimp only
      rw [octal_of_mem_gaps ch hch]
      exact .ok (.same h)
    · rw [h.peek? hend]
      split
      · split
        · exact ih (h.skip hend) _
        · exact .ok (.same h)
      · exact .ok (.same h)

theorem continues_readHexPair (h : c.SamePlace l t c') :
    Continues l t (readHexPair c) (readHexPair c') := by
  unfold readHexPair
  cases hnext : c.next? with
  | none =>
    have hend := rest_of_next?_eq_none hnext
    obtain ⟨ch, hch, d, hgap⟩ := h.next?_of_end hend
    rw [hgap]
    dsimp only
    rw [hexValue?_of_mem_gaps ch hch]
    split <;> exact .failed (.ended hend)
  | some found =>
    obtain ⟨high, d⟩ := found
    obtain ⟨d', hnext', hd⟩ := h.next? hnext
    rw [hnext']
    dsimp only
    cases hnext₂ : d.next? with
    | none =>
      have hend := rest_of_next?_eq_none hnext₂
      obtain ⟨ch, hch, e, hgap⟩ := hd.next?_of_end hend
      rw [hgap]
      dsimp only
      rw [hexValue?_of_mem_gaps ch hch]
      cases hexValue? high <;> exact .failed (.ended hend)
    | some found =>
      obtain ⟨e', hnext₂', he⟩ := hd.next? hnext₂
      rw [hnext₂']
      dsimp only
      split
      · exact .ok (.same he)
      · exact .failed (.same he)

theorem continues_read (h : c.SamePlace l t c') : Continues l t (read c) (read c') := by
  unfold read
  cases hnext : c.next? with
  | none => exact .excused rfl
  | some found =>
    obtain ⟨ch, d⟩ := found
    obtain ⟨d', hnext', hd⟩ := h.next? hnext
    rw [hnext']
    dsimp only
    rw [hd.any_peek? (forall_mem_gaps.mpr (by decide))]
    split
    · exact .ok (.same hd)
    split
    · exact .ok (.same hd)
    split
    · exact continues_readOctal hd _ _
    split
    · exact continues_readHexPair hd
    split
    · exact (follows_readCodePoint hd).continues.map _
    split
    · exact .ok (hd.breakLine ch)
    · exact .ok (.same hd)

end Escape

/-! ## Numerals -/

namespace Numeral

open Number

variable {p : Char → Bool}

/-- Parts of a numeral are the same, and the cursors behind them at the same place. -/
abbrev SamePart (l t : List Char) (x x' : List Char × Cursor) : Prop :=
  x'.1 = x.1 ∧ x.2.SamePlace l t x'.2

theorem spanDigits_samePart (h : c.SamePlace l t c') (hp : ∀ ch ∈ gaps, p ch = false) :
    SamePart l t (spanDigits c p) (spanDigits c' p) := by
  unfold spanDigits
  have hunderscore : ∀ ch ∈ gaps, (ch == '_') = false := forall_mem_gaps.mpr (by decide)
  have hclass : ∀ ch ∈ gaps, (p ch || ch == '_') = false := fun ch hch => by
    rw [hp ch hch]
    exact hunderscore ch hch
  obtain ⟨htaken, hd⟩ := h.span hclass
  exact ⟨congrArg (List.filter (· != '_')) htaken, hd⟩

theorem isDecimalDigit_of_mem_gaps : ∀ ch ∈ gaps, isDecimalDigit ch = false :=
  forall_mem_gaps.mpr (by decide)

theorem spanFraction_samePart (h : c.SamePlace l t c') :
    SamePart l t (spanFraction c) (spanFraction c') := by
  unfold spanFraction
  have hskip := h.skipIf? '.' (by decide)
  generalize c.skipIf? '.' = found at hskip
  generalize c'.skipIf? '.' = found' at hskip
  cases hskip with
  | none => exact ⟨rfl, h⟩
  | some hd =>
    obtain ⟨hdigits, he⟩ := spanDigits_samePart hd isDecimalDigit_of_mem_gaps
    exact ⟨congrArg ('.' :: ·) hdigits, he⟩

/-- The sign that an exponent may have. -/
def spanSign (c : Cursor) : List Char × Cursor :=
  match c.peek? with
  | some s => if s == '+' || s == '-' then ([s], c.skip) else ([], c)
  | none => ([], c)

theorem spanExponent_eq_spanSign (c : Cursor) : spanExponent c =
    match c.peek? with
    | some e =>
      if (e == 'e' || e == 'E') = true then
        (e :: ((spanSign c.skip).1 ++ (spanDigits (spanSign c.skip).2 isDecimalDigit).1),
          (spanDigits (spanSign c.skip).2 isDecimalDigit).2)
      else ([], c)
    | none => ([], c) := rfl

theorem spanSign_samePart (h : c.SamePlace l t c') :
    SamePart l t (spanSign c) (spanSign c') := by
  unfold spanSign
  by_cases hend : c.rest = []
  · obtain ⟨ch, hch, hpeek⟩ := h.peek?_of_end hend
    have hsign : ∀ ch ∈ gaps, (ch == '+' || ch == '-') = false := forall_mem_gaps.mpr (by decide)
    rw [peek?_eq_none hend, hpeek]
    dsimp only
    rw [hsign ch hch]
    exact ⟨rfl, h⟩
  · rw [h.peek? hend]
    split
    · split
      · exact ⟨rfl, h.skip hend⟩
      · exact ⟨rfl, h⟩
    · exact ⟨rfl, h⟩

theorem spanExponent_samePart (h : c.SamePlace l t c') :
    SamePart l t (spanExponent c) (spanExponent c') := by
  rw [spanExponent_eq_spanSign, spanExponent_eq_spanSign]
  by_cases hend : c.rest = []
  · obtain ⟨ch, hch, hpeek⟩ := h.peek?_of_end hend
    have hletter : ∀ ch ∈ gaps, (ch == 'e' || ch == 'E') = false := forall_mem_gaps.mpr (by decide)
    rw [peek?_eq_none hend, hpeek]
    dsimp only
    rw [hletter ch hch]
    exact ⟨rfl, h⟩
  · rw [h.peek? hend]
    split
    · split
      · obtain ⟨hsign, hd⟩ := spanSign_samePart (h.skip hend)
        obtain ⟨hdigits, he⟩ := spanDigits_samePart hd isDecimalDigit_of_mem_gaps
        exact ⟨by rw [hsign, hdigits], he⟩
      · exact ⟨rfl, h⟩
    · exact ⟨rfl, h⟩

/-- A gap does not run into a literal. -/
theorem follows_finish (h : c.SamePlace l t c') {token token' : Result Token}
    (htoken : Follows l t token token') :
    Follows l t (finish c token) (finish c' token') := by
  unfold finish
  by_cases hend : c.rest = []
  · obtain ⟨ch, hch, hpeek⟩ := h.peek?_of_end hend
    have hword : ∀ ch ∈ gaps, (isIdentifierStart ch || isDecimalDigit ch) = false :=
      forall_mem_gaps.mpr (by decide)
    rw [peek?_eq_none hend, hpeek]
    dsimp only
    rw [hword ch hch]
    exact htoken
  · rw [h.peek? hend]
    split
    · split
      · exact .error (.same h) fun _ => rfl
      · exact htoken
    · exact htoken

theorem follows_finishDecimal (h : c.SamePlace l t c') (cs : List Char) :
    Follows l t (finishDecimal c cs) (finishDecimal c' cs) := by
  unfold finishDecimal
  refine follows_finish h ?_
  split
  · exact .ok h
  · exact .error (.same h) fun _ => rfl

theorem digitValue?_of_mem_gaps (radix : Nat) : ∀ ch ∈ gaps, (digitValue? radix ch).isSome = false :=
  fun ch hch => by
    obtain rfl | rfl : ch = '\n' ∨ ch = ' ' := by simpa [gaps] using hch
    all_goals rfl

theorem follows_readMarked (h : c.SamePlace l t c') (radix : Nat) (mark : String) :
    Follows l t (readMarked c radix mark) (readMarked c' radix mark) := by
  obtain ⟨hdigits, hd⟩ := spanDigits_samePart h (digitValue?_of_mem_gaps radix)
  unfold readMarked
  dsimp only
  rw [hdigits]
  split
  · exact .error (.same hd) fun _ => rfl
  have hskip := hd.skipIf? 'n' (by decide)
  generalize Cursor.skipIf? _ 'n' = found at hskip
  generalize (spanDigits c' fun ch => (digitValue? radix ch).isSome).2.skipIf? 'n' = found' at hskip
  cases hskip with
  | none => exact follows_finish hd (.ok hd)
  | some he => exact .ok he

theorem follows_readZeroLed (h : c.SamePlace l t c') :
    Follows l t (readZeroLed c) (readZeroLed c') := by
  obtain ⟨hdigits, hd⟩ := spanDigits_samePart h isDecimalDigit_of_mem_gaps
  obtain ⟨hfraction, he⟩ := spanFraction_samePart hd
  obtain ⟨hexponent, hf⟩ := spanExponent_samePart he
  unfold readZeroLed
  dsimp only
  rw [hdigits, hd.any_peek? (forall_mem_gaps.mpr (by decide))]
  split
  · exact follows_finish hd (.ok hd)
  · rw [hfraction, hexponent]
    exact follows_finishDecimal hf _

/-- The part behind the digits of a literal in radix ten. -/
theorem samePart_fraction (h : c.SamePlace l t c') (first : Char) :
    SamePart l t (if (first == '.') = true then ([], c) else spanFraction c)
      (if (first == '.') = true then ([], c') else spanFraction c') := by
  split
  · exact ⟨rfl, h⟩
  · exact spanFraction_samePart h

theorem follows_readDecimal (h : c.SamePlace l t c') (first : Char) :
    Follows l t (readDecimal c first) (readDecimal c' first) := by
  obtain ⟨hdigits, hd⟩ := spanDigits_samePart h isDecimalDigit_of_mem_gaps
  obtain ⟨hfraction, he⟩ := samePart_fraction hd first
  obtain ⟨hexponent, hf⟩ := spanExponent_samePart he
  have hskip := hf.skipIf? 'n' (by decide)
  unfold readDecimal
  dsimp only
  rw [hdigits, hfraction, hexponent]
  generalize Cursor.skipIf? (spanExponent _).2 'n' = found at hskip ⊢
  generalize Cursor.skipIf? (spanExponent _).2 'n' = found' at hskip ⊢
  cases hskip with
  | none => exact follows_finishDecimal hf _
  | some hg => exact .ok hg

theorem follows_read (h : c.SamePlace l t c') (first : Char) :
    Follows l t (read c first) (read c' first) := by
  unfold read
  split
  · by_cases hend : c.rest = []
    · obtain ⟨ch, hch, hpeek⟩ := h.peek?_of_end hend
      have hmark : ∀ ch ∈ gaps, markOf? ch = none := forall_mem_gaps.mpr (by decide)
      rw [peek?_eq_none hend, hpeek]
      dsimp only
      rw [hmark ch hch, isDecimalDigit_of_mem_gaps ch hch]
      exact follows_readDecimal h _
    · rw [h.peek? hend]
      split
      · split
        · exact follows_readMarked (h.skip hend) _ _
        · split
          · exact follows_readZeroLed h
          · exact follows_readDecimal h _
      · exact follows_readDecimal h _
  · exact follows_readDecimal h _

end Numeral

end EcmaEval
