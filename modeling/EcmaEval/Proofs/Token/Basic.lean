import Mathlib.Data.List.DropRight
import Mathlib.Data.List.Infix
import EcmaEval.Proofs.Syntax.Forward
import EcmaEval.Proofs.Syntax.ShownToken

/-!
# Calls of a lexer, and what stands before a token

A lexer is called again and again: for the next token, for a regular expression, or for the part of
a template behind a substitution.  Whoever calls it decides which, so that statements about a lexer
are about all sequences of calls.

An escape sequence that needs more characters is open.  What stands next is taken into it before it is
known to belong there, so that a line end may be passed by an escape sequence that it breaks off.

A reader of tokens passes blanks and comments of one line.  Then it is at the end of the text, at the
end of a line, or at the first character of a token.  A comment with a line end in it counts as one,
and one that runs to the end of a line has nothing but that behind it.

## Main definitions

* `Lexer.Call`, `Lexer.run`: sequences of calls
* `Escape.isOpen`: the text behind a backslash begins an escape sequence
* `Text.BreaksEscape`: an open escape sequence stands before a mark
* `Cursor.Moves`: a text was passed from one cursor to another, character by character
* `Lexer.IsGap`: blanks and comments of one line
* `Lexer.BeginsToken`: a character at which neither a blank nor a comment nor a line end stands
* `Lexer.NextEnds`: how reading a token ends

## Main results

* `Lexer.nextEnds_next`: where reading a token comes to
* `Lexer.exists_next_eq`: a gap does not matter to the token behind it
-/

namespace EcmaEval

open Scan

/-! ## Calls -/

namespace Lexer

/-- What a lexer may be called for. -/
inductive Call where
  | next
  | regExp
  | continuation
  deriving DecidableEq, Repr

/-- The token that a call gives at a cursor. -/
def Call.read : Call → Cursor → Result Token
  | .next => Lexer.next
  | .regExp => readRegExp
  | .continuation => readTemplateContinuation

/-- The tokens that calls give one behind the other, up to the first one that fails, each with the text
it was read from. -/
def run : List Call → Cursor → Result (List (Token × List Char))
  | [], c => .ok [] c
  | call :: calls, c =>
    match call.read c with
    | .ok token d => (run calls d).map ((token, c.between d) :: ·)
    | .error e d => .error e d

variable {call : Call} {calls : List Call} {token : Token} {found : List (Token × List Char)}
  {c d e : Cursor}

/-- The first of some calls succeeds, and the others do behind it. -/
theorem exists_of_run_cons (h : run (call :: calls) c = .ok found d) :
    ∃ token e more, call.read c = .ok token e ∧ run calls e = .ok more d ∧
      found = (token, c.between e) :: more := by
  unfold run at h
  split at h
  · next token e hread =>
    cases hrun : run calls e with
    | ok more d' =>
      rw [hrun] at h
      cases h
      exact ⟨token, e, more, hread, hrun, rfl⟩
    | error =>
      rw [hrun] at h
      cases h
  · cases h

end Lexer

/-! ## Line ends -/

namespace Text

variable {ch : Char} {p : Char → Bool}

/-- The characters that end a line. -/
def lineEndChars : List Char := ['\n', '\r', '\u2028', '\u2029']

theorem forall_mem_lineEndChars {p : Char → Prop} :
    (∀ ch ∈ lineEndChars, p ch) ↔ p '\n' ∧ p '\r' ∧ p '\u2028' ∧ p '\u2029' := by
  simp [lineEndChars]

theorem mem_lineEndChars_of_isLineEnd (h : isLineEnd ch = true) : ch ∈ lineEndChars := by
  simp only [isLineEnd, Bool.or_eq_true, beq_iff_eq] at h
  simp only [lineEndChars, List.mem_cons, List.not_mem_nil, or_false]
  rcases h with ((rfl | rfl) | h) | h
  · exact .inl rfl
  · exact .inr (.inl rfl)
  · exact .inr (.inr (.inl (Char.toNat_inj.mp h)))
  · exact .inr (.inr (.inr (Char.toNat_inj.mp h)))

/-- A class that has none of these characters. -/
theorem isLineEnd_eq_false (hp : ∀ ch ∈ lineEndChars, p ch = false) (h : p ch = true) :
    isLineEnd ch = false := by
  rw [Bool.eq_false_iff]
  intro hline
  rw [hp ch (mem_lineEndChars_of_isLineEnd hline)] at h
  cases h

end Text

/-! ## Open escape sequences -/

namespace Escape

/-- The character is a hexadecimal digit. -/
def isHex (ch : Char) : Bool := (hexValue? ch).isSome

/-- Behind a backslash the text begins an escape sequence that needs another character.  Two
characters are taken behind an `x` before either is looked at. -/
def isOpen : List Char → Bool
  | ['x'] | ['x', _] => true
  | 'u' :: '\x7b' :: digits => digits.all isHex
  | 'u' :: digits => decide (digits.length < 4) && digits.all isHex
  | _ => false

theorem isOpen_quad {digits : List Char} (hlength : digits.length < 4)
    (hdigits : digits.all isHex = true) : isOpen ('u' :: digits) = true := by
  unfold isOpen
  split
  · rfl
  · rfl
  · next heq =>
    cases heq
    rw [List.all_cons] at hdigits
    exact (Bool.and_eq_true_iff.mp hdigits).2
  · next heq =>
    cases heq
    simp [hlength, hdigits]
  · simp_all

end Escape

/-- Behind the first part of an escape sequence, every line end in the text stands directly behind an
open one. -/
def Escape.Opens (before text : List Char) : Prop :=
  ∀ front ch back, text = front ++ ch :: back → Text.isLineEnd ch = true →
    isOpen (before ++ front) = true

theorem Escape.Opens.nil (before : List Char) : Opens before [] :=
  fun _ _ _ heq => absurd heq.symm (List.append_ne_nil_of_right_ne_nil _ (List.cons_ne_nil _ _))

theorem Escape.Opens.cons {before text : List Char} {ch : Char}
    (hch : Text.isLineEnd ch = true → isOpen before = true) (h : Opens (before ++ [ch]) text) :
    Opens before (ch :: text) := by
  rintro (_ | ⟨ch', front⟩) ch'' back heq hline
  · obtain ⟨rfl, -⟩ := List.cons.inj heq
    rw [List.append_nil]
    exact hch hline
  · obtain ⟨rfl, htext⟩ := List.cons.inj heq
    rw [List.append_cons]
    exact h front ch'' back htext hline

/-- An open escape sequence of the text stands directly before the mark.  This goes by the text alone,
so that a backslash in a comment counts, and one behind another backslash.  How many backslashes stand
in a row does not tell which of them begins an escape sequence, because a sequence that is broken off
takes the backslash along that breaks it off. -/
def Text.BreaksEscape (mark text : List Char) : Prop :=
  ∃ escape, Escape.isOpen escape = true ∧ '\\' :: (escape ++ mark) <:+: text

namespace Text.BreaksEscape

variable {mark text text' : List Char}

theorem mono (h : BreaksEscape mark text) (htext : text <:+: text') : BreaksEscape mark text' :=
  let ⟨escape, hopen, hinfix⟩ := h
  ⟨escape, hopen, hinfix.trans htext⟩

/-- An escape sequence that is broken off begins behind some backslash of the text. -/
theorem iff_exists_mem : BreaksEscape mark text ↔ ∃ rest ∈ text.tails, ∃ escape ∈ rest.tail.inits,
    rest.head? = some '\\' ∧ Escape.isOpen escape = true ∧
      mark <+: rest.tail.drop escape.length := by
  constructor
  · rintro ⟨escape, hopen, front, back, rfl⟩
    refine ⟨'\\' :: (escape ++ mark ++ back), List.mem_tails _ _ |>.mpr ⟨front, by simp⟩, escape,
      List.mem_inits _ _ |>.mpr ⟨mark ++ back, by simp⟩, rfl, hopen, ?_⟩
    simp
  · rintro ⟨rest, hrest, escape, hescape, hhead, hopen, hmark⟩
    obtain ⟨front, rfl⟩ := List.mem_tails _ _ |>.mp hrest
    cases rest with
    | nil => cases hhead
    | cons ch rest =>
      cases hhead
      obtain ⟨back, rfl⟩ := List.mem_inits _ _ |>.mp hescape
      obtain ⟨back', hback⟩ := hmark
      refine ⟨escape, hopen, front, back', ?_⟩
      rw [List.tail_cons, List.drop_left] at hback
      simp [← hback]

instance : Decidable (BreaksEscape mark text) :=
  decidable_of_iff _ iff_exists_mem.symm

end Text.BreaksEscape

/-! ## Texts that are passed -/

namespace Cursor

variable {c d e : Cursor} {ch : Char} {taken taken' : List Char}

theorem skipIf?_of_rest {rest : List Char} (h : c.rest = ch :: rest) :
    c.skipIf? ch = some c.skip ∧ c.skip.rest = rest := by
  refine ⟨?_, rest_skip h⟩
  rw [skipIf?, peek?_of_rest h, if_pos (beq_self_eq_true _)]

/-- A carriage return and a line feed end one line. -/
theorem breakLine_pair (h : c.peek? = some '\n') :
    c.breakLine '\r' = { c.skip with line := c.skip.line + 1, column := 0 } := by
  simp [Cursor.breakLine, Cursor.skipIf?, h]

theorem breakLine_single (h : ch = '\r' → c.peek? ≠ some '\n') :
    c.breakLine ch = { c with line := c.line + 1, column := 0 } := by
  unfold Cursor.breakLine Cursor.skipIf?
  split
  · next hreturn =>
    rw [if_neg fun hfeed => h (eq_of_beq hreturn) (eq_of_beq hfeed)]
    rfl
  · rfl

/-- The text was passed from the first cursor to the second one, character by character. -/
structure Moves (c : Cursor) (taken : List Char) (d : Cursor) : Prop where
  rest : c.rest = taken ++ d.rest
  offset : d.offset = c.offset + byteCount taken
  line : d.line = c.line
  column : d.column = c.column + taken.length

namespace Moves

theorem refl (c : Cursor) : c.Moves [] c := ⟨rfl, rfl, rfl, rfl⟩

theorem trans (h : c.Moves taken d) (h' : d.Moves taken' e) : c.Moves (taken ++ taken') e where
  rest := by rw [h.rest, h'.rest, List.append_assoc]
  offset := by rw [h'.offset, h.offset, byteCount_append, Nat.add_assoc]
  line := h'.line.trans h.line
  column := by rw [h'.column, h.column, List.length_append, Nat.add_assoc]

theorem next? (h : c.next? = some (ch, d)) : c.Moves [ch] d := by
  obtain ⟨rest, hrest⟩ : ∃ rest, c.rest = ch :: rest := ⟨_, rest_of_next? h⟩
  rw [next?_of_cons hrest] at h
  cases h
  exact ⟨hrest, by rw [byteCount_cons]; rfl, rfl, rfl⟩

theorem cons (hnext : c.next? = some (ch, d)) (h : d.Moves taken e) : c.Moves (ch :: taken) e :=
  (next? hnext).trans h

theorem skip (h : c.peek? = some ch) : c.Moves [ch] c.skip := by
  obtain ⟨rest, hrest⟩ := List.head?_eq_some_iff.mp h
  obtain ⟨d, hd, -⟩ := exists_next? hrest
  rw [skip_of_next? hd]
  exact .next? hd

theorem skipIf? (h : c.skipIf? ch = some d) : c.Moves [ch] d := by
  unfold Cursor.skipIf? at h
  split at h
  · next hpeek =>
    cases h
    exact .skip (eq_of_beq hpeek)
  · cases h

theorem span (c : Cursor) (p : Char → Bool) : c.Moves (c.span p).1 (c.span p).2 :=
  ⟨List.takeWhile_append_dropWhile.symm, rfl, rfl, rfl⟩

end Moves

end Cursor

namespace Lexer

open Cursor

variable {start c d e : Cursor} {ch : Char} {gap body cs : List Char}

/-! ## Gaps -/

/-- Blanks and comments of one line. -/
inductive IsGap : List Char → Prop where
  | nil : IsGap []
  | blank {ch : Char} {gap : List Char} (hch : Text.isSeparator ch = true) (h : IsGap gap) :
    IsGap (ch :: gap)
  | comment {body gap : List Char} (hline : body.all onLine = true)
    (hclose : ¬['*', '/'] <:+: body) (h : IsGap gap) :
    IsGap ('/' :: '*' :: (body ++ '*' :: '/' :: gap))

theorem IsGap.blanks {blanks : List Char} (hblanks : ∀ ch ∈ blanks, Text.isSeparator ch = true)
    (h : IsGap gap) : IsGap (blanks ++ gap) := by
  induction blanks with
  | nil => exact h
  | cons ch blanks ih =>
    rw [List.forall_mem_cons] at hblanks
    exact .blank hblanks.1 (ih hblanks.2)

/-- A comment that counts as a gap has no line end, and it ends at the first closing mark. -/
theorem exists_of_skipBlockComment {seenLine : Bool}
    (h : skipBlockComment c seenLine = .ok false d) :
    seenLine = false ∧ ∃ body, c.Moves (body ++ ['*', '/']) d ∧ body.all onLine = true ∧
      ¬['*', '/'] <:+: body := by
  fun_induction skipBlockComment c seenLine with
  | case1 => cases h
  | case2 c seenLine ch e hnext _ _ hclose =>
    cases h
    obtain ⟨hstar, hslash⟩ := Bool.and_eq_true_iff.mp hclose
    obtain rfl := eq_of_beq hstar
    exact ⟨rfl, [], Moves.cons hnext (.skip (eq_of_beq hslash)), rfl, by decide⟩
  | case3 c seenLine ch e hnext _ _ hclose hline ih => cases (ih h).1
  | case4 c seenLine ch e hnext _ _ hclose hline ih =>
    obtain ⟨rfl, body, hmove, hall, hbody⟩ := ih h
    refine ⟨rfl, ch :: body, .cons hnext hmove, ?_, ?_⟩
    · rw [List.all_cons, hall, onLine, Bool.eq_false_iff.mpr hline]
      rfl
    · -- The first mark would stand across the front of the body, or in the rest of it.
      rw [List.infix_cons_iff, List.cons_prefix_cons]
      rintro (⟨rfl, rest, rfl⟩ | hinfix)
      · refine hclose ?_
        rw [peek?_of_rest hmove.rest]
        rfl
      · exact hbody hinfix

/-- The text of such a comment is passed. -/
theorem exists_skipBlockComment_eq_ok (hline : body.all onLine = true)
    (hclose : ¬['*', '/'] <:+: body) (hrest : c.rest = body ++ '*' :: '/' :: cs) :
    ∃ d, skipBlockComment c false = .ok false d ∧ c.Moves (body ++ ['*', '/']) d ∧
      d.rest = cs := by
  induction body generalizing c with
  | nil =>
    obtain ⟨d, hnext, hd⟩ := exists_next? hrest
    have hslash := peek?_of_rest hd
    refine ⟨d.skip, ?_, Moves.cons hnext (.skip hslash), rest_skip hd⟩
    rw [skipBlockComment_of_next? hnext, hslash]
    rfl
  | cons ch body ih =>
    obtain ⟨e, hnext, he⟩ := exists_next? hrest
    rw [List.all_cons, Bool.and_eq_true] at hline
    rw [List.infix_cons_iff, not_or] at hclose
    obtain ⟨d, hskip, hmove, hd⟩ := ih hline.2 hclose.2 he
    refine ⟨d, ?_, .cons hnext hmove, hd⟩
    -- A star that is followed by a slash would end the comment here.
    have hopen : ¬(ch == '*' && e.peek? == some '/') = true := by
      rw [Bool.and_eq_true, beq_iff_eq, beq_iff_eq, Cursor.peek?, he]
      rintro ⟨rfl, hslash⟩
      cases body with
      | nil => cases hslash
      | cons ch body =>
        obtain rfl := Option.some.inj hslash
        exact hclose.1 ⟨body, rfl⟩
    rw [skipBlockComment_of_next? hnext, if_neg hopen, if_neg (by simpa [onLine] using hline.1)]
    exact hskip

/-! ## The first character of a token -/

/-- Neither a blank nor a comment nor a line end stands at the cursor `c`; `ch` is the character there
and `d` the cursor behind it. -/
structure BeginsToken (c : Cursor) (ch : Char) (d : Cursor) : Prop where
  next? : c.next? = some (ch, d)
  blank : Text.isSeparator ch = false
  line : Text.isLineEnd ch = false
  comment : ch = '/' → d.peek? ≠ some '/' ∧ d.peek? ≠ some '*'
  bang : ch = '#' → c.offset = 0 → d.peek? ≠ some '!'

/-- How reading a token ends. -/
inductive NextEnds (start : Cursor) : Result Token → Prop where
  | endOfInput {d : Cursor} (h : d.rest = []) : NextEnds start (.ok .endOfInput d)
  | lineEnd {d : Cursor} : NextEnds start (.ok .lineEnd d)
  | comment {d : Cursor} : NextEnds start (stopAtEnd .unterminatedComment d)
  | token {gap : List Char} {c d : Cursor} {ch : Char} (hgap : IsGap gap)
    (hmove : start.Moves gap c) (hbegins : BeginsToken c ch d) : NextEnds start (readAt c ch d)

/-- Behind a gap reading ends as it does there. -/
theorem NextEnds.behind {result : Result Token} (h : NextEnds c result)
    (hmove : start.Moves gap c) (hgap : ∀ {gap'}, IsGap gap' → IsGap (gap ++ gap')) :
    NextEnds start result := by
  cases h with
  | endOfInput h => exact .endOfInput h
  | lineEnd => exact .lineEnd
  | comment => exact .comment
  | token hgap' hmove' hbegins => exact .token (hgap hgap') (hmove.trans hmove') hbegins

/-- What stands behind the characters of a class is none of them. -/
theorem next?_skipWhile_eq_false {p : Char → Bool} (h : (c.skipWhile p).next? = some (ch, d)) :
    p ch = false := by
  have hdrop : c.rest.dropWhile p = ch :: d.rest := rest_of_next? h
  have hhead := List.head?_dropWhile_not p c.rest
  rw [hdrop] at hhead
  exact hhead

theorem isSeparator_of_isLineEnd (h : Text.isLineEnd ch = true) : Text.isSeparator ch = false := by
  have hmark : ch ≠ Text.byteOrderMark := by
    rintro rfl
    exact absurd h (by decide)
  simp [Text.isSeparator, h, hmark]

/-- Behind the rest of a line there is its end, or nothing. -/
theorem next_skipWhile_onLine (c : Cursor) :
    (∃ d, next (c.skipWhile onLine) = .ok .endOfInput d ∧ d.rest = []) ∨
      ∃ d, next (c.skipWhile onLine) = .ok .lineEnd d := by
  cases hnext : (c.skipWhile onLine).next? with
  | none =>
    have hend := rest_of_next?_eq_none hnext
    exact .inl ⟨_, next_of_end hend, hend⟩
  | some found =>
    obtain ⟨ch, d⟩ := found
    have hline : Text.isLineEnd ch = true := by simpa [onLine] using next?_skipWhile_eq_false hnext
    have hrest := rest_of_next? hnext
    have hskip : ((c.skipWhile onLine).skipWhile Text.isSeparator).rest = ch :: d.rest := by
      change (c.skipWhile onLine).rest.dropWhile Text.isSeparator = _
      rw [hrest, List.dropWhile_cons_of_neg]
      rw [isSeparator_of_isLineEnd hline]
      exact Bool.false_ne_true
    obtain ⟨e, hnext', -⟩ := exists_next? hskip
    refine .inr ⟨e.breakLine ch, ?_⟩
    rw [next_of_next? rfl hnext', if_pos hline]

theorem skipBlockComment_eq_error {x : LexError} {seenLine : Bool}
    (h : skipBlockComment c seenLine = .error x d) : x = ⟨.unterminatedComment, true⟩ := by
  fun_induction skipBlockComment c seenLine with
  | case1 =>
    cases h
    rfl
  | case2 => cases h
  | case3 c seenLine ch e hnext _ _ hclose hline ih => exact ih h
  | case4 c seenLine ch e hnext _ _ hclose hline ih => exact ih h

/-- Reading a token comes to the end of the text or of a line, or to the first character of the token
behind a gap. -/
theorem nextEnds_next (start : Cursor) : NextEnds start (next start) := by
  have hblanks (c : Cursor) {gap : List Char} (h : IsGap gap) :
      IsGap ((c.span Text.isSeparator).1 ++ gap) :=
    .blanks (fun _ => List.mem_takeWhile_imp) h
  have hline (start c : Cursor) : NextEnds start (next (c.skipWhile onLine)) := by
    rcases next_skipWhile_onLine c with ⟨d, hd, hend⟩ | ⟨d, hd⟩
    · rw [hd]
      exact .endOfInput hend
    · rw [hd]
      exact .lineEnd
  fun_induction next start with
  | case1 start c _ hnext => exact .endOfInput (rest_of_next?_eq_none hnext)
  | case2 => exact .lineEnd
  | case3 => exact hline _ _
  | case4 => exact .lineEnd
  | case5 start c _ ch d hnext _ _ hend hslash hblock e hcomment _ _ ih =>
    obtain ⟨hch, hstar⟩ := Bool.and_eq_true_iff.mp hblock
    obtain rfl := eq_of_beq hch
    obtain ⟨-, body, hmove, hbody, hclose⟩ := exists_of_skipBlockComment hcomment
    refine ih.behind (.trans (.span start Text.isSeparator) (.cons hnext
      (.trans (.skip (eq_of_beq hstar)) hmove))) fun hgap => ?_
    rw [List.append_assoc]
    have hgap' := IsGap.comment hbody hclose hgap
    exact hblanks start (by simpa using hgap')
  | case6 start c _ ch d hnext _ _ hend hslash hblock x e hcomment =>
    rw [skipBlockComment_eq_error hcomment]
    exact .comment
  | case7 => exact hline _ _
  | case8 start c _ ch d hnext _ _ hend hslash hblock hbang =>
    have hgap := hblanks start .nil
    rw [List.append_nil] at hgap
    refine .token hgap (.span start _) ⟨hnext, next?_skipWhile_eq_false hnext,
      Bool.eq_false_iff.mpr hend, ?_, ?_⟩
    · rintro rfl
      exact ⟨fun h => hslash (by simp [h]), fun h => hblock (by simp [h])⟩
    · rintro rfl hzero h
      exact hbang (by simp [hzero, h])

/-! ## Behind a gap -/

/-- The cursor behind a class of characters, when the next one is in the class. -/
theorem skipWhile_of_next? {p : Char → Bool} (h : c.next? = some (ch, d)) (hch : p ch = true) :
    c.skipWhile p = d.skipWhile p := by
  obtain ⟨⟨line, column, offset⟩, rest⟩ := c
  cases rest with
  | nil => cases h
  | cons ch' rest =>
    cases h
    simp [Cursor.skipWhile, Cursor.span, hch, byteCount_cons, Nat.add_assoc, Nat.add_comm 1]

theorem skipWhile_of_next?_eq_false {p : Char → Bool} (h : c.next? = some (ch, d))
    (hch : p ch = false) : c.skipWhile p = c := by
  obtain ⟨⟨line, column, offset⟩, rest⟩ := c
  cases rest with
  | nil => cases h
  | cons ch' rest =>
    cases h
    simp [Cursor.skipWhile, Cursor.span, hch, byteCount]

theorem next_of_next?_eq_none (h : (start.skipWhile Text.isSeparator).next? = none) :
    next start = .ok .endOfInput (start.skipWhile Text.isSeparator) := by
  rw [next]
  split
  · rfl
  · next h' => rw [h] at h'; cases h'

theorem next_congr (h : c.skipWhile Text.isSeparator = d.skipWhile Text.isSeparator) :
    next c = next d := by
  cases hnext : (c.skipWhile Text.isSeparator).next? with
  | none => rw [next_of_next?_eq_none hnext, next_of_next?_eq_none (h ▸ hnext), h]
  | some found =>
    obtain ⟨ch, e⟩ := found
    rw [next_of_next? rfl hnext, next_of_next? h.symm hnext]

/-- At the first character of a token that is read. -/
theorem BeginsToken.next_eq (h : BeginsToken c ch d) : next c = readAt c ch d := by
  rw [next_of_next? (skipWhile_of_next?_eq_false h.next? h.blank) h.next?,
    if_neg (Bool.eq_false_iff.mp h.line), if_neg, if_neg, if_neg]
  · rw [Bool.and_eq_true, Bool.and_eq_true, beq_iff_eq, beq_iff_eq, beq_iff_eq]
    exact fun ⟨⟨hch, hzero⟩, hbang⟩ => h.bang hch hzero hbang
  · rw [Bool.and_eq_true, beq_iff_eq, beq_iff_eq]
    exact fun ⟨hch, hstar⟩ => (h.comment hch).2 hstar
  · rw [Bool.and_eq_true, beq_iff_eq, beq_iff_eq]
    exact fun ⟨hch, hslash⟩ => (h.comment hch).1 hslash

/-- A gap does not matter to the token behind it. -/
theorem exists_next_eq (hgap : IsGap gap) (hrest : start.rest = gap ++ cs) :
    ∃ c, start.Moves gap c ∧ c.rest = cs ∧ next start = next c := by
  induction hgap generalizing start with
  | nil => exact ⟨start, .refl start, hrest, rfl⟩
  | blank hch _ ih =>
    obtain ⟨d, hnext, hd⟩ := exists_next? hrest
    obtain ⟨c, hmove, hc, heq⟩ := ih hd
    exact ⟨c, .cons hnext hmove, hc, (next_congr (skipWhile_of_next? hnext hch)).trans heq⟩
  | @comment body gap hline hclose _ ih =>
    rw [List.cons_append, List.cons_append, List.append_assoc] at hrest
    obtain ⟨d, hnext, hd⟩ := exists_next? hrest
    have hstar := peek?_of_rest hd
    obtain ⟨e, hcomment, hmove, he⟩ := exists_skipBlockComment_eq_ok hline hclose (rest_skip hd)
    obtain ⟨c, hmove', hc, heq⟩ := ih he
    refine ⟨c, ?_, hc, ?_⟩
    · have h := Moves.cons hnext (.trans (.skip hstar) (hmove.trans hmove'))
      simpa using h
    · rw [← heq, next_of_next? (skipWhile_of_next?_eq_false hnext (by decide)) hnext, hstar,
        if_neg (by decide), if_neg (by decide), if_pos (by decide), hcomment]

end Lexer

end EcmaEval
