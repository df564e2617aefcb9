import EcmaEval.Proofs.Flags.Readers
import EcmaEval.Proofs.Syntax.ContinuedToken
import EcmaEval.Proofs.Syntax.InStepStatement

/-!
# Texts that more lines complete

A text that is no program may only have stopped too early.  If its error does not say so, then no
lines behind it make it a program.

A text that ends in a line feed is compared with one that goes on behind it.  Both have the same tokens
before the line feed.  There the shorter text ends, or it fails because a token is not closed, and the
longer one goes on in another line.  The texts have no backslash before the line feed: a broken escape
could take it along.

An error at the end of a text says that the text stopped too early, whatever its cause is.  But nothing
makes up for a jump that cannot be where it stands, for a label that stands there already, for `let` as
the name of a variable or for the end of the line behind `throw`.  So a text may be said to have stopped
too early that no lines complete.

## Main definitions

* `Pairing.continued`: the readings of a text and of one that goes on
* `Cursor.BeforeFeed`: the same place before the line feed
* `Scan.BeforeFeed`: the readers find the same before the line feed, or the first one fails
* `Pairing.stopped`: the readings of a text that ends in a line feed and of one that goes on

## Main results

* `Program.ofText_error_of_complete`: an error that is not marked incomplete is final
* `Lexer.beforeFeed_nextOnLine`: the next token
* `Lexer.beforeFeed_readRegExp`, `Lexer.beforeFeed_readTemplatePart`: the tokens of a special kind
* `Program.ofText_error_of_completed`: the error of a text that lines complete says so
* `Program.ofText_error_of_stopped`: nothing completes a text with such an error
* `Program.ofText_error_of_break`: of a `break` outside of all loops it is said that it stopped too
  early
-/

namespace EcmaEval

variable {l t : List Char}

/-- The second reading is at the same place of a text that goes on, or the first one is behind the
last token of its text. -/
structure Reading.Continues (l t : List Char) (r r' : Reading) : Prop where
  current_eq : r'.current = r.current
  afterLineEnd_eq : r'.afterLineEnd = r.afterLineEnd
  isEnd : r.current.isEnd = false
  cursor : r.cursor.Continues l t r'.cursor
  /-- A bracket is closed at the same place, even at the end of the shorter text. -/
  closed : r.current.isMark .rightParen = true → r.cursor.SamePlace l t r'.cursor

/-- Results in a text that goes on are in step, as far as errors at the end of the text are
excused. -/
theorem Scan.Continues.alike {α : Type} {pairs : α → Cursor → α → Cursor → Prop}
    {result result' : Scan.Result α} (h : Scan.Continues l t result result')
    (hpairs : ∀ x d d', result = .ok x d → result' = .ok x d' → d.Continues l t d' →
      pairs x d x d') :
    Scan.Alike (fun e => e.incomplete = true) (fun e e' => e'.cause = e.cause) pairs result
      result' := by
  cases h with
  | ok h => exact .ok (hpairs _ _ _ rfl rfl h)
  | excused h => exact .excused h
  | failed h => exact .failed rfl

variable [ht : Text.Apart t]

/-- The next tokens keep readings in step, unless the first one ends. -/
theorem Lexer.alike_nextOnLine {c c' : Cursor} (h : c.Continues l t c') :
    (∃ line d, nextOnLine c false = .ok (.endOfInput, line) d) ∨
      Scan.Alike (fun e => e.incomplete = true) (fun e e' => e'.cause = e.cause)
        (fun found d found' d' =>
          Reading.Continues l t ⟨found.1, found.2, d⟩ ⟨found'.1, found'.2, d'⟩)
        (nextOnLine c false) (nextOnLine c' false) := by
  cases h with
  | ended hend =>
    obtain ⟨line, d, hd, -⟩ := (ends_of_end hend).endsOnLine false
    exact .inl ⟨line, d, hd⟩
  | same hsame =>
    refine or_iff_not_imp_left.mpr fun hend => ?_
    have hresult := (goesOn_nextOnLine hsame false).resolve_left fun ⟨line, d, hd, _⟩ =>
      hend ⟨line, d, hd⟩
    refine hresult.continues.alike fun found d d' hfound hfound' hd => ?_
    obtain ⟨token, line⟩ := found
    refine ⟨rfl, rfl, ?_, hd, fun hmark => ?_⟩
    · cases token with
      | endOfInput => exact absurd ⟨line, d, hfound⟩ hend
      | _ => rfl
    · exact hresult.samePlace (Token.eq_of_isMark hmark) hfound hfound'

/-- The readings of a text and of one that goes on.  An error at the end of the first one says that
it stopped too early. -/
def Pairing.continued (l t : List Char) [Text.Apart t] : Pairing where
  Pairs := Reading.Continues l t
  Same token token' := token' = token
  Ended r := r.current = .endOfInput
  Ending r := ∃ line d, Lexer.nextOnLine r.cursor false = .ok (.endOfInput, line) d
  Excused e := e.incomplete = true
  Corresponds e e' := e'.cause = e.cause
  alike := @Token.Alike.of_eq
  current_same h := h.current_eq
  afterLineEnd_eq h := h.afterLineEnd_eq
  replaceCurrent h _ hsame := ⟨hsame, h.afterLineEnd_eq, rfl, h.cursor, nofun⟩
  corresponds _ _ _ := rfl
  unexpected h := congrArg SyntaxCause.unexpected h.current_eq
  current_of_ended h := h
  excused _ h _ := h
  ending := fun ⟨line, d, h⟩ => ⟨line, d, h, rfl⟩
  lineEnd _ _ := .inl fun _ h => h
  next h _ := Lexer.alike_nextOnLine h.cursor
  special := by
    intro r r' read hread hpairs hspecial
    have hcontinues : Scan.Continues l t (read r.cursor) (read r'.cursor) := by
      cases hpairs.cursor with
      | same hsame =>
        rcases hread with rfl | rfl
        · exact Lexer.continues_readRegExp hsame
        · exact Lexer.continues_readTemplatePart hsame _ _
      | ended hend =>
        -- Neither kind of token ends at once.
        rcases hread with rfl | rfl
        · rw [Lexer.readRegExp_of_end hend]
          exact .excused rfl
        · rw [Lexer.readTemplateContinuation_of_end hend]
          exact .excused rfl
    refine hcontinues.alike fun _ d d' _ _ hd =>
      ⟨rfl, hpairs.current_eq, hpairs.afterLineEnd_eq, hpairs.isEnd, hd, fun hmark => ?_⟩
    -- No token of a special kind begins with a closing bracket.
    rw [Token.eq_of_isMark hmark] at hspecial
    cases hspecial

/-- A whole text goes on with what is written behind it. -/
theorem Cursor.samePlace_ofText (source more : String) :
    SamePlace source.toList more.toList (ofText source) (ofText (source ++ more)) where
  suffix := List.suffix_rfl
  rest := String.toList_append
  offset := Iff.rfl

/-- An error that is not marked incomplete stands in the longer text too. -/
theorem Grammar.program_error_of_complete {depth depth' : Nat} {c : Context}
    {start start' : Cursor} (hstart : start.SamePlace l t start')
    (hdepth : start.rest.length < depth) (hdepth' : start.rest.length < depth') {e : SyntaxError}
    (h : program (.ofDepth depth) c ⟨.endOfInput, false, start⟩ = .error e)
    (hcomplete : e.incomplete = false) :
    ∃ e', program (.ofDepth depth') c ⟨.endOfInput, false, start'⟩ = .error e' := by
  have hfirst := Lexer.alike_nextOnLine (.same hstart)
  obtain ⟨r, houtcome⟩ := outcome_program (P := .continued l t) hdepth hdepth'
    (hfirst.imp_left fun ⟨line, d, hend⟩ => ⟨line, d, hend, rfl⟩)
  exact houtcome.exists_error h (Bool.eq_false_iff.mp hcomplete)

/-- Of a text that lines complete the error says that it stopped too early. -/
theorem Program.incomplete_of_completed {options : ParseOptions} {source more : String}
    {e : SyntaxError} {p : Program} (h : Program.ofText options source = .error e)
    (hmore : Program.ofText options (source ++ "\n" ++ more) = .ok p) : e.incomplete = true := by
  by_contra hcomplete
  rw [Bool.not_eq_true] at hcomplete
  have hlines : ("\n" ++ more).toList = '\n' :: more.toList := by
    rw [String.toList_append]
    rfl
  have hstart := Cursor.samePlace_ofText source ("\n" ++ more)
  rw [hlines, ← String.append_assoc] at hstart
  rw [Program.ofText_eq] at h hmore
  generalize Cursor.ofText source = start at h hstart
  generalize Cursor.ofText (source ++ "\n" ++ more) = start' at hmore hstart
  have hdepth : start.rest.length < start'.rest.length + 2 := by
    rw [hstart.rest, List.length_append]
    omega
  split at h
  · cases h
  · next hprogram =>
    cases h
    obtain ⟨e', he'⟩ := Grammar.program_error_of_complete hstart
      (Nat.lt_add_of_pos_right (Nat.zero_lt_two)) hdepth hprogram hcomplete
    rw [he'] at hmore
    cases hmore

/-- A text that is no program, and whose error does not say that it stopped too early, begins no
program. -/
theorem Program.ofText_error_of_complete {options : ParseOptions} {source : String}
    {e : SyntaxError} (h : Program.ofText options source = .error e)
    (hcomplete : e.incomplete = false) (more : String) :
    ∃ e', Program.ofText options (source ++ "\n" ++ more) = .error e' := by
  cases hmore : Program.ofText options (source ++ "\n" ++ more) with
  | error e' => exact ⟨e', rfl⟩
  | ok p =>
    rw [Program.incomplete_of_completed h hmore] at hcomplete
    cases hcomplete

/-- A declaration without a name is refused, whatever follows it. -/
theorem Program.ofText_error_of_complete_unnamed :
    (∃ e, Program.ofText {} "let = ;" = .error e ∧ e.incomplete = false) ∧
      ∃ e', Program.ofText {} ("let = ;" ++ "\n" ++ "x = 1;") = .error e' := by
  have hrefused : (match Program.ofText {} "let = ;" with
      | .ok _ => false
      | .error e => !e.incomplete) = true := by
    decide +kernel
  cases hresult : Program.ofText {} "let = ;" with
  | ok p =>
    rw [hresult] at hrefused
    cases hrefused
  | error e =>
    rw [hresult] at hrefused
    have hcomplete : e.incomplete = false := by simpa using hrefused
    exact ⟨⟨e, rfl, hcomplete⟩, Program.ofText_error_of_complete hresult hcomplete "x = 1;"⟩

end EcmaEval

/-! # Texts that end in a line feed -/

namespace EcmaEval

variable {α β : Type} {l u : List Char} {c c' d d' : Cursor} {ch : Char}

/-! ## Cursors -/

namespace Cursor

/-- The cursors are at the same place before the line feed with which the first text ends.  The second
one goes on with `u` behind it. -/
def BeforeFeed (l u : List Char) (c c' : Cursor) : Prop :=
  ∃ start : Cursor, start.SamePlace l ['\n'] c ∧ start.SamePlace l ('\n' :: u) c'

namespace BeforeFeed

theorem rest_ne (h : c.BeforeFeed l u c') : c.rest ≠ [] := by
  obtain ⟨start, h, -⟩ := h
  rw [h.rest]
  exact List.append_ne_nil_of_right_ne_nil _ (List.cons_ne_nil _ _)

theorem peek? (h : c.BeforeFeed l u c') : c'.peek? = c.peek? := by
  obtain ⟨start, h, h'⟩ := h
  unfold Cursor.peek?
  rw [h.rest, h'.rest]
  cases start.rest <;> rfl

theorem beq_offset (h : c.BeforeFeed l u c') : (c'.offset == 0) = (c.offset == 0) := by
  obtain ⟨start, h, h'⟩ := h
  rw [h.beq_offset, h'.beq_offset]

/-- The next character is the same.  Behind it the line feed is left, unless it was the next one. -/
theorem next? (h : c.BeforeFeed l u c') (hnext : c.next? = some (ch, d)) :
    ∃ d', c'.next? = some (ch, d') ∧ (d.BeforeFeed l u d' ∨ ch = '\n' ∧ d.rest = []) := by
  obtain ⟨start, h, h'⟩ := h
  cases hstart : start.next? with
  | none =>
    have hrest := h.rest
    have hrest' := h'.rest
    rw [rest_of_next?_eq_none hstart, List.nil_append] at hrest hrest'
    obtain ⟨rfl, hd⟩ := List.cons.inj ((rest_of_next? hnext).symm.trans hrest)
    exact ⟨_, next?_of_cons hrest', .inr ⟨rfl, hd⟩⟩
  | some found =>
    obtain ⟨d₁, hnext₁, hd⟩ := h.next? hstart
    obtain ⟨d', hnext', hd'⟩ := h'.next? hstart
    cases hnext.symm.trans hnext₁
    exact ⟨d', hnext', .inl ⟨_, hd, hd'⟩⟩

theorem next?_of_ne (h : c.BeforeFeed l u c') (hnext : c.next? = some (ch, d)) (hne : ch ≠ '\n') :
    ∃ d', c'.next? = some (ch, d') ∧ d.BeforeFeed l u d' := by
  obtain ⟨d', hnext', hd⟩ := h.next? hnext
  exact ⟨d', hnext', hd.resolve_right fun hend => hne hend.1⟩

theorem ne_backslash (h : c.BeforeFeed l u c') (hl : '\\' ∉ l) (hnext : c.next? = some (ch, d)) :
    ch ≠ '\\' := by
  obtain ⟨start, h, -⟩ := h
  rintro rfl
  have hmem : '\\' ∈ c.rest := by
    rw [rest_of_next? hnext]
    exact .head _
  rw [h.rest] at hmem
  rcases List.mem_append.mp hmem with hmem | hmem
  · exact hl (h.suffix.subset hmem)
  · cases List.mem_singleton.mp hmem

theorem skip (h : c.BeforeFeed l u c') (hpeek : c.peek? = some ch) (hne : ch ≠ '\n') :
    c.skip.BeforeFeed l u c'.skip := by
  cases hnext : c.next? with
  | none => exact absurd (rest_of_next?_eq_none hnext) h.rest_ne
  | some found =>
    obtain ⟨ch', d⟩ := found
    have hch : ch' = ch := by
      rw [Cursor.peek?, rest_of_next? hnext] at hpeek
      exact Option.some.inj hpeek
    obtain ⟨d', hnext', hd⟩ := h.next?_of_ne hnext (hch ▸ hne)
    rw [skip_of_next? hnext, skip_of_next? hnext']
    exact hd

/-- A class of characters without the line feed ends before it. -/
theorem skipWhile (h : c.BeforeFeed l u c') {p : Char → Bool} (hp : p '\n' = false) :
    (c.skipWhile p).BeforeFeed l u (c'.skipWhile p) := by
  obtain ⟨start, h, h'⟩ := h
  obtain ⟨htaken, hleft⟩ := Text.cut_append_cons hp start.rest []
  obtain ⟨htaken', hleft'⟩ := Text.cut_append_cons hp start.rest u
  exact ⟨start.skipWhile p, (h.span_of_dropWhile htaken hleft).2,
    (h'.span_of_dropWhile htaken' hleft').2⟩

theorem span (h : c.BeforeFeed l u c') {p : Char → Bool} (hp : ∀ ch ∈ Text.gaps, p ch = false) :
    (c'.span p).1 = (c.span p).1 ∧ (c.span p).2.BeforeFeed l u (c'.span p).2 := by
  obtain ⟨start, h, h'⟩ := h
  obtain ⟨htaken, hd⟩ := h.span hp
  obtain ⟨htaken', hd'⟩ := h'.span hp
  exact ⟨htaken'.trans htaken.symm, _, hd, hd'⟩

/-- Behind a line end the line feed is left, or it belonged to the line end. -/
theorem breakLine (h : c.BeforeFeed l u c') (hnext : c.next? = some (ch, d)) :
    ∃ d', c'.next? = some (ch, d') ∧
      ((d.breakLine ch).BeforeFeed l u (d'.breakLine ch) ∨ (d.breakLine ch).rest = []) := by
  obtain ⟨d', hnext', hd⟩ := h.next? hnext
  refine ⟨d', hnext', ?_⟩
  rcases hd with ⟨start, hd, hd'⟩ | ⟨-, hend⟩
  · by_cases hrest : ch = '\r' → start.rest ≠ []
    · exact .inl ⟨_, hd.breakLine_of_rest hrest, hd'.breakLine_of_rest hrest⟩
    · rw [Classical.not_imp, Classical.not_not] at hrest
      obtain ⟨rfl, hrest⟩ := hrest
      have hfeed : d.rest = ['\n'] := by rw [hd.rest, hrest, List.nil_append]
      exact .inr (by simp [Cursor.breakLine, Cursor.skipIf?, Cursor.peek?, Cursor.skip,
        Cursor.next?, hfeed])
  · have hle := d.length_breakLine_le ch
    rw [hend, List.length_nil, Nat.le_zero] at hle
    exact .inr (List.eq_nil_of_length_eq_zero hle)

end BeforeFeed

end Cursor

/-! ## Results -/

open Scan Cursor Text

/-- The readers give the same value before the line feed, or the first one fails. -/
inductive Scan.BeforeFeed (l u : List Char) : Result α → Result α → Prop where
  | ok {x : α} {d d' : Cursor} (h : d.BeforeFeed l u d') : BeforeFeed l u (.ok x d) (.ok x d')
  | failed {e : LexError} {d : Cursor} {result : Result α} : BeforeFeed l u (.error e d) result

namespace Scan.BeforeFeed

theorem map {result result' : Result α} (h : BeforeFeed l u result result') (f : α → β) :
    BeforeFeed l u (result.map f) (result'.map f) := by
  cases h with
  | ok h => exact .ok h
  | failed => exact .failed

/-- Where the first reader finds something, so does the second one. -/
theorem exists_ok {x : α} {result : Result α} (h : BeforeFeed l u (.ok x d) result) :
    ∃ d', result = .ok x d' ∧ d.BeforeFeed l u d' := by
  cases h with
  | ok h => exact ⟨_, rfl, h⟩

/-- A reader that both texts follow from one that has no line feed. -/
theorem of_follows {start result result' : Result α} (h : Follows l ['\n'] start result)
    (h' : Follows l ('\n' :: u) start result') : BeforeFeed l u result result' := by
  cases h with
  | ok hd =>
    cases h' with
    | ok hd' => exact .ok ⟨_, hd, hd'⟩
  | error => exact .failed

end Scan.BeforeFeed

/-! ## Tokens -/

namespace Lexer

theorem beforeFeed_readNumeral (h : c.BeforeFeed l u c') (first : Char) :
    BeforeFeed l u (Numeral.read c first) (Numeral.read c' first) := by
  obtain ⟨start, h, h'⟩ := h
  exact .of_follows (Numeral.follows_read h first) (Numeral.follows_read h' first)

theorem beforeFeed_readPunctuator (h : c.BeforeFeed l u c') (hnext : c.next? = some (ch, d))
    (hne : ch ≠ '\n') : BeforeFeed l u (readPunctuator c ch) (readPunctuator c' ch) := by
  obtain ⟨start, h, h'⟩ := h
  cases hstart : start.next? with
  | none =>
    have hrest := h.rest
    rw [rest_of_next?_eq_none hstart, List.nil_append, rest_of_next? hnext] at hrest
    exact absurd (List.cons.inj hrest).1 hne
  | some found =>
    obtain ⟨d₁, hnext₁, -⟩ := h.next? hstart
    cases hnext.symm.trans hnext₁
    exact .of_follows (follows_readPunctuator h hstart) (follows_readPunctuator h' hstart)

section

variable (hl : '\\' ∉ l)
include hl

theorem beforeFeed_readString (h : c.BeforeFeed l u c') {quote : Char} (hquote : quote ≠ '\n')
    (seen : String) : BeforeFeed l u (readString c quote seen) (readString c' quote seen) := by
  fun_induction readString c quote seen generalizing c' with
  | case1 => exact .failed
  | case2 c seen ch d hnext _ hclose =>
    obtain ⟨d', hnext', hd⟩ := h.next?_of_ne hnext (eq_of_beq hclose ▸ hquote)
    rw [readString_of_next? hnext', if_pos hclose]
    exact .ok hd
  | case3 => exact .failed
  | case4 c seen ch d hnext _ _ _ hescape =>
    exact absurd (eq_of_beq hescape) (h.ne_backslash hl hnext)
  | case5 => exact .failed
  | case6 c seen ch d hnext _ hclose hline hescape ih =>
    obtain ⟨d', hnext', hd⟩ := h.next?_of_ne hnext fun heq => hline (heq ▸ rfl)
    rw [readString_of_next? hnext', if_neg hclose, if_neg hline, if_neg hescape]
    exact ih hd

theorem beforeFeed_readName (h : c.BeforeFeed l u c') (name : String) (escaped : Bool) :
    (readName c' name escaped).1 = (readName c name escaped).1 ∧
      (readName c name escaped).2.BeforeFeed l u (readName c' name escaped).2 := by
  fun_induction readName c name escaped generalizing c' with
  | case1 c name escaped hnext => exact absurd (rest_of_next?_eq_none hnext) h.rest_ne
  | case2 c name escaped ch d hnext _ hpart ih =>
    have hne : ch ≠ '\n' := by
      rintro rfl
      exact absurd hpart (Bool.eq_false_iff.mp (isIdentifierPart_of_mem_gaps _ (.head _)))
    obtain ⟨d', hnext', hd⟩ := h.next?_of_ne hnext hne
    rw [readName_of_next? hnext', if_pos hpart]
    exact ih hd
  | case3 c name escaped ch d hnext _ _ hescape =>
    exact absurd (eq_of_beq hescape) (h.ne_backslash hl hnext)
  | case4 c name escaped ch d hnext _ _ hescape =>
    exact absurd (eq_of_beq hescape) (h.ne_backslash hl hnext)
  | case5 c name escaped ch d hnext _ hpart hescape =>
    obtain ⟨d', hnext', -⟩ := h.next? hnext
    rw [readName_of_next? hnext', if_neg hpart, if_neg hescape]
    exact ⟨rfl, h⟩

theorem beforeFeed_readIdentifier (h : c.BeforeFeed l u c') (first : Char) (escaped : Bool) :
    BeforeFeed l u (readIdentifier c first escaped) (readIdentifier c' first escaped) := by
  have hname := beforeFeed_readName hl h first.toString escaped
  unfold readIdentifier
  generalize readName c first.toString escaped = found at hname
  generalize readName c' first.toString escaped = found' at hname
  obtain ⟨name, d⟩ := found
  obtain ⟨name', d'⟩ := found'
  obtain ⟨rfl, hd⟩ := hname
  exact .ok hd

theorem beforeFeed_readTemplate (h : c.BeforeFeed l u c') (cooked : Option String) (raw : String) :
    BeforeFeed l u (readTemplate c cooked raw) (readTemplate c' cooked raw) := by
  fun_induction readTemplate c cooked raw generalizing c' with
  | case1 => exact .failed
  | case2 c cooked raw ch d hnext _ hclose =>
    obtain ⟨d', hnext', hd⟩ := h.next?_of_ne hnext (by rw [eq_of_beq hclose]; decide)
    rw [readTemplate_of_next? hnext', if_pos hclose]
    exact .ok hd
  | case3 c cooked raw ch d hnext _ hclose hbrace =>
    obtain ⟨hdollar, hpeek⟩ := Bool.and_eq_true_iff.mp hbrace
    obtain ⟨d', hnext', hd⟩ := h.next?_of_ne hnext (by rw [eq_of_beq hdollar]; decide)
    rw [readTemplate_of_next? hnext', if_neg hclose, hd.peek?, if_pos hbrace]
    exact .ok (hd.skip (eq_of_beq hpeek) (by decide))
  | case4 c cooked raw ch d hnext _ _ _ hescape =>
    exact absurd (eq_of_beq hescape) (h.ne_backslash hl hnext)
  | case5 => exact .failed
  | case6 c cooked raw ch d hnext _ _ _ hescape =>
    exact absurd (eq_of_beq hescape) (h.ne_backslash hl hnext)
  | case7 c cooked raw ch d hnext _ hclose hbrace hescape hline _ ih =>
    obtain ⟨d', hnext', hd | hend⟩ := h.breakLine hnext
    · have hbrace' : ¬(ch == '$' && d'.peek? == some '\x7b') = true := fun h =>
        hbrace (by
          rw [eq_of_beq (Bool.and_eq_true_iff.mp h).1] at hline
          cases hline)
      rw [readTemplate_of_next? hnext', if_neg hclose, if_neg hbrace', if_neg hescape, if_pos hline]
      exact ih hd
    · rw [readTemplate_of_end hend]
      exact .failed
  | case8 c cooked raw ch d hnext _ hclose hbrace hescape hline ih =>
    obtain ⟨d', hnext', hd⟩ := h.next?_of_ne hnext fun heq => hline (heq ▸ rfl)
    rw [readTemplate_of_next? hnext', if_neg hclose, hd.peek?, if_neg hbrace, if_neg hescape,
      if_neg hline]
    exact ih hd

theorem beforeFeed_readTemplatePart (h : c.BeforeFeed l u c') (closed opened : TemplatePart) :
    BeforeFeed l u (readTemplatePart c closed opened) (readTemplatePart c' closed opened) :=
  (beforeFeed_readTemplate hl h _ _).map _

theorem beforeFeed_readPattern (h : c.BeforeFeed l u c') (pattern : String) (inClass : Bool) :
    BeforeFeed l u (readPattern c pattern inClass) (readPattern c' pattern inClass) := by
  fun_induction readPattern c pattern inClass generalizing c' with
  | case1 => exact .failed
  | case2 => exact .failed
  | case3 c pattern inClass ch d hnext _ hline hclose =>
    obtain ⟨d', hnext', hd⟩ := h.next?_of_ne hnext fun heq => hline (heq ▸ rfl)
    rw [readPattern_of_next? hnext', if_neg hline, if_pos hclose]
    exact .ok hd
  | case4 => exact .failed
  | case5 c pattern inClass ch d hnext _ _ _ hescape =>
    exact absurd (eq_of_beq hescape) (h.ne_backslash hl hnext)
  | case6 c pattern inClass ch d hnext _ hline hclose hescape ih =>
    obtain ⟨d', hnext', hd⟩ := h.next?_of_ne hnext fun heq => hline (heq ▸ rfl)
    rw [readPattern_of_next? hnext', if_neg hline, if_neg hclose, if_neg hescape]
    exact ih hd

theorem beforeFeed_readRegExp (h : c.BeforeFeed l u c') :
    BeforeFeed l u (readRegExp c) (readRegExp c') := by
  have hpattern := beforeFeed_readPattern hl h "" false
  unfold readRegExp
  generalize readPattern c' "" false = result at hpattern
  generalize readPattern c "" false = result' at hpattern
  cases hpattern with
  | ok hd =>
    obtain ⟨hflags, he⟩ := hd.span isIdentifierPart_of_mem_gaps
    dsimp only
    rw [hflags]
    exact .ok he
  | failed => exact .failed

theorem beforeFeed_readAt (h : c.BeforeFeed l u c') (hnext : c.next? = some (ch, d))
    (hne : ch ≠ '\n') (hd : d.BeforeFeed l u d') :
    BeforeFeed l u (readAt c ch d) (readAt c' ch d') := by
  unfold readAt
  rw [hd.peek?]
  split
  · exact beforeFeed_readString hl hd hne _
  split
  · exact beforeFeed_readTemplatePart hl hd _ _
  split
  · exact beforeFeed_readNumeral hd _
  split
  · next hescape => exact absurd (eq_of_beq hescape) (h.ne_backslash hl hnext)
  split
  · exact beforeFeed_readIdentifier hl hd _ _
  · exact beforeFeed_readPunctuator h hnext hne

end

/-! ## Blanks and comments -/

theorem beforeFeed_skipBlockComment (h : c.BeforeFeed l u c') (seenLine : Bool) :
    BeforeFeed l u (skipBlockComment c seenLine) (skipBlockComment c' seenLine) := by
  fun_induction skipBlockComment c seenLine generalizing c' with
  | case1 => exact .failed
  | case2 c seenLine ch d hnext _ _ hclose =>
    obtain ⟨hstar, hpeek⟩ := Bool.and_eq_true_iff.mp hclose
    obtain ⟨d', hnext', hd⟩ := h.next?_of_ne hnext (by rw [eq_of_beq hstar]; decide)
    rw [skipBlockComment_of_next? hnext', hd.peek?, if_pos hclose]
    exact .ok (hd.skip (eq_of_beq hpeek) (by decide))
  | case3 c seenLine ch d hnext _ _ hclose hline ih =>
    obtain ⟨d', hnext', hd | hend⟩ := h.breakLine hnext
    · have hclose' : ¬(ch == '*' && d'.peek? == some '/') = true := fun h => by
        rw [eq_of_beq (Bool.and_eq_true_iff.mp h).1] at hline
        cases hline
      rw [skipBlockComment_of_next? hnext', if_neg hclose', if_pos hline]
      exact ih hd
    · rw [skipBlockComment_of_end hend]
      exact .failed
  | case4 c seenLine ch d hnext _ _ hclose hline ih =>
    obtain ⟨d', hnext', hd⟩ := h.next?_of_ne hnext fun heq => hline (heq ▸ rfl)
    rw [skipBlockComment_of_next? hnext', hd.peek?, if_neg hclose, if_neg hline]
    exact ih hd

/-- The next token is the same.  Where it is the end of the line, nothing may be left of the first
text behind it. -/
theorem beforeFeed_next (hl : '\\' ∉ l) {start start' : Cursor} (h : start.BeforeFeed l u start') :
    (∃ d d', next start = .ok .lineEnd d ∧ d.rest = [] ∧ next start' = .ok .lineEnd d') ∨
      BeforeFeed l u (next start) (next start') := by
  fun_induction next start generalizing start' with
  | case1 start c hlength =>
    rename_i hnext
    exact absurd (rest_of_next?_eq_none hnext) (h.skipWhile rfl).rest_ne
  | case2 start c hlength ch d hnext _ _ =>
    rename_i hline
    obtain ⟨d', hnext', hd⟩ := (h.skipWhile rfl).breakLine hnext
    rw [next_of_next? rfl hnext', if_pos hline]
    rcases hd with hd | hend
    · exact .inr (.ok hd)
    · exact .inl ⟨_, _, rfl, hend, rfl⟩
  | case3 start c hlength ch d hnext _ _ hline hslash =>
    rename_i ih
    obtain ⟨d', hnext', hd⟩ := (h.skipWhile rfl).next?_of_ne hnext fun heq => hline (heq ▸ rfl)
    rw [next_of_next? rfl hnext', if_neg hline, hd.peek?, if_pos hslash]
    exact ih (hd.skipWhile rfl)
  | case4 start c hlength ch d hnext _ _ hline hslash hblock e =>
    rename_i he
    obtain ⟨d', hnext', hd⟩ := (h.skipWhile rfl).next?_of_ne hnext fun heq => hline (heq ▸ rfl)
    rw [next_of_next? rfl hnext', if_neg hline, hd.peek?, if_neg hslash, if_pos hblock]
    have hpeek := eq_of_beq (Bool.and_eq_true_iff.mp hblock).2
    have hcomment := beforeFeed_skipBlockComment (hd.skip hpeek (by decide)) false
    obtain ⟨e', he', hbefore⟩ := (he ▸ hcomment).exists_ok
    rw [he']
    exact .inr (.ok hbefore)
  | case5 start c hlength ch d hnext _ _ hline hslash hblock e he _ _ =>
    rename_i ih
    obtain ⟨d', hnext', hd⟩ := (h.skipWhile rfl).next?_of_ne hnext fun heq => hline (heq ▸ rfl)
    rw [next_of_next? rfl hnext', if_neg hline, hd.peek?, if_neg hslash, if_pos hblock]
    have hpeek := eq_of_beq (Bool.and_eq_true_iff.mp hblock).2
    have hcomment := beforeFeed_skipBlockComment (hd.skip hpeek (by decide)) false
    obtain ⟨e', he', hbefore⟩ := (he ▸ hcomment).exists_ok
    rw [he']
    exact ih hbefore
  | case6 => exact .inr .failed
  | case7 start c hlength ch d hnext _ _ hline hslash hblock hbang =>
    rename_i ih
    have hc := h.skipWhile (p := isSeparator) rfl
    obtain ⟨d', hnext', hd⟩ := hc.next?_of_ne hnext fun heq => hline (heq ▸ rfl)
    rw [next_of_next? rfl hnext', if_neg hline, hd.peek?, if_neg hslash, if_neg hblock,
      hc.beq_offset, if_pos hbang]
    exact ih (hd.skipWhile rfl)
  | case8 start c hlength ch d hnext _ _ hline hslash hblock =>
    rename_i hbang
    have hc := h.skipWhile (p := isSeparator) rfl
    have hne : ch ≠ '\n' := fun heq => hline (heq ▸ rfl)
    obtain ⟨d', hnext', hd⟩ := hc.next?_of_ne hnext hne
    rw [next_of_next? rfl hnext', if_neg hline, hd.peek?, if_neg hslash, if_neg hblock,
      hc.beq_offset, if_neg hbang]
    exact .inr (beforeFeed_readAt hl hc hnext hne hd)

/-- Behind a line end the next token is in another line. -/
theorem line_of_nextOnLine {seen line : Bool} {token : Token}
    (h : nextOnLine c seen = .ok (token, line) d) (hseen : seen = true) : line = true := by
  fun_induction nextOnLine c seen with
  | case1 => cases h
  | case2 _ _ _ _ _ ih => exact ih h rfl
  | case3 =>
    cases h
    exact hseen

/-- The next token that is no line end is the same.  Or the first text ends, and the next token of the
second one is in another line. -/
theorem beforeFeed_nextOnLine (hl : '\\' ∉ l) (h : c.BeforeFeed l u c') (seen : Bool) :
    ((∃ d, nextOnLine c seen = .ok (.endOfInput, true) d) ∧
        ∀ {token line d}, nextOnLine c' seen = .ok (token, line) d → line = true) ∨
      BeforeFeed l u (nextOnLine c seen) (nextOnLine c' seen) := by
  fun_induction nextOnLine c seen generalizing c' with
  | case1 => exact .inr .failed
  | case2 c seen d hnext _ ih =>
    rcases beforeFeed_next hl h with ⟨d₁, d', hnext₁, hend, hnext'⟩ | hresult
    · cases hnext.symm.trans hnext₁
      obtain ⟨e, he, -⟩ := ends_of_end hend
      have hline : Token.endOfInput ≠ .lineEnd := fun heq => by cases heq
      refine .inl ⟨⟨e, nextOnLine_of_token he hline true⟩, fun hfound => ?_⟩
      rw [nextOnLine_of_lineEnd hnext'] at hfound
      exact line_of_nextOnLine hfound rfl
    · obtain ⟨d', hnext', hd⟩ := (hnext ▸ hresult).exists_ok
      rw [nextOnLine_of_lineEnd hnext']
      exact ih hd
  | case3 c seen token d hline hnext =>
    rcases beforeFeed_next hl h with ⟨d₁, d', hnext₁, -, -⟩ | hresult
    · cases hnext.symm.trans hnext₁
      exact absurd rfl hline
    · obtain ⟨d', hnext', hd⟩ := (hnext ▸ hresult).exists_ok
      rw [nextOnLine_of_token hnext' hline]
      exact .inr (.ok hd)

end Lexer

end EcmaEval

/-! # Texts that no lines complete -/

namespace EcmaEval

variable {l u : List Char}

/-- The same token is at hand, before the line feed with which the first text ends. -/
structure Reading.BeforeFeed (l u : List Char) (r r' : Reading) : Prop where
  current_eq : r'.current = r.current
  afterLineEnd_eq : r'.afterLineEnd = r.afterLineEnd
  cursor : r.cursor.BeforeFeed l u r'.cursor

/-- Results before the line feed are in step, as more text may make up for a token that cannot be
read. -/
theorem Scan.BeforeFeed.alike {α : Type} {pairs : α → Cursor → α → Cursor → Prop}
    {result result' : Scan.Result α} (h : Scan.BeforeFeed l u result result')
    (hpairs : ∀ x d d', d.BeforeFeed l u d' → pairs x d x d') :
    Scan.Alike (fun e => e.cause.isPassing = true) (fun _ _ => True) pairs result result' := by
  cases h with
  | ok h => exact .ok (hpairs _ _ _ h)
  | failed => exact .excused rfl

/-- The readings of a text that ends in a line feed and of one that goes on behind it.  The errors
that matter are those that more text cannot make up for. -/
def Pairing.stopped (l u : List Char) (hl : '\\' ∉ l) : Pairing where
  Pairs := Reading.BeforeFeed l u
  Same token token' := token' = token
  Ended r := r.current = .endOfInput
  Ending r := ∃ d, Lexer.nextOnLine r.cursor false = .ok (.endOfInput, true) d
  Excused e := e.cause.isPassing = true
  Corresponds _ _ := True
  alike := @Token.Alike.of_eq
  current_same h := h.current_eq
  afterLineEnd_eq h := h.afterLineEnd_eq
  replaceCurrent h _ hsame := ⟨hsame, h.afterLineEnd_eq, h.cursor⟩
  corresponds _ _ _ := trivial
  unexpected _ := trivial
  current_of_ended h := h
  excused _ _ h := h
  ending := fun ⟨d, h⟩ => ⟨true, d, h, rfl⟩
  lineEnd := by
    rintro r r' hpairs ⟨d, hend⟩
    refine .inr ⟨fun _ _ => trivial, fun hfound => ?_, fun hfound => ?_⟩
    · cases hend.symm.trans hfound
      rfl
    · rcases Lexer.beforeFeed_nextOnLine hl hpairs.cursor false with ⟨-, hline⟩ | hresult
      · exact hline hfound
      · rw [hend, hfound] at hresult
        cases hresult
        rfl
  next := by
    intro r r' hpairs _
    refine (Lexer.beforeFeed_nextOnLine hl hpairs.cursor false).imp And.left fun hresult => ?_
    exact hresult.alike fun _ _ _ hd => ⟨rfl, rfl, hd⟩
  special := by
    intro r r' read hread hpairs _
    have hresult : Scan.BeforeFeed l u (read r.cursor) (read r'.cursor) := by
      rcases hread with rfl | rfl
      · exact Lexer.beforeFeed_readRegExp hl hpairs.cursor
      · exact Lexer.beforeFeed_readTemplatePart hl hpairs.cursor _ _
    exact hresult.alike fun _ _ _ hd => ⟨rfl, hpairs.current_eq, hpairs.afterLineEnd_eq, hd⟩

/-- An error that more text cannot make up for stands in the longer text too. -/
theorem Grammar.program_error_of_stopped {depth depth' : Nat} {c : Context}
    {start start' : Cursor} (hl : '\\' ∉ l) (hstart : start.BeforeFeed l u start')
    (hdepth : start.rest.length < depth) (hdepth' : start.rest.length < depth') {e : SyntaxError}
    (h : program (.ofDepth depth) c ⟨.endOfInput, false, start⟩ = .error e)
    (hcause : e.cause.isPassing = false) :
    ∃ e', program (.ofDepth depth') c ⟨.endOfInput, false, start'⟩ = .error e' := by
  have hfirst := Lexer.beforeFeed_nextOnLine hl hstart false
  obtain ⟨r, houtcome⟩ := outcome_program (P := .stopped l u hl) hdepth hdepth'
    (hfirst.imp (fun ⟨⟨d, hend⟩, _⟩ => ⟨true, d, hend, rfl⟩) fun hresult =>
      hresult.alike fun _ _ _ hd => ⟨rfl, rfl, hd⟩)
  exact houtcome.exists_error h (Bool.eq_false_iff.mp hcause)

/-- Of a text that is completed the error has a cause that more text may make up for. -/
theorem Program.isPassing_of_completed {options : ParseOptions} {source more : String}
    {e : SyntaxError} {p : Program} (hsource : '\\' ∉ source.toList)
    (h : Program.ofText options (source ++ "\n") = .error e)
    (hmore : Program.ofText options (source ++ "\n" ++ more) = .ok p) :
    e.cause.isPassing = true := by
  by_contra hcause
  rw [Bool.not_eq_true] at hcause
  have hfeed : "\n".toList = ['\n'] := rfl
  have hshort := Cursor.samePlace_ofText source "\n"
  have hlong := Cursor.samePlace_ofText source ("\n" ++ more)
  rw [hfeed] at hshort
  rw [String.toList_append, hfeed, ← String.append_assoc] at hlong
  have hstart : (Cursor.ofText (source ++ "\n")).BeforeFeed source.toList more.toList
      (Cursor.ofText (source ++ "\n" ++ more)) := ⟨_, hshort, hlong⟩
  -- The bound on the depth of the longer text is enough for the shorter one.
  have hrest : (Cursor.ofText (source ++ "\n")).rest.length <
      (Cursor.ofText (source ++ "\n" ++ more)).rest.length + 2 := by
    rw [hshort.rest, hlong.rest, List.length_append, List.length_append]
    simp only [List.length_append, List.length_singleton]
    omega
  rw [Program.ofText_eq] at h hmore
  split at h
  · cases h
  · next hprogram =>
    cases h
    obtain ⟨e', he'⟩ := Grammar.program_error_of_stopped hsource hstart
      (Nat.lt_add_of_pos_right Nat.zero_lt_two) hrest hprogram hcause
    rw [he'] at hmore
    cases hmore

/-- **Texts that lines complete.**  Of a text that ends in a line feed, and that lines behind it complete,
the error says that it stopped too early, and its cause is one that more text may make up for.  So what
an error says is right of all texts that lines complete; it is wrong only where it says that a text
stopped too early which nothing completes. -/
theorem Program.ofText_error_of_completed {options : ParseOptions} {source more : String}
    {e : SyntaxError} {p : Program} (hsource : '\\' ∉ source.toList)
    (h : Program.ofText options (source ++ "\n") = .error e)
    (hmore : Program.ofText options (source ++ "\n" ++ "\n" ++ more) = .ok p) :
    e.incomplete = true ∧ e.cause.isPassing = true := by
  refine ⟨Program.incomplete_of_completed h hmore, ?_⟩
  rw [String.append_assoc] at hmore
  exact Program.isPassing_of_completed hsource h hmore

/-- **Texts that no lines complete.**  A text that ends in a line feed is no program, because of a jump
that cannot be where it stands, a label that stands there already, `let` as the name of a variable or
the end of the line behind `throw`.  Then it begins no program, although the error may say that it
stopped too early.  Only a backslash could take the line feed along. -/
theorem Program.ofText_error_of_stopped {options : ParseOptions} {source : String} {e : SyntaxError}
    (hsource : '\\' ∉ source.toList) (h : Program.ofText options (source ++ "\n") = .error e)
    (hcause : e.cause.isPassing = false) (more : String) :
    ∃ e', Program.ofText options (source ++ "\n" ++ more) = .error e' := by
  cases hmore : Program.ofText options (source ++ "\n" ++ more) with
  | error e' => exact ⟨e', rfl⟩
  | ok p =>
    -- What completes the text shows that the cause was one that more text may make up for.
    rw [Program.isPassing_of_completed hsource h hmore] at hcause
    cases hcause

/-- Behind a broken escape a word goes on in the next line, which completes this block. -/
example :
    (Program.ofText {} ("a: \x7b break\\u\x7b" ++ "\n")).isOk = false ∧
      (Program.ofText {} ("a: \x7b break\\u\x7b" ++ "\n" ++ "a \x7d")).isOk = true := by
  decide +kernel

/-- Of a `break` outside of all loops and switches it is said that more text could complete it, but no
text does. -/
theorem Program.ofText_error_of_break : ∃ e, Program.ofText {} ("break" ++ "\n") = .error e ∧
    e.incomplete = true ∧ ∀ more, ∃ e', Program.ofText {} ("break" ++ "\n" ++ more) = .error e' := by
  have hrefused : (match Program.ofText {} ("break" ++ "\n") with
      | .ok _ => false
      | .error e => e.incomplete && !e.cause.isPassing) = true := by
    decide +kernel
  cases hresult : Program.ofText {} ("break" ++ "\n") with
  | ok p =>
    rw [hresult] at hrefused
    cases hrefused
  | error e =>
    rw [hresult] at hrefused
    obtain ⟨hincomplete, hcause⟩ := Bool.and_eq_true_iff.mp hrefused
    refine ⟨e, rfl, hincomplete, fun more => ?_⟩
    exact Program.ofText_error_of_stopped (by decide) hresult (by simpa using hcause) more

end EcmaEval
