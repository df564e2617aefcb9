import EcmaEval.Proofs.Flags.Readers
import EcmaEval.Proofs.Syntax.Completion
import EcmaEval.Proofs.Syntax.Rereading

/-!
# Expressions in brackets

A program may be one expression in brackets.  It is what the smallest expression behind the bracket
is, or fails where that fails.

## Main results

* `Program.ofText_of_encloses`: the program of an expression in brackets
-/

namespace EcmaEval

/-! ## Tokens -/

namespace Lexer

/-- A zero before a bracket is a number. -/
theorem begins_zero (rest : List Char) :
    Begins ('0' :: ')' :: rest) (.numeric 0.0) (')' :: rest) :=
  begins_digits (List.forall_mem_singleton.mpr (by decide)) (by rintro _ ⟨⟩; decide)

/-- A punctuator takes something. -/
theorem offset_pos_of_nextOnLine {c d : Cursor} {seen line : Bool} {mark : Punctuator}
    (h : nextOnLine c seen = .ok (.punctuator mark, line) d) : 0 < d.offset := by
  fun_induction nextOnLine c seen with
  | case1 => cases h
  | case2 _ _ _ _ _ ih => exact ih h
  | case3 _ _ _ _ _ hnext =>
    cases h
    exact offset_pos_of_next hnext

theorem nameToken_text (word : Keyword) : nameToken word.text false = .keyword word := by
  cases word <;> rfl

/-- Words with a blank behind each, and an opening bracket behind them. -/
def wordsBefore (words : List Keyword) (rest : List Char) : List Char :=
  words.foldr (fun word text => word.text.toList ++ ' ' :: text) ('(' :: rest)

theorem length_wordsBefore (words : List Keyword) (rest : List Char) :
    rest.length < (wordsBefore words rest).length := by
  induction words with
  | nil => exact Nat.lt_succ_self _
  | cons word words ih =>
    change _ < (word.text.toList ++ ' ' :: wordsBefore words rest).length
    rw [List.length_append, List.length_cons]
    omega

/-- No blanks stand before the words. -/
theorem dropWhile_wordsBefore (words : List Keyword) (rest : List Char) :
    (wordsBefore words rest).dropWhile Text.isSeparator = wordsBefore words rest := by
  cases words with
  | nil => rfl
  | cons word words => cases word <;> rfl

end Lexer

/-- The second reading is at the bracket that the words from the first one on stand before. -/
inductive Reading.Leads (c : Context) : List Keyword → Reading → Reading → Prop where
  | here {r : Reading} : Leads c [] r r
  | word {word : Keyword} {words : List Keyword} {r r' s : Reading} (hr : r.current = .keyword word)
    (hadvance : Parse.advance c r = .ok ((), r')) (hline : r'.afterLineEnd = false)
    (h : Leads c words r' s) : Leads c (word :: words) r s

/-- A bracket is at hand on the line of what stands before it. -/
structure Reading.AtBracket (r : Reading) (rest : List Char) : Prop
    extends r.Has (.punctuator .leftParen) rest where
  onLine : r.afterLineEnd = false
  offset_pos : 0 < r.cursor.offset

namespace Parse

open Lexer Reading

theorem offset_pos_of_advance {c : Context} {r s : Reading} {mark : Punctuator}
    (h : advance c r = .ok ((), s)) (hs : s.current = .punctuator mark) : 0 < s.cursor.offset := by
  unfold advance at h
  split at h
  · next token line d hnext =>
    cases h
    obtain rfl : token = .punctuator mark := hs
    exact offset_pos_of_nextOnLine hnext
  · cases h

/-- The words of a text are read up to the bracket behind them. -/
theorem exists_leads (words : List Keyword) (c : Context) {r : Reading} {rest : List Char}
    (hr : r.cursor.rest.dropWhile Text.isSeparator = wordsBefore words rest) :
    ∃ r' s, advance c r = .ok ((), r') ∧ r'.afterLineEnd = false ∧ Leads c words r' s ∧
      s.AtBracket rest := by
  induction words generalizing r with
  | nil =>
    obtain ⟨d, hadvance, hd⟩ :=
      exists_advance_of_begins (begins_mark .leftParen (by decide) rest) nofun hr c
    exact ⟨_, _, hadvance, rfl, .here, ⟨rfl, hd⟩, rfl, offset_pos_of_advance hadvance rfl⟩
  | cons word words ih =>
    have hblank : PlainValue.EndsWord (' ' :: wordsBefore words rest) := by
      rintro _ ⟨⟩
      decide
    have hbegins := PlainValue.begins_name word.text (by cases word <;> rfl) hblank
    rw [nameToken_text] at hbegins
    obtain ⟨d, hadvance, hd⟩ := exists_advance_of_begins hbegins nofun hr c
    obtain ⟨r', s, hadvance', hline, hleads, hs⟩ := ih (r := ⟨.keyword word, false, d⟩)
      (by rw [hd]; exact dropWhile_wordsBefore words rest)
    exact ⟨_, s, hadvance, rfl, .word rfl hadvance' hline hleads, hs⟩

end Parse

/-! ## Lists of phrases -/

namespace Parse

variable {α : Type} {closes : Token → Bool} {phrase : Parse α} {fuel : Nat} {c : Context}
  {r s : Reading} {x : α} {xs : List α} {e : SyntaxError}

theorem untilToken_of_closes (hr : closes r.current = true) (hfuel : 0 < fuel) :
    untilToken closes phrase fuel c r = .ok ([], r) := by
  obtain ⟨fuel, rfl⟩ := Nat.exists_eq_succ_of_ne_zero hfuel.ne'
  rw [untilToken, current_bind, if_pos hr]
  rfl

/-- A list of one phrase. -/
theorem untilToken_of_single (hr : closes r.current = false) (h : phrase c r = .ok (x, s))
    (hs : closes s.current = true) (hfuel : 1 < fuel) :
    untilToken closes phrase fuel c r = .ok ([x], s) := by
  obtain ⟨fuel, rfl⟩ := Nat.exists_eq_succ_of_ne_zero (Nat.ne_zero_of_lt hfuel)
  rw [untilToken, current_bind, hr, if_neg Bool.false_ne_true, bind_of_ok h,
    bind_of_ok (untilToken_of_closes hs (Nat.lt_of_succ_lt_succ hfuel))]
  rfl

theorem untilToken_of_error (hr : closes r.current = false) (h : phrase c r = .error e)
    (hfuel : 0 < fuel) : untilToken closes phrase fuel c r = .error e := by
  obtain ⟨fuel, rfl⟩ := Nat.exists_eq_succ_of_ne_zero hfuel.ne'
  rw [untilToken, current_bind, hr, if_neg Bool.false_ne_true, bind_of_error h]

/-- A list ends at a token that closes it. -/
theorem closes_of_untilToken (h : untilToken closes phrase fuel c r = .ok (xs, s)) :
    closes s.current = true := by
  induction fuel generalizing r xs with
  | zero => cases h
  | succ fuel ih =>
    rw [untilToken, current_bind] at h
    split at h
    · next hr =>
      cases h
      exact hr
    · obtain ⟨_, _, -, h⟩ := exists_of_bind_eq_ok h
      obtain ⟨_, _, hothers, h⟩ := exists_of_bind_eq_ok h
      cases h
      exact ih hothers

end Parse

/-! ## One expression in brackets -/

namespace Grammar

open Parse

variable {depth : Nat} {c : Context} {r s : Reading} {e : Expression} {x : SyntaxError}

/-- The token begins the smallest expression between brackets. -/
structure OpensEnclosed (c : Context) (token : Token) : Prop where
  primary : opensPrimary c token = true
  notClosed : token.isMark .rightParen = false
  notRest : token.isMark .ellipsis = false

theorem grouped_of_primary (hdepth : 0 < depth) (hc : c.inGenerator = false)
    (hr : OpensEnclosed c r.current) (h : primary (.ofDepth depth) c r = .ok (e, s))
    (hs : s.current.isMark .rightParen = true) :
    grouped (.ofDepth (depth + 1)) c r = .ok (.value e false, s) := by
  have hfuel : 0 < (Phrases.ofDepth depth).fuel := by rwa [PlainValue.fuel_ofDepth]
  have hclose : s.current.closesOperand = true := by rw [Token.eq_of_isMark hs]; rfl
  have hassign : assignmentOperator? s.current = none := by rw [Token.eq_of_isMark hs]; rfl
  have hunary := unary_of_primary hfuel hr.primary h hclose
  have hassignment : (Phrases.ofDepth (depth + 1)).assignment c r = .ok (e, s) :=
    assignment_of_conditional hc (conditional_of_unary hfuel hunary hclose) hassign
  rw [grouped, skipMark_of_not hr.notRest, if_neg Bool.false_ne_true, bind_of_ok hassignment,
    atMark_bind, hs]
  rfl

theorem grouped_of_primary_error (hc : c.inGenerator = false) (hr : OpensEnclosed c r.current)
    (h : primary (.ofDepth depth) c r = .error x) :
    grouped (.ofDepth (depth + 1)) c r = .error x := by
  have hassignment : (Phrases.ofDepth (depth + 1)).assignment c r = .error x :=
    assignment_of_conditional_error hc
      (conditional_of_unary_error (unary_of_primary_error hr.primary h))
  rw [grouped, skipMark_of_not hr.notRest, if_neg Bool.false_ne_true, bind_of_error hassignment]

/-- A bracket begins an expression statement. -/
theorem item_of_leftParen {inner : Phrases} (hr : r.current.isMark .leftParen = true) :
    item inner c r = (expression inner >>= fun e => endStatement >>= fun _ =>
      pure (.expression e)) c r := by
  have htoken := Token.eq_of_isMark hr
  have hlabel : atLabel c r = .ok (false, r) := by
    rw [atLabel, name?_bind, htoken]
    rfl
  have hstatement : item inner c r = expressionStatement inner c r := by
    rw [item, current_bind, htoken]
    dsimp only
    rw [statement, current_bind, htoken]
  rw [hstatement, expressionStatement, bind_of_ok hlabel, if_neg Bool.false_ne_true]

/-- A smallest expression up to the end of the text is a statement. -/
theorem item_of_primary {inner : Phrases} (hfuel : 0 < inner.fuel) (hc : c.inGenerator = false)
    (hr : r.current.isMark .leftParen = true) (h : primary inner c r = .ok (e, s))
    (hs : s.current = .endOfInput) : item inner c r = .ok (.expression e, s) := by
  have hopens : opensPrimary c r.current = true := by rw [Token.eq_of_isMark hr]; rfl
  have hclose : s.current.closesOperand = true := by rw [hs]; rfl
  have hconditional := conditional_of_unary hfuel (unary_of_primary hfuel hopens h hclose) hclose
  have hassignment : assignment inner c r = .ok (e, s) :=
    assignment_of_conditional hc hconditional (by rw [hs]; rfl)
  have hcomma : s.current.isMark .comma = false := by rw [hs]; rfl
  have htail : sequenceTail inner inner.fuel c s = .ok ([], s) := by
    obtain ⟨fuel, hfuel⟩ := Nat.exists_eq_succ_of_ne_zero hfuel.ne'
    rw [hfuel, sequenceTail, skipMark_of_not hcomma]
    rfl
  have hend : endStatement c s = .ok ((), s) := by
    rw [endStatement, current_bind, hs]
    rfl
  have hexpression : expression inner c r = .ok (e, s) := by
    rw [expression, bind_of_ok hassignment, bind_of_ok htail]
    rfl
  rw [item_of_leftParen hr, bind_of_ok hexpression, bind_of_ok hend]
  rfl

theorem item_of_primary_error {inner : Phrases} (hc : c.inGenerator = false)
    (hr : r.current.isMark .leftParen = true) (h : primary inner c r = .error x) :
    item inner c r = .error x := by
  have hopens : opensPrimary c r.current = true := by rw [Token.eq_of_isMark hr]; rfl
  have hassignment : assignment inner c r = .error x :=
    assignment_of_conditional_error hc (conditional_of_unary_error (unary_of_primary_error hopens h))
  have hexpression : expression inner c r = .error x := bind_of_error hassignment
  rw [item_of_leftParen hr, bind_of_error hexpression]

/-- What a group turns out to be, behind its closing bracket. -/
def regroup (inner : Phrases) (parts : List Grouped) : Parse Expression := do
  if ← atArrow then
    match parts.mapM Grouped.toPattern? with
    | some params => arrow inner params false
    | none => fail .invalidPattern
  else
    match groupValues? parts with
    | some [e] => return e
    | some (e :: es) => return .sequence (e :: es)
    | _ => unexpected

/-- The parts of a list up to its closing bracket, from the opening one on. -/
def listed {α : Type} (part : Parse α) (fuel : Nat) : Parse (List α) := do
  advance
  untilToken (·.isMark .rightParen) part fuel

/-- A list in brackets, where the operator `in` is allowed already. -/
theorem listed_of_leftParen {α β : Type} {part : Parse α} {fuel : Nat}
    (hr : r.current.isMark .leftParen = true) (hc : c.noIn = false) (f : List α → Parse β) :
    (expect .leftParen >>= fun _ => withIn (untilMark .rightParen part fuel) >>= f) c r =
      (listed part fuel >>= fun parts => advance >>= fun _ => f parts) c r := by
  have hlist : (advance >>= fun _ => untilMark .rightParen part fuel >>= f) =
      listed part fuel >>= fun parts => advance >>= fun _ => f parts := by
    simp only [listed, untilMark, bind_assoc, pure_bind]
  rw [expect_of_isMark hr, ← hlist]
  cases hadvance : advance c r with
  | ok found =>
    rw [bind_of_ok hadvance, bind_of_ok hadvance, bind_apply, withIn_of_noIn hc, ← bind_apply]
  | error e => rw [bind_of_error hadvance, bind_of_error hadvance]

/-- A group is a list of its parts. -/
theorem primary_of_leftParen {inner : Phrases} (hr : r.current.isMark .leftParen = true)
    (hc : c.noIn = false) : primary inner c r = (listed (grouped inner) inner.fuel >>= fun parts =>
      advance >>= fun _ => regroup inner parts) c r := by
  have hgroup : primary inner c r = group inner c r := by
    rw [primary, current_bind, Token.eq_of_isMark hr]
  rw [hgroup]
  exact listed_of_leftParen hr hc _

/-- A smallest expression in brackets, up to the end of the text. -/
theorem primary_of_enclosed {r' : Reading} (hdepth : 0 < depth) (hnoIn : c.noIn = false)
    (hc : c.inGenerator = false) (hr : r.current.isMark .leftParen = true)
    (hadvance : advance c r = .ok ((), r')) (hr' : OpensEnclosed c r'.current)
    (h : primary (.ofDepth depth) c r' = .ok (e, s)) (hs : s.Has (.punctuator .rightParen) []) :
    ∃ s', primary (.ofDepth (depth + 1)) c r = .ok (e, s') ∧ s'.current = .endOfInput := by
  have hclose : s.current.isMark .rightParen = true := by rw [hs.current]; rfl
  have hgrouped := grouped_of_primary hdepth hc hr' h hclose
  have hlist : listed (grouped (.ofDepth (depth + 1))) (depth + 1) c r =
      .ok ([.value e false], s) := by
    rw [listed, bind_of_ok hadvance]
    exact untilToken_of_single hr'.notClosed hgrouped hclose (Nat.succ_lt_succ hdepth)
  obtain ⟨s', hend, hs'⟩ := advance_of_begins Lexer.begins_end nofun (by rw [hs.rest]; rfl) c
  have harrow : atArrow c s' = .ok (false, s') := by
    rw [atArrow, atMark_bind, hs'.current]
    rfl
  refine ⟨s', ?_, hs'.current⟩
  rw [primary_of_leftParen hr hnoIn, PlainValue.fuel_ofDepth, bind_of_ok hlist, bind_of_ok hend,
    regroup, bind_of_ok harrow]
  rfl

theorem primary_of_enclosed_error {r' : Reading} (hnoIn : c.noIn = false)
    (hc : c.inGenerator = false) (hr : r.current.isMark .leftParen = true)
    (hadvance : advance c r = .ok ((), r')) (hr' : OpensEnclosed c r'.current)
    (h : primary (.ofDepth depth) c r' = .error x) :
    primary (.ofDepth (depth + 1)) c r = .error x := by
  have hlist : listed (grouped (.ofDepth (depth + 1))) (depth + 1) c r = .error x := by
    rw [listed, bind_of_ok hadvance]
    exact untilToken_of_error hr'.notClosed (grouped_of_primary_error hc hr' h) (Nat.succ_pos depth)
  rw [primary_of_leftParen hr hnoIn, PlainValue.fuel_ofDepth, bind_of_error hlist]

end Grammar

open Parse Grammar Reading

namespace Program

variable {options : ParseOptions} {source : String} {r s : Reading} {e : Expression}
  {x : SyntaxError}

/-- The text begins with a bracket, and in the reading the token behind that is at hand, which
begins an expression. -/
structure Encloses (options : ParseOptions) (source : String) (r : Reading) : Prop where
  exists_bracket : ∃ r₀, advance { options } ⟨.endOfInput, false, .ofText source⟩ = .ok ((), r₀) ∧
    r₀.current.isMark .leftParen = true ∧ advance { options } r₀ = .ok ((), r)
  opens : OpensEnclosed { options } r.current

/-- The program of an expression in brackets. -/
theorem ofText_of_encloses (hsource : Encloses options source r)
    (h : primary (.ofDepth (source.length + 1)) { options } r = .ok (e, s))
    (hs : s.Has (.punctuator .rightParen) []) :
    ofText options source = .ok ⟨[.expression e]⟩ := by
  obtain ⟨⟨r₀, hstart, hr₀, hadvance⟩, hopens⟩ := hsource
  obtain ⟨s', hprimary, hs'⟩ :=
    primary_of_enclosed (Nat.succ_pos _) rfl rfl hr₀ hadvance hopens h hs
  have hitem := item_of_primary (Nat.succ_pos _) rfl hr₀ hprimary hs'
  have hopen : r₀.current.isEnd = false := by rw [Token.eq_of_isMark hr₀]; rfl
  have hend : s'.current.isEnd = true := by rw [hs']; rfl
  have hfuel : 1 < (Phrases.ofDepth (source.length + 2)).fuel := by
    rw [PlainValue.fuel_ofDepth]
    omega
  have hitems := untilToken_of_single hopen hitem hend hfuel
  rw [ofText_eq]
  rw [show (Cursor.ofText source).rest.length = source.length from String.length_toList, program,
    bind_of_ok hstart, bind_of_ok hitems]
  rfl

theorem ofText_of_encloses_error (hsource : Encloses options source r)
    (h : primary (.ofDepth (source.length + 1)) { options } r = .error x) :
    ofText options source = .error x := by
  obtain ⟨⟨r₀, hstart, hr₀, hadvance⟩, hopens⟩ := hsource
  have hitem :=
    item_of_primary_error rfl hr₀ (primary_of_enclosed_error rfl rfl hr₀ hadvance hopens h)
  have hopen : r₀.current.isEnd = false := by rw [Token.eq_of_isMark hr₀]; rfl
  have hfuel : 0 < (Phrases.ofDepth (source.length + 2)).fuel := by
    rw [PlainValue.fuel_ofDepth]
    omega
  have hitems := untilToken_of_error hopen hitem hfuel
  rw [ofText_eq]
  rw [show (Cursor.ofText source).rest.length = source.length from String.length_toList, program,
    bind_of_ok hstart, bind_of_error hitems]

/-- The words before a bracket begin an expression. -/
theorem opensEnclosed_of_leads {c : Context} {words : List Keyword}
    (hwords : ∀ word ∈ words, word = .asyncWord ∨ word = .functionWord)
    (h : Leads c words r s) (hs : s.current = .punctuator .leftParen) :
    OpensEnclosed c r.current := by
  cases h with
  | here =>
    rw [hs]
    exact ⟨rfl, rfl, rfl⟩
  | word hr =>
    rw [hr]
    rcases hwords _ List.mem_cons_self with rfl | rfl
    · exact ⟨rfl, rfl, rfl⟩
    · exact ⟨rfl, rfl, rfl⟩

/-- A text that begins with a bracket, words and another bracket. -/
theorem exists_encloses (options : ParseOptions) {words : List Keyword}
    (hwords : ∀ word ∈ words, word = .asyncWord ∨ word = .functionWord) {rest : List Char}
    (hsource : source.toList = '(' :: Lexer.wordsBefore words rest) :
    ∃ r s, Encloses options source r ∧ Leads { options } words r s ∧ s.AtBracket rest := by
  have hstart : (Cursor.ofText source).rest.dropWhile Text.isSeparator =
      Lexer.wordsBefore [] (Lexer.wordsBefore words rest) := by
    rw [Cursor.ofText, hsource]
    rfl
  obtain ⟨r₀, _, hadvance₀, -, hleads, hr₀⟩ :=
    exists_leads (r := ⟨.endOfInput, false, .ofText source⟩) [] { options } hstart
  cases hleads
  have hrest : r₀.cursor.rest.dropWhile Text.isSeparator = Lexer.wordsBefore words rest := by
    rw [hr₀.rest]
    exact Lexer.dropWhile_wordsBefore words rest
  obtain ⟨r, s, hadvance, -, hleads, hs⟩ := exists_leads words { options } hrest
  exact ⟨r, s, ⟨⟨r₀, hadvance₀, by rw [hr₀.current]; rfl, hadvance⟩,
    opensEnclosed_of_leads hwords hleads hs.current⟩, hleads, hs⟩

end Program

end EcmaEval
