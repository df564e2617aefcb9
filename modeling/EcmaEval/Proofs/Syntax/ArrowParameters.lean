import EcmaEval.Proofs.Syntax.Cover
import EcmaEval.Proofs.Syntax.Enclosed
import EcmaEval.Proofs.Syntax.Statement

/-!
# Parameters of arrow functions

The same text may stand for the parameters of a function and for those of an arrow function.  Read
in a text of its own, the list of the one covers that of the other; what stands around the two lists
does not change them.  So both functions have the same parameters, as far as neither is refused.

## Main definitions

* `functionText`, `arrowText`: a function and an arrow function with a text for their parameters
* `IsParameterText`: a text that is closed by the bracket behind it

## Main results

* `Program.parameters_agree`: the parameters of the two functions
* `Program.parameters_differ`: texts that only one of the two functions may have
-/

namespace EcmaEval

/-! ## Two readers of a list -/

namespace Grammar

open Parse

/-- The parameters of a function, from their bracket on. -/
def functionList (inner : Phrases) : Parse (List Pattern) :=
  listed (parameter inner) inner.fuel

/-- The parameters of an arrow function, from their bracket on, if all expressions there are
patterns. -/
def arrowList (isAsync : Bool) (inner : Phrases) : Parse (Option (List Pattern)) :=
  match isAsync with
  | false => do return (← listed (grouped inner) inner.fuel).mapM Grouped.toPattern?
  | true => do return (← listed (argument inner) inner.fuel).mapM Expression.toPattern?

variable {α β : Type} {n k : Nat} {c c' : Context} {start r r' : Reading}

theorem covers_listed {i : Bool} {G : α → Option β} {p : Parse α} {q : Parse β}
    (hp : InStep (.moved start) false n false .univ true p p)
    (hpq : ∀ {r}, start.Reaches r → r.left < n → Covering i G (fun _ => true) (p c r) (q c' r))
    (hr : start.Reaches r) (hopen : r.current.isEnd = false) (hlt : r.left ≤ n) (fuel : Nat) :
    Covering i id (fun _ => true) ((listed p fuel >>= fun xs => pure (xs.mapM G)) c r)
      (listed q fuel c' r) := by
  have hlist : Covering i (List.mapM G) (fun _ => true) (listed p fuel c r) (listed q fuel c' r) :=
    .advance_bind fun hadvance => by
      obtain ⟨hs, hless⟩ := reaches_of_advance hr hopen hadvance
      exact .untilToken hp hpq _ fuel hs (hless.trans_le hlt)
  refine ⟨fun hb hs => ?_, fun {x y s} ha hx => ?_⟩
  · rcases hlist.covered hb hs with ⟨xs, hxs, hys⟩ | ⟨e, he, hcause⟩
    · exact .inl ⟨xs.mapM G, bind_of_ok hxs, hys⟩
    · exact .inr ⟨e, bind_of_error he, hcause⟩
  · obtain ⟨xs, s', hxs, ha⟩ := exists_of_bind_eq_ok ha
    cases ha
    exact hlist.converted hxs hx

/-- The list of an arrow function covers that of another one. -/
theorem covers_arrowList (hc : c.Moved start c') (isAsync : Bool) (hr : start.Reaches r)
    (hopen : r.current.isEnd = false) (hlt : r.left ≤ k + 1) :
    Covering isAsync id (fun _ => true) (arrowList isAsync (.ofDepth (k + 1)) c r)
      (functionList (.ofDepth (k + 1)) c' r) := by
  have hphrases : Phrases.InStep (.moved start) (k + 1) (.ofDepth (k + 1)) (.ofDepth (k + 1)) :=
    Phrases.inStep_ofDepth (Nat.le_refl _) (Nat.le_refl _)
  cases isAsync with
  | false =>
    exact covers_listed inferInstance (fun hr hlt => covers_grouped hc hr (Nat.le_of_lt_succ hlt))
      hr hopen hlt _
  | true =>
    exact covers_listed inferInstance (fun hr hlt => covers_argument hc hr (Nat.le_of_lt_succ hlt))
      hr hopen hlt _

/-! ## Lists in a text of their own -/

section Continued

variable {P : Pairing} {inside : Bool} {S : Set Token} {p q : Parse α} {fuel fuel' : Nat}

theorem inStep_listed [Solid S] (hp : InStep P inside n false .univ true p q) (hfuel : n ≤ fuel)
    (hfuel' : n ≤ fuel') : InStep P inside n true S true (listed p fuel) (listed q fuel') := by
  have hlist : InStep P inside n false .univ false
      (untilToken (·.isMark .rightParen) p fuel) (untilToken (·.isMark .rightParen) q fuel') :=
    .untilToken hp hfuel hfuel'
  exact InStep.bind_takes (k := fun _ => hlist)

instance inStep_functionList [Solid S] {inner inner' : Phrases} [h : Phrases.InStep P n inner inner'] :
    InStep P inside n true S true (functionList inner) (functionList inner') :=
  inStep_listed inferInstance h.fuel h.fuel'

instance inStep_arrowList [Solid S] {inner inner' : Phrases} [h : Phrases.InStep P n inner inner']
    (isAsync : Bool) :
    InStep P inside n true S true (arrowList isAsync inner) (arrowList isAsync inner') := by
  cases isAsync with
  | false =>
    have hlist : InStep P inside n true S true (listed (grouped inner) inner.fuel)
      (listed (grouped inner') inner'.fuel) := inStep_listed inferInstance h.fuel h.fuel'
    exact InStep.bind_takes (k := fun _ => inferInstance)
  | true =>
    have hlist : InStep P inside n true S true (listed (argument inner) inner.fuel)
      (listed (argument inner') inner'.fuel) := inStep_listed inferInstance h.fuel h.fuel'
    exact InStep.bind_takes (k := fun _ => inferInstance)

end Continued

theorem isMark_of_listed {p : Parse α} {fuel : Nat} {xs : List α} {s : Reading}
    (h : listed p fuel c r = .ok (xs, s)) : s.current.isMark .rightParen = true := by
  obtain ⟨_, _, -, h⟩ := exists_of_bind_eq_ok h
  exact closes_of_untilToken h

theorem isMark_of_arrowList {inner : Phrases} {isAsync : Bool} {found : Option (List Pattern)}
    {s : Reading} (h : arrowList isAsync inner c r = .ok (found, s)) :
    s.current.isMark .rightParen = true := by
  cases isAsync with
  | false =>
    obtain ⟨_, _, hlist, h⟩ := exists_of_bind_eq_ok h
    cases h
    exact isMark_of_listed hlist
  | true =>
    obtain ⟨_, _, hlist, h⟩ := exists_of_bind_eq_ok h
    cases h
    exact isMark_of_listed hlist

end Grammar

open Parse Grammar

/-- A list of parameters at its opening bracket, in a text that ends with its closing bracket. -/
def Reading.ofList (params : String) : Reading where
  current := .punctuator .leftParen
  afterLineEnd := false
  cursor := (Cursor.ofText ("(" ++ params ++ ")")).skip

/-- Reading came to the last character of the text, or failed before. -/
def Parse.Fills {α : Type} : Except SyntaxError (α × Reading) → Prop
  | .ok (_, s) => s.cursor.rest = []
  | .error e => e.incomplete = false

instance {α : Type} (result : Except SyntaxError (α × Reading)) : Decidable (Fills result) :=
  match result with
  | .ok (_, s) => inferInstanceAs (Decidable (s.cursor.rest = []))
  | .error e => inferInstanceAs (Decidable (e.incomplete = false))

variable {α : Type} {l t : List Char} {params : String} {r r' : Reading}

theorem Reading.cursor_ofList (params : String) :
    (ofList params).cursor.rest = params.toList ++ [')'] ∧ 0 < (ofList params).cursor.offset := by
  have htext : (Cursor.ofText ("(" ++ params ++ ")")).rest = '(' :: (params.toList ++ [')']) := by
    simp [Cursor.ofText]
  have hnext := Cursor.next?_of_cons htext
  change (Cursor.ofText ("(" ++ params ++ ")")).skip.rest = _ ∧
    0 < (Cursor.ofText ("(" ++ params ++ ")")).skip.offset
  rw [Cursor.skip_of_next? hnext]
  exact ⟨rfl, Nat.zero_lt_succ _⟩

theorem Reading.left_ofList (params : String) : (ofList params).left = params.length + 2 := by
  change (ofList params).cursor.rest.length + 1 = _
  rw [(cursor_ofList params).1, List.length_append, String.length_toList]
  rfl

/-- The list is the same where more text stands before and behind it. -/
theorem Reading.continues_ofList (hr : r.Has (.punctuator .leftParen) (params.toList ++ ')' :: t))
    (hline : r.afterLineEnd = false) (hoffset : 0 < r.cursor.offset) :
    (ofList params).Continues (params.toList ++ [')']) t r where
  current_eq := hr.current
  afterLineEnd_eq := hline
  isEnd := rfl
  cursor := by
    obtain ⟨hrest, hpos⟩ := cursor_ofList params
    refine .same ⟨hrest ▸ List.suffix_rfl, ?_, ?_⟩
    · rw [hrest, hr.rest, List.append_assoc]
      rfl
    · omega
  closed h := nomatch h

/-- A list that fills a text of its own is the same in a text that goes on. -/
theorem Pairing.outcome_of_fills [Text.Apart t] {takes : Bool}
    {result result' : Except SyntaxError (α × Reading)}
    (h : (continued l t).Outcome takes r result result') (hfills : Fills result)
    (hclosed : ∀ {x s}, result = .ok (x, s) → s.current.isMark .rightParen = true) :
    (∀ {x s}, result = .ok (x, s) → ∃ s', result' = .ok (x, s') ∧
      s'.Has (.punctuator .rightParen) t) ∧
    ∀ {e}, result = .error e → ∃ e', result' = .error e' ∧ e'.cause = e.cause := by
  cases h with
  | @ok x s s' hpairs =>
    have hmark := hclosed rfl
    refine ⟨fun hresult => ?_, nofun⟩
    cases hresult
    refine ⟨s', rfl, hpairs.current_eq.trans (Token.eq_of_isMark hmark), ?_⟩
    rw [(hpairs.closed hmark).rest, show s.cursor.rest = [] from hfills, List.nil_append]
  | closing h =>
    cases h with
    | @ok x s hended =>
      have hmark := hclosed rfl
      rw [show s.current = .endOfInput from hended] at hmark
      cases hmark
    | @error e hexcused => exact absurd hexcused (Bool.eq_false_iff.mp hfills)
  | @failed e e' hcause =>
    refine ⟨nofun, fun hresult => ?_⟩
    cases hresult
    exact ⟨e', rfl, hcause⟩

/-! ## Functions around a list -/

/-- The words before the parameters of an arrow function. -/
def arrowWords (isAsync : Bool) : List Keyword :=
  if isAsync then [.asyncWord] else []

/-- The words before the parameters of another function. -/
def functionWords (isAsync : Bool) : List Keyword :=
  arrowWords isAsync ++ [.functionWord]

namespace Grammar

open Reading

variable {inner : Phrases} {isAsync : Bool} {c : Context} {r s : Reading}

/-- A function without a name, from its word on. -/
theorem functionExpression_eq {r' : Reading} (hr : r.current = .keyword .functionWord)
    (hadvance : advance c r = .ok ((), r')) (hr' : r'.current.isMark .leftParen = true) :
    functionExpression inner isAsync c r = (functionList inner >>= fun params =>
      advance >>= fun _ => bodyBlock inner >>= fun body => pure (.function
        { name := none, params, body := .block body, isArrow := false, isAsync,
          isGenerator := false })) (c.inOwnBody isAsync false false false) r' := by
  have hword : expectWord .functionWord c r = .ok ((), r') := by
    rw [expectWord, atWord_bind, hr]
    exact hadvance
  have hstar : r'.current.isMark .star = false := isMark_of_isMark hr' nofun
  have hname : skipName c r' = .ok (none, r') := by
    rw [skipName, name?_bind, Token.eq_of_isMark hr']
    rfl
  have hlist : parameters inner (c.inOwnBody isAsync false false false) r' =
      (functionList inner >>= fun params => advance >>= fun _ => pure params)
        (c.inOwnBody isAsync false false false) r' := by
    rw [parameters, expect_of_isMark hr', functionList, listed, bind_assoc]
    rfl
  rw [functionExpression, bind_of_ok hword, skipMark_of_not hstar, bind_of_ok hname]
  change ((parameters inner >>= fun params => bodyBlock inner >>= fun body => pure _) >>=
    fun node => pure (.function node) : Parse Expression)
      (c.inOwnBody isAsync false false false) r' = _
  rw [bind_assoc, bind_apply, hlist, ← bind_apply]
  simp only [bind_assoc, pure_bind]

theorem primary_of_functionWords (h : Leads c (functionWords isAsync) r s)
    (hs : s.current.isMark .leftParen = true) :
    primary inner c r = (functionList inner >>= fun params =>
      advance >>= fun _ => bodyBlock inner >>= fun body => pure (.function
        { name := none, params, body := .block body, isArrow := false, isAsync,
          isGenerator := false })) (c.inOwnBody isAsync false false false) s := by
  cases isAsync with
  | false =>
    obtain _ | ⟨hr, hadvance, -, ⟨⟩⟩ := h
    rw [primary, current_bind, hr]
    exact functionExpression_eq hr hadvance hs
  | true =>
    obtain _ | ⟨hr, hadvance, hline, _ | ⟨hr', hadvance', -, ⟨⟩⟩⟩ := h
    rw [primary, current_bind, hr]
    dsimp only
    rw [asyncOperand, bind_of_ok (peek_of_advance hadvance)]
    dsimp only
    rw [bind_of_ok hadvance, hline, hr']
    exact functionExpression_eq hr' hadvance' hs

/-- What an asynchronous arrow function or a call of `async` turns out to be. -/
def reargue (inner : Phrases) (args : List Expression) : Parse Expression := do
  if ← atArrow then arrow inner (← toParameters args) true
  else return .call (.identifier "async") args

/-- The arguments behind the word `async`. -/
theorem primary_of_async (hr : r.current = .keyword .asyncWord)
    (hadvance : advance c r = .ok ((), s)) (hline : s.afterLineEnd = false)
    (hs : s.current.isMark .leftParen = true) (hc : c.noIn = false) :
    primary inner c r = (listed (argument inner) inner.fuel >>= fun args =>
      advance >>= fun _ => reargue inner args) c s := by
  have hasync : asyncOperand inner c r = (arguments inner >>= reargue inner) c s := by
    rw [asyncOperand, bind_of_ok (peek_of_advance hadvance)]
    dsimp only
    rw [bind_of_ok hadvance, hline, Token.eq_of_isMark hs]
    rfl
  rw [primary, current_bind, hr]
  dsimp only
  rw [hasync, arguments, bind_assoc]
  exact listed_of_leftParen hs hc _

/-- The arrow function fails where its list does. -/
theorem primary_of_arrowList_error {e : SyntaxError} (h : Leads c (arrowWords isAsync) r s)
    (hs : s.current.isMark .leftParen = true) (hc : c.noIn = false)
    (hlist : arrowList isAsync inner c s = .error e) : primary inner c r = .error e := by
  cases isAsync with
  | false =>
    cases h
    rw [primary_of_leftParen hs hc, bind_of_error (error_of_bind_pure hlist)]
  | true =>
    obtain _ | ⟨hr, hadvance, hline, ⟨⟩⟩ := h
    rw [primary_of_async hr hadvance hline hs hc, bind_of_error (error_of_bind_pure hlist)]

/-- An arrow follows the list. -/
theorem primary_of_arrowList {r₁ r₂ : Reading} {found : Option (List Pattern)}
    (h : Leads c (arrowWords isAsync) r s) (hs : s.current.isMark .leftParen = true)
    (hc : c.noIn = false) (hlist : arrowList isAsync inner c s = .ok (found, r₁))
    (hadvance : advance c r₁ = .ok ((), r₂)) (harrow : r₂.current.isMark .arrow = true)
    (hline : r₂.afterLineEnd = false) :
    primary inner c r = (match found with
      | some params => arrow inner params isAsync
      | none => fail .invalidPattern) c r₂ := by
  have harrow : atArrow c r₂ = .ok (true, r₂) := by
    rw [atArrow, atMark_bind, harrow, if_pos rfl, afterLineEnd_bind, hline]
    rfl
  cases isAsync with
  | false =>
    obtain ⟨parts, s', hparts, hfound⟩ := exists_of_bind_eq_ok hlist
    cases h
    cases hfound
    rw [primary_of_leftParen hs hc, bind_of_ok hparts, bind_of_ok hadvance, regroup,
      bind_of_ok harrow]
    rfl
  | true =>
    obtain ⟨args, s', hargs, hfound⟩ := exists_of_bind_eq_ok hlist
    obtain _ | ⟨hr, hadvance', hline', ⟨⟩⟩ := h
    cases hfound
    rw [primary_of_async hr hadvance' hline' hs hc, bind_of_ok hargs, bind_of_ok hadvance, reargue,
      bind_of_ok harrow, if_pos rfl, toParameters]
    cases args.mapM Expression.toPattern? with
    | none => rfl
    | some params => rfl

/-! ### Bodies -/

/-- An empty block behind the list. -/
theorem exists_emptyBody (hfuel : 0 < inner.fuel) (c : Context)
    (hs : s.Has (.punctuator .rightParen) [' ', '\x7b', '\x7d', ')']) :
    ∃ s', (advance >>= fun _ => bodyBlock inner) c s = .ok ([], s') ∧
      s'.Has (.punctuator .rightParen) [] := by
  obtain ⟨s₁, h₁, hs₁⟩ := advance_of_begins (Lexer.begins_mark .leftBrace (by decide) ['\x7d', ')'])
    nofun (by rw [hs.rest]; rfl) c
  obtain ⟨s₂, h₂, hs₂⟩ := advance_of_begins (Lexer.begins_mark .rightBrace (by decide) [')'])
    nofun (by rw [hs₁.rest]; rfl) { c with noIn := false }
  obtain ⟨s₃, h₃, hs₃⟩ := advance_of_begins (Lexer.begins_mark .rightParen (by decide) [])
    nofun (by rw [hs₂.rest]; rfl) { c with noIn := false }
  have hopen : s₁.current.isMark .leftBrace = true := by rw [hs₁.current]; rfl
  have hclose : s₂.current.isMark .rightBrace = true := by rw [hs₂.current]; rfl
  have hblock : block inner { c with noIn := false } s₁ = .ok ([], s₃) := by
    rw [block, expect_of_isMark hopen, bind_of_ok h₂, untilMark,
      bind_of_ok (untilToken_of_closes hclose hfuel), bind_of_ok h₃]
    rfl
  refine ⟨s₃, ?_, hs₃⟩
  rw [bind_of_ok h₁]
  exact hblock

variable (isAsync) in
/-- A number for the body of an arrow function. -/
theorem exists_zeroBody {depth : Nat} (hdepth : 0 < depth) (params : List Pattern) (c : Context)
    (hs : s.Has (.punctuator .rightParen) [' ', '=', '>', ' ', '0', ')']) :
    ∃ s₁ s₂, advance c s = .ok ((), s₁) ∧ s₁.current.isMark .arrow = true ∧
      s₁.afterLineEnd = false ∧ s₂.Has (.punctuator .rightParen) [] ∧
      arrow (.ofDepth (depth + 1)) params isAsync c s₁ = .ok (.arrow
        { name := none, params, body := .expression (.literal (.number 0.0)), isArrow := true,
          isAsync, isGenerator := false }, s₂) := by
  obtain ⟨d, h₁, hd⟩ := exists_advance_of_begins
    (Lexer.begins_mark .arrow (by decide) [' ', '0', ')']) nofun (by rw [hs.rest]; rfl) c
  obtain ⟨s₂, h₂, hs₂⟩ := advance_of_begins (r := ⟨.punctuator .arrow, false, d⟩)
    (Lexer.begins_zero []) nofun (by rw [hd]; rfl) c
  obtain ⟨s₃, h₃, hs₃⟩ := advance_of_begins (Lexer.begins_mark .rightParen (by decide) [])
    nofun (by rw [hs₂.rest]; rfl) (c.inBody isAsync false)
  refine ⟨_, s₃, h₁, rfl, rfl, hs₃, ?_⟩
  have hprimary : primary (.ofDepth depth) (c.inBody isAsync false) s₂ =
      .ok (.literal (.number 0.0), s₃) := by
    rw [primary, current_bind, hs₂.current]
    exact bind_of_ok h₃
  have hfuel : 0 < (Phrases.ofDepth depth).fuel := by rwa [PlainValue.fuel_ofDepth]
  have hopens : opensPrimary (c.inBody isAsync false) s₂.current = true := by rw [hs₂.current]; rfl
  have hclose : s₃.current.closesOperand = true := by rw [hs₃.current]; rfl
  have hunary := unary_of_primary hfuel hopens hprimary hclose
  have hassignment : (Phrases.ofDepth (depth + 1)).assignment (c.inBody isAsync false) s₂ =
      .ok (.literal (.number 0.0), s₃) :=
    assignment_of_conditional rfl (conditional_of_unary hfuel hunary hclose)
      (by rw [hs₃.current]; rfl)
  have hblock : s₂.current.isMark .leftBrace = false := by rw [hs₂.current]; rfl
  rw [arrow, expect_of_isMark rfl, bind_of_ok h₂]
  unfold within
  rw [atMark_bind, hblock]
  dsimp only
  rw [if_neg Bool.false_ne_true, bind_map_left, bind_of_ok hassignment]
  rfl

end Grammar

/-! ## Programs -/

/-- The text of a function in brackets, with nothing in its body. -/
def functionText (isAsync : Bool) (params : String) : String :=
  "(" ++ (if isAsync then "async " else "") ++ "function (" ++ params ++ ") \x7b\x7d)"

/-- The text of an arrow function in brackets, with a number for its body. -/
def arrowText (isAsync : Bool) (params : String) : String :=
  "(" ++ (if isAsync then "async " else "") ++ "(" ++ params ++ ") => 0)"

namespace Program

/-- The program of a function without a name, with nothing in its body. -/
def ofFunction (isAsync : Bool) (params : List Pattern) : Program where
  body := [.expression (.function
    { name := none, params, body := .block [], isArrow := false, isAsync, isGenerator := false })]

/-- The program of an arrow function with a number for its body. -/
def ofArrow (isAsync : Bool) (params : List Pattern) : Program where
  body := [.expression (.arrow
    { name := none, params, body := .expression (.literal (.number 0.0)), isArrow := true, isAsync,
      isGenerator := false })]

end Program

/-- The parameters of a function, read in a text of their own. -/
def functionListOf (options : ParseOptions) (isAsync : Bool) (params : String) :
    Except SyntaxError (List Pattern × Reading) :=
  functionList (.ofDepth (params.length + 2))
    (Context.inOwnBody { options } isAsync false false false) (.ofList params)

/-- The parameters of an arrow function, read in a text of their own. -/
def arrowListOf (options : ParseOptions) (isAsync : Bool) (params : String) :
    Except SyntaxError (Option (List Pattern) × Reading) :=
  arrowList isAsync (.ofDepth (params.length + 2)) { options } (.ofList params)

/-- The text is that of a list of parameters, good or bad: whether the list is read for a function
or for an arrow function, a bracket behind the text closes it, and none before.  Where reading
fails, it fails in the text. -/
structure IsParameterText (options : ParseOptions) (isAsync : Bool) (params : String) : Prop where
  function : Fills (functionListOf options isAsync params)
  arrow : Fills (arrowListOf options isAsync params)

instance (options : ParseOptions) (isAsync : Bool) (params : String) :
    Decidable (IsParameterText options isAsync params) :=
  decidable_of_iff (Fills (functionListOf options isAsync params) ∧
      Fills (arrowListOf options isAsync params))
    ⟨fun h => ⟨h.1, h.2⟩, fun h => ⟨h.function, h.arrow⟩⟩

section Texts

open Lexer

variable {options : ParseOptions} {isAsync : Bool} {params : String}

theorem toList_functionText (isAsync : Bool) (params : String) :
    (functionText isAsync params).toList = '(' :: wordsBefore (functionWords isAsync)
      (params.toList ++ ')' :: [' ', '\x7b', '\x7d', ')']) := by
  cases isAsync <;>
  simp [functionText, functionWords, arrowWords, wordsBefore, Keyword.text]

theorem toList_arrowText (isAsync : Bool) (params : String) :
    (arrowText isAsync params).toList = '(' :: wordsBefore (arrowWords isAsync)
      (params.toList ++ ')' :: [' ', '=', '>', ' ', '0', ')']) := by
  cases isAsync <;> simp [arrowText, arrowWords, wordsBefore, Keyword.text]

variable (options) in
/-- A list with words and a bracket before it is what it is in a text of its own. -/
theorem exists_list {α : Type} {source : String} {words : List Keyword}
    (hwords : ∀ word ∈ words, word = .asyncWord ∨ word = .functionWord) {t : List Char}
    [Text.Apart t]
    (hsource : source.toList = '(' :: wordsBefore words (params.toList ++ ')' :: t))
    {list : Phrases → Parse α} {c : Context}
    (hlist : ∀ {n inner inner'}, Phrases.InStep (.continued (params.toList ++ [')']) t) n inner
      inner' → InStep (.continued (params.toList ++ [')']) t) false n true {.punctuator .leftParen}
        true (list inner) (list inner'))
    (hclosed : ∀ {x s}, list (.ofDepth (params.length + 2)) c (.ofList params) = .ok (x, s) →
      s.current.isMark .rightParen = true)
    (hfills : Fills (list (.ofDepth (params.length + 2)) c (.ofList params))) :
    ∃ r s, Program.Encloses options source r ∧ Reading.Leads { options } words r s ∧
      s.current.isMark .leftParen = true ∧
      (∀ {x s'}, list (.ofDepth (params.length + 2)) c (.ofList params) = .ok (x, s') →
        ∃ s'', list (.ofDepth (source.length + 1)) c s = .ok (x, s'') ∧
          s''.Has (.punctuator .rightParen) t) ∧
      ∀ {e}, list (.ofDepth (params.length + 2)) c (.ofList params) = .error e →
        ∃ e', list (.ofDepth (source.length + 1)) c s = .error e' ∧ e'.cause = e.cause := by
  obtain ⟨r, s, hencloses, hleads, hs⟩ := Program.exists_encloses options hwords hsource
  refine ⟨r, s, hencloses, hleads, by rw [hs.current]; rfl, ?_⟩
  have hdepth : params.length + 2 ≤ source.length + 1 := by
    have hlength := length_wordsBefore words (params.toList ++ ')' :: t)
    rw [List.length_append, List.length_cons, String.length_toList] at hlength
    have hlengthSource := congrArg List.length hsource
    rw [String.length_toList, List.length_cons] at hlengthSource
    omega
  have houtcome := (hlist (Phrases.inStep_ofDepth (Nat.le_refl _) hdepth)).outcome (.refl _ _ c)
    (Reading.continues_ofList hs.toHas hs.onLine hs.offset_pos)
    (by rw [Reading.left_ofList]; exact Nat.lt_succ_self _) rfl
  exact Pairing.outcome_of_fills houtcome hfills hclosed

/-- The program of a function, by its list in a text of its own. -/
theorem ofText_functionText (h : Fills (functionListOf options isAsync params)) :
    (∀ {ps s}, functionListOf options isAsync params = .ok (ps, s) →
      Program.ofText options (functionText isAsync params) = .ok (.ofFunction isAsync ps)) ∧
    ∀ {e}, functionListOf options isAsync params = .error e →
      ∃ e', Program.ofText options (functionText isAsync params) = .error e' ∧
        e'.cause = e.cause := by
  have hwords : ∀ word ∈ functionWords isAsync, word = .asyncWord ∨ word = .functionWord := by
    cases isAsync <;> simp [functionWords, arrowWords]
  obtain ⟨r, s, hencloses, hleads, hs, hread, hfail⟩ := exists_list options hwords
    (toList_functionText isAsync params) (fun _ => inferInstance) isMark_of_listed h
  refine ⟨fun {ps _} hlist => ?_, fun hlist => ?_⟩
  · obtain ⟨s₁, hlist', hs₁⟩ := hread hlist
    have hfuel : 0 < (Phrases.ofDepth ((functionText isAsync params).length + 1)).fuel :=
      Nat.succ_pos _
    obtain ⟨s₂, hbody, hs₂⟩ :=
      exists_emptyBody hfuel (Context.inOwnBody { options } isAsync false false false) hs₁
    refine Program.ofText_of_encloses hencloses ?_ hs₂
    rw [primary_of_functionWords hleads hs, bind_of_ok hlist', ← bind_assoc, bind_of_ok hbody]
    rfl
  · obtain ⟨e', hlist', hcause⟩ := hfail hlist
    refine ⟨e', Program.ofText_of_encloses_error hencloses ?_, hcause⟩
    rw [primary_of_functionWords hleads hs, bind_of_error hlist']

/-- The program of an arrow function, by its list in a text of its own. -/
theorem ofText_arrowText (h : Fills (arrowListOf options isAsync params)) :
    (∀ {ps s}, arrowListOf options isAsync params = .ok (some ps, s) →
      Program.ofText options (arrowText isAsync params) = .ok (.ofArrow isAsync ps)) ∧
    (∀ {s}, arrowListOf options isAsync params = .ok (none, s) →
      ∃ e, Program.ofText options (arrowText isAsync params) = .error e) ∧
    ∀ {e}, arrowListOf options isAsync params = .error e →
      ∃ e', Program.ofText options (arrowText isAsync params) = .error e' ∧ e'.cause = e.cause := by
  have hwords : ∀ word ∈ arrowWords isAsync, word = .asyncWord ∨ word = .functionWord := by
    cases isAsync <;> simp [arrowWords]
  obtain ⟨r, s, hencloses, hleads, hs, hread, hfail⟩ := exists_list options hwords
    (toList_arrowText isAsync params) (fun _ => inferInstance) isMark_of_arrowList h
  have hpos : 0 < (arrowText isAsync params).length := by
    rw [← String.length_toList, toList_arrowText]
    exact Nat.succ_pos _
  refine ⟨fun {ps _} hlist => ?_, fun hlist => ?_, fun hlist => ?_⟩
  · obtain ⟨s₁, hlist', hs₁⟩ := hread hlist
    obtain ⟨s₂, s₃, hadvance, harrow, hline, hs₃, hbody⟩ :=
      exists_zeroBody isAsync hpos ps { options } hs₁
    refine Program.ofText_of_encloses hencloses ?_ hs₃
    rw [primary_of_arrowList hleads hs rfl hlist' hadvance harrow hline]
    exact hbody
  · obtain ⟨s₁, hlist', hs₁⟩ := hread hlist
    obtain ⟨s₂, s₃, hadvance, harrow, hline, -⟩ :=
      exists_zeroBody isAsync hpos [] { options } hs₁
    have hprimary := primary_of_arrowList hleads hs rfl hlist' hadvance harrow hline
    exact ⟨_, Program.ofText_of_encloses_error hencloses hprimary⟩
  · obtain ⟨e', hlist', hcause⟩ := hfail hlist
    have hprimary := primary_of_arrowList_error hleads hs rfl hlist'
    exact ⟨e', Program.ofText_of_encloses_error hencloses hprimary, hcause⟩

end Texts

namespace Program

variable {options : ParseOptions} {isAsync : Bool} {params : String}

/-- Where a function has its parameters, the arrow function has the same, or it is refused. -/
theorem arrow_of_function (hcovers : Covering isAsync id (fun _ => true)
      (arrowListOf options isAsync params) (functionListOf options isAsync params))
    (hparams : IsParameterText options isAsync params) {p : Program}
    (h : ofText options (functionText isAsync params) = .ok p) :
    ∃ ps, p = ofFunction isAsync ps ∧
      (ofText options (arrowText isAsync params) = .ok (ofArrow isAsync ps) ∨
      ∃ e, ofText options (arrowText isAsync params) = .error e ∧ e.cause.refusesArrow = true) := by
  obtain ⟨hread, hfail⟩ := ofText_functionText hparams.function
  obtain ⟨hread', -, hfail'⟩ := ofText_arrowText hparams.arrow
  cases hlist : functionListOf options isAsync params with
  | error e =>
    obtain ⟨e', htext, -⟩ := hfail hlist
    rw [htext] at h
    cases h
  | ok found =>
    obtain ⟨ps, s⟩ := found
    rw [hread hlist] at h
    cases h
    refine ⟨ps, rfl, ?_⟩
    rcases hcovers.covered hlist rfl with ⟨found, hfound, rfl⟩ | ⟨e, he, hcause⟩
    · exact .inl (hread' hfound)
    · obtain ⟨e', htext, heq⟩ := hfail' he
      exact .inr ⟨e', htext, heq ▸ hcause⟩

/-- Where an arrow function has its parameters, the other function has the same, or it is
refused. -/
theorem function_of_arrow (hcovers : Covering isAsync id (fun _ => true)
      (arrowListOf options isAsync params) (functionListOf options isAsync params))
    (hparams : IsParameterText options isAsync params) {p : Program}
    (h : ofText options (arrowText isAsync params) = .ok p) :
    ∃ ps, p = ofArrow isAsync ps ∧
      (ofText options (functionText isAsync params) = .ok (ofFunction isAsync ps) ∨
      ∃ e, ofText options (functionText isAsync params) = .error e ∧
        e.cause.refusesFunction isAsync = true) := by
  obtain ⟨hread, hfail⟩ := ofText_functionText hparams.function
  obtain ⟨hread', hnone', hfail'⟩ := ofText_arrowText hparams.arrow
  cases hlist : arrowListOf options isAsync params with
  | error e =>
    obtain ⟨e', htext, -⟩ := hfail' hlist
    rw [htext] at h
    cases h
  | ok found =>
    obtain ⟨found, s⟩ := found
    cases found with
    | none =>
      obtain ⟨e', htext⟩ := hnone' hlist
      rw [htext] at h
      cases h
    | some ps =>
      rw [hread' hlist] at h
      cases h
      refine ⟨ps, rfl, ?_⟩
      rcases hcovers.converted hlist rfl with hfound | ⟨e, he, hcause⟩
      · exact .inl (hread hfound)
      · obtain ⟨e', htext, heq⟩ := hfail he
        exact .inr ⟨e', htext, heq ▸ hcause⟩

/-- A function and an arrow function with one text for their parameters have the same parameters, as
far as neither is refused.  If they are asynchronous, then reading the text may not come to an
`await`. -/
theorem parameters_agree (hoptions : options.topLevelAwait = false)
    (hawait : isAsync = true → ¬(Reading.ofList params).Meets .awaitWord)
    (hparams : IsParameterText options isAsync params) :
    (∀ p, ofText options (functionText isAsync params) = .ok p → ∃ ps, p = ofFunction isAsync ps ∧
      (ofText options (arrowText isAsync params) = .ok (ofArrow isAsync ps) ∨
      ∃ e, ofText options (arrowText isAsync params) = .error e ∧
        e.cause.refusesArrow = true)) ∧
    ∀ p, ofText options (arrowText isAsync params) = .ok p → ∃ ps, p = ofArrow isAsync ps ∧
      (ofText options (functionText isAsync params) = .ok (ofFunction isAsync ps) ∨
      ∃ e, ofText options (functionText isAsync params) = .error e ∧
        e.cause.refusesFunction isAsync = true) := by
  have hcovers : Covering isAsync id (fun _ => true) (arrowListOf options isAsync params)
      (functionListOf options isAsync params) :=
    covers_arrowList (Context.moved_inOwnBody hoptions hawait) isAsync .refl rfl
      (by rw [Reading.left_ofList])
  exact ⟨fun _ => arrow_of_function hcovers hparams, fun _ => function_of_arrow hcovers hparams⟩

/-- Patterns in one another with a default and a rest, of asynchronous functions. -/
theorem parameters_agree_nested : ∃ ps : List Pattern,
    IsParameterText { topLevelAwait := false } true "{ b: [c = 1, ...d] }, e = f(c), ...g" ∧
    ¬(Reading.ofList "{ b: [c = 1, ...d] }, e = f(c), ...g").Meets .awaitWord ∧
    ofText { topLevelAwait := false } (functionText true "{ b: [c = 1, ...d] }, e = f(c), ...g") =
      .ok (ofFunction true ps) ∧
    ofText { topLevelAwait := false } (arrowText true "{ b: [c = 1, ...d] }, e = f(c), ...g") =
      .ok (ofArrow true ps) := by
  have hparams : IsParameterText { topLevelAwait := false } true
      "{ b: [c = 1, ...d] }, e = f(c), ...g" := by
    decide +kernel
  have hawait : ¬(Reading.ofList "{ b: [c = 1, ...d] }, e = f(c), ...g").Meets .awaitWord :=
    Reading.not_meets_of_not_infix nofun (by decide +kernel)
  have hfunction : (ofText { topLevelAwait := false }
      (functionText true "{ b: [c = 1, ...d] }, e = f(c), ...g")).isOk = true := by
    decide +kernel
  have harrow : (ofText { topLevelAwait := false }
      (arrowText true "{ b: [c = 1, ...d] }, e = f(c), ...g")).isOk = true := by
    decide +kernel
  obtain ⟨p, hp⟩ := exists_of_isOk hfunction
  obtain ⟨ps, rfl, hps | ⟨e, he, -⟩⟩ :=
    (parameters_agree rfl (fun _ => hawait) hparams).1 p hp
  · exact ⟨ps, hparams, hawait, hp, hps⟩
  · rw [he] at harrow
    cases harrow

/-- Some texts stand for the parameters of a function and not for those of an arrow function: a
shorthand with a value, and `new.target`.  Others stand for the parameters of an arrow function
alone: a name in brackets, something behind a rest element, and, if the functions are asynchronous,
something behind a rest parameter. -/
theorem parameters_differ :
    (∀ isAsync, ∀ params ∈ ["{ a = 1 }", "[{ a = 1 }]", "a = new.target"],
      IsParameterText { topLevelAwait := false } isAsync params ∧
      (ofText { topLevelAwait := false } (functionText isAsync params)).isOk = true ∧
      (ofText { topLevelAwait := false } (arrowText isAsync params)).isOk = false) ∧
    (∀ isAsync, ∀ params ∈ ["(a)", "[...a, b]", "[...a = b]"],
      IsParameterText { topLevelAwait := false } isAsync params ∧
      (ofText { topLevelAwait := false } (arrowText isAsync params)).isOk = true ∧
      (ofText { topLevelAwait := false } (functionText isAsync params)).isOk = false) ∧
    IsParameterText { topLevelAwait := false } true "...a, b" ∧
    (ofText { topLevelAwait := false } (arrowText true "...a, b")).isOk = true ∧
    (ofText { topLevelAwait := false } (functionText true "...a, b")).isOk = false := by
  decide +kernel

end Program

end EcmaEval
