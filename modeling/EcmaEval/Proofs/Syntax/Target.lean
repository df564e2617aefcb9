import EcmaEval.Proofs.Syntax.InStepExpression
import EcmaEval.Proofs.Syntax.Steps

/-!
# Expressions that are targets

An expression that can be taken as a pattern is a smallest expression.  An operator before or behind
an operand makes something else of it, and so do the members, calls and templates behind it.  So a
reader of operators that gives such an expression has read nothing but that.

## Main results

* `Grammar.primary_of_conditional`: a conditional expression that is a target is a smallest one
* `Grammar.assignmentTo_cases`: what an assignment that is a target was read from
* `Grammar.eq_of_primary_of_name`: a name that is a target
-/

namespace EcmaEval

/-! ## Patterns that look like expressions -/

/-- The pattern that is written like an element of an array. -/
def elementPattern? : Option Expression → Option (Option Pattern)
  | none => some none
  | some e => e.toPattern?.map some

/-- The pattern that is written like a member of an object. -/
def memberPattern? (m : ObjectMember) : Option PatternMember :=
  match m.kind with
  | .value => m.value.toPattern?.map fun target => ⟨m.key, target⟩
  | _ => none

theorem elementPatterns?_eq_mapM (elements : List (Option Expression)) :
    elementPatterns? elements = elements.mapM elementPattern? := by
  induction elements with
  | nil => rfl
  | cons element elements ih =>
    rw [List.mapM_cons, ← ih]
    cases element with
    | none => rfl
    | some e =>
      change (e.toPattern?.bind fun target =>
        (elementPatterns? elements).bind fun rest => some (some target :: rest)) = _
      rw [elementPattern?]
      cases e.toPattern? <;> rfl

theorem memberPatterns?_eq_mapM (members : List ObjectMember) :
    memberPatterns? members = members.mapM memberPattern? := by
  induction members with
  | nil => rfl
  | cons m members ih =>
    obtain ⟨kind, key, value, shorthand⟩ := m
    rw [List.mapM_cons, ← ih]
    cases kind with
    | value =>
      change (value.toPattern?.bind fun target =>
        (memberPatterns? members).bind fun rest => some (⟨key, target⟩ :: rest)) = _
      rw [memberPattern?]
      dsimp only
      cases value.toPattern? <;> rfl
    | _ => rfl

namespace Expression

theorem toPattern?_assign (e value : Expression) :
    (assign .plain e value).toPattern? = e.toPattern?.map fun target => .withDefault target value := by
  change (e.toPattern?.bind fun target => some (Pattern.withDefault target value)) = _
  cases e.toPattern? <;> rfl

theorem toPattern?_spread (e : Expression) : (spread e).toPattern? = e.toPattern?.map .rest := by
  change (e.toPattern?.bind fun target => some (Pattern.rest target)) = _
  cases e.toPattern? <;> rfl

theorem toPattern?_array (elements : List (Option Expression)) :
    (array elements).toPattern? = (elements.mapM elementPattern?).map .array := by
  change ((elementPatterns? elements).bind fun targets => some (Pattern.array targets)) = _
  rw [elementPatterns?_eq_mapM]
  cases elements.mapM elementPattern? <;> rfl

theorem toPattern?_object (members : List ObjectMember) :
    (object members).toPattern? = (members.mapM memberPattern?).map .object := by
  change ((memberPatterns? members).bind fun targets => some (Pattern.object targets)) = _
  rw [memberPatterns?_eq_mapM]
  cases members.mapM memberPattern? <;> rfl

end Expression

namespace Grammar

open Parse

/-! ## Readers that give no target -/

/-- The reader gives nothing that can be taken as a pattern. -/
def NoTarget (p : Parse Expression) : Prop :=
  ∀ ⦃c r x s⦄, p c r = .ok (x, s) → x.toPattern? = none

/-- Behind an expression the reader finds nothing, or it makes no target of it. -/
def Leaves (e : Expression) (p : Parse Expression) : Prop :=
  ∀ ⦃c r x s⦄, p c r = .ok (x, s) → x = e ∧ s = r ∨ x.toPattern? = none

section Rules

variable {α : Type} {p : Parse α} {f : α → Parse Expression} {e x : Expression} {c : Context}
  {r s : Reading}

namespace NoTarget

theorem bind (hf : ∀ a, NoTarget (f a)) : NoTarget (p >>= f) := by
  intro c r x s h
  obtain ⟨a, _, -, h⟩ := exists_of_bind_eq_ok h
  exact hf a h

theorem pure (he : e.toPattern? = none) : NoTarget (pure e) := by
  intro c r x s h
  cases h
  exact he

theorem fail {cause : SyntaxCause} : NoTarget (fail cause) :=
  fun _ _ _ _ h => nomatch h

theorem fail_bind {cause : SyntaxCause} : NoTarget ((Parse.fail cause : Parse α) >>= f) :=
  fun _ _ _ _ h => nomatch h

end NoTarget

namespace Leaves

theorem of_noTarget {p : Parse Expression} (h : NoTarget p) : Leaves e p :=
  fun _ _ _ _ hp => .inr (h hp)

theorem pure : Leaves e (pure e) := by
  intro c r x s h
  cases h
  exact .inl ⟨rfl, rfl⟩

/-- Nothing was found behind a target. -/
theorem eq {p : Parse Expression} {y : Pattern} (h : Leaves e p) (hp : p c r = .ok (x, s))
    (hx : x.toPattern? = some y) : e = x ∧ r = s := by
  rcases h hp with ⟨rfl, rfl⟩ | h
  · exact ⟨rfl, rfl⟩
  · rw [h] at hx
    cases hx

/-- No target becomes none by what stands behind it. -/
theorem noTarget {p : Parse Expression} (h : Leaves e p) (he : e.toPattern? = none) :
    NoTarget p := by
  intro c r x s hp
  rcases h hp with ⟨rfl, -⟩ | h
  · exact he
  · exact h

theorem current {f : Token → Parse Expression} (hf : ∀ token, Leaves e (f token)) :
    Leaves e (current >>= f) := fun _ r _ _ h => hf r.current h

theorem afterLineEnd {f : Bool → Parse Expression} (hf : ∀ b, Leaves e (f b)) :
    Leaves e (afterLineEnd >>= f) := fun _ r _ _ h => hf r.afterLineEnd h

theorem context {f : Context → Parse Expression} (hf : ∀ c, Leaves e (f c)) :
    Leaves e (context >>= f) := fun c _ _ _ h => hf c h

theorem atMark {mark : Punctuator} {f : Bool → Parse Expression} (hf : ∀ b, Leaves e (f b)) :
    Leaves e (atMark mark >>= f) := fun _ r _ _ h => hf (r.current.isMark mark) h

theorem skipMark {mark : Punctuator} {f : Bool → Parse Expression} (htrue : NoTarget (f true))
    (hfalse : Leaves e (f false)) : Leaves e (skipMark mark >>= f) := by
  intro c r x s h
  cases hmark : r.current.isMark mark with
  | false =>
    rw [skipMark_of_not hmark] at h
    exact hfalse h
  | true =>
    rw [skipMark_of_isMark hmark] at h
    exact .inr (NoTarget.bind (fun _ => htrue) h)

end Leaves

end Rules

variable {inner : Phrases} {c : Context} {r s : Reading} {x e : Expression} {level : Nat}

/-! ## What stands behind an operand -/

theorem leaves_operandTail (fuel : Nat) : Leaves e (operandTail inner fuel e) := by
  induction fuel generalizing e with
  | zero => exact .of_noTarget .fail
  | succ fuel ih =>
    refine .current fun token => ?_
    split
    · exact .of_noTarget (.bind fun _ => .bind fun _ => ih.noTarget rfl)
    split
    · exact .of_noTarget (.bind fun _ => ih.noTarget rfl)
    split
    · exact .of_noTarget (.bind fun _ => ih.noTarget rfl)
    split
    · exact .of_noTarget (.bind fun _ => ih.noTarget rfl)
    split
    · exact .of_noTarget (.bind fun _ => .bind fun _ => ih.noTarget rfl)
    · exact .pure

theorem leaves_binaryTail (fuel : Nat) : Leaves e (binaryTail inner level fuel e) := by
  induction fuel generalizing e with
  | zero => exact .of_noTarget .fail
  | succ fuel ih =>
    refine .context fun c => .current fun token => ?_
    split
    · exact .pure
    split
    · exact .pure
    · exact .of_noTarget (.bind fun _ => .bind fun _ => ih.noTarget rfl)

theorem leaves_logicalTail {mark : Punctuator} {op : LogicalOperator} {next : Parse Expression}
    (fuel : Nat) : Leaves e (logicalTail mark op next fuel e) := by
  induction fuel generalizing e with
  | zero => exact .of_noTarget .fail
  | succ fuel ih => exact .skipMark (.bind fun _ => ih.noTarget rfl) .pure

/-- A construction is no target. -/
theorem noTarget_construction : NoTarget (construction inner) := by
  have hnewTarget : NoTarget newTarget := by
    refine .bind fun token => ?_
    split
    · refine .bind fun c => ?_
      dsimp only
      split
      · exact .bind fun _ => .pure rfl
      · exact .fail_bind
    · exact .fail
  refine .bind fun _ => .bind fun dot => ?_
  split
  · exact hnewTarget
  dsimp only
  refine .bind fun atNew => ?_
  split <;> refine .bind fun _ => .bind fun _ => .bind fun atArguments => ?_ <;> split <;>
    exact .bind fun _ => .pure rfl

/-! ## Operators around an operand -/

variable {y : Pattern}

/-- A target behind which nothing can leave a target is what was read first. -/
theorem first_of_leaves {p : Parse Expression} {f : Expression → Parse Expression}
    (hf : ∀ e, Leaves e (f e)) (h : (p >>= f) c r = .ok (x, s)) (hx : x.toPattern? = some y) :
    p c r = .ok (x, s) := by
  obtain ⟨e, r', he, h⟩ := exists_of_bind_eq_ok h
  obtain ⟨rfl, rfl⟩ := (hf e).eq h hx
  exact he

theorem operand_of_stepped (h : stepped inner c r = .ok (x, s)) (hx : x.toPattern? = some y) :
    operand inner c r = .ok (x, s) := by
  refine first_of_leaves (fun e => .afterLineEnd fun line => ?_) h hx
  split
  · exact .pure
  refine .current fun token => ?_
  split
  · exact .pure
  · exact .of_noTarget (.bind fun _ => .bind fun _ => .pure rfl)

theorem primary_of_operand (h : operand inner c r = .ok (x, s)) (hx : x.toPattern? = some y) :
    r.current.isWord .newWord = false ∧ primary inner c r = .ok (x, s) := by
  unfold operand at h
  rw [atWord_bind] at h
  dsimp only at h
  cases hword : r.current.isWord .newWord with
  | true =>
    rw [hword, if_pos rfl] at h
    have hconstruction := first_of_leaves (fun e => leaves_operandTail _) h hx
    rw [noTarget_construction hconstruction] at hx
    cases hx
  | false =>
    rw [hword, if_neg Bool.false_ne_true] at h
    exact ⟨rfl, first_of_leaves (fun e => leaves_operandTail _) h hx⟩

theorem primary_of_unary (h : unary inner c r = .ok (x, s)) (hx : x.toPattern? = some y) :
    opensPrimary c r.current = true ∧ primary inner c r = .ok (x, s) := by
  unfold unary at h
  rw [current_bind] at h
  cases hunary : unaryOperator? r.current with
  | some op =>
    simp only [hunary] at h
    have hnone : NoTarget (advance >>= fun _ => inner.unary >>= fun e => pure (.unary op e)) :=
      .bind fun _ => .bind fun _ => .pure rfl
    rw [hnone h] at hx
    cases hx
  | none =>
  cases hupdate : updateOperator? r.current with
  | some op =>
    simp only [hunary, hupdate] at h
    have hnone : NoTarget (do
        advance
        let target ← inner.unary
        checkTarget true target
        return .update op true target) :=
      .bind fun _ => .bind fun _ => .bind fun _ => .pure rfl
    rw [hnone h] at hx
    cases hx
  | none =>
  simp only [hunary, hupdate] at h
  rw [context_bind] at h
  cases hawait : r.current.isWord .awaitWord && c.awaits with
  | true =>
    rw [hawait, if_pos rfl] at h
    have hnone : NoTarget (advance >>= fun _ => inner.unary >>= fun e => pure (.await e)) :=
      .bind fun _ => .bind fun _ => .pure rfl
    rw [hnone h] at hx
    cases hx
  | false =>
    rw [hawait, if_neg Bool.false_ne_true] at h
    obtain ⟨hnew, hprimary⟩ := primary_of_operand (operand_of_stepped h hx) hx
    exact ⟨by simp [opensPrimary, hunary, hupdate, hawait, hnew], hprimary⟩

/-! ## Operators between operands -/

theorem unary_of_power (h : power inner c r = .ok (x, s)) (hx : x.toPattern? = some y) :
    unary inner c r = .ok (x, s) := by
  rw [power, current_bind] at h
  refine first_of_leaves (fun e => .atMark fun power => ?_) h hx
  split
  · dsimp only
    split
    · exact .of_noTarget .fail_bind
    · exact .of_noTarget (.bind fun _ => .bind fun _ => .pure rfl)
  · exact .pure

/-- A conditional expression that is a target is a smallest expression with nothing behind it. -/
theorem primary_of_conditional (h : conditional inner c r = .ok (x, s))
    (hx : x.toPattern? = some y) :
    opensPrimary c r.current = true ∧ primary inner c r = .ok (x, s) := by
  have hcoalescence : coalescence inner c r = .ok (x, s) := by
    refine first_of_leaves (fun e => ?_) h hx
    exact .skipMark (.bind fun _ => .bind fun _ => .bind fun _ => .pure rfl) .pure
  have hdisjunction := first_of_leaves (fun e => leaves_logicalTail _) hcoalescence hx
  have hconjunction := first_of_leaves (fun e => leaves_logicalTail _) hdisjunction hx
  have hbinary := first_of_leaves (fun e => leaves_logicalTail _) hconjunction hx
  have hpower := first_of_leaves (fun e => leaves_binaryTail _) hbinary hx
  exact primary_of_unary (unary_of_power hpower hx) hx

/-! ## Assignments -/

/-- Only an equals sign is a plain assignment. -/
theorem assignmentOperator?_eq_plain_iff {token : Token} :
    assignmentOperator? token = some .plain ↔ token = .punctuator .assign := by
  refine ⟨fun h => ?_, fun h => h ▸ rfl⟩
  unfold assignmentOperator? at h
  split at h <;> first | rfl | cases h

theorem assignment_eq_of_not_inGenerator (hc : c.inGenerator = false) :
    assignment inner c r = (conditional inner >>= assignmentTo inner) c r := by
  rw [assignment_eq, context_bind, atWord_bind, hc, Bool.false_and, if_neg Bool.false_ne_true]

theorem assignmentTo_of_none (h : assignmentOperator? r.current = none) :
    assignmentTo inner e c r = .ok (e, r) := by
  rw [assignmentTo, current_bind, h]
  rfl

theorem assignmentTo_of_isMark (hr : r.current.isMark .assign = true)
    (he : isTarget false e = true) : assignmentTo inner e c r =
      (advance >>= fun _ => inner.assignment >>= fun value => pure (.assign .plain e value)) c r := by
  have hcheck (c : Context) (r : Reading) : checkTarget false e c r = .ok ((), r) := by
    rw [checkTarget, he]
    rfl
  rw [assignmentTo, current_bind, Token.eq_of_isMark hr]
  exact bind_of_ok (hcheck c r)

/-- What an assignment that is a target was read from: nothing else, or a target with a value. -/
theorem assignmentTo_cases (h : assignmentTo inner e c r = .ok (x, s))
    (hx : x.toPattern? = some y) :
    (x = e ∧ s = r ∧ assignmentOperator? r.current = none) ∨
    r.current = .punctuator .assign ∧ ∃ t, e.toPattern? = some t := by
  rw [assignmentTo, current_bind] at h
  cases hop : assignmentOperator? r.current with
  | none =>
    simp only [hop] at h
    cases h
    exact .inl ⟨rfl, rfl, rfl⟩
  | some op =>
    simp only [hop] at h
    obtain ⟨_, _, -, h⟩ := exists_of_bind_eq_ok h
    obtain ⟨_, _, -, h⟩ := exists_of_bind_eq_ok h
    obtain ⟨value, _, -, h⟩ := exists_of_bind_eq_ok h
    cases h
    cases op with
    | plain =>
      rw [Expression.toPattern?_assign] at hx
      obtain ⟨t, ht, -⟩ := Option.map_eq_some_iff.mp hx
      exact .inr ⟨assignmentOperator?_eq_plain_iff.mp hop, t, ht⟩
    | compound => cases hx
    | logical => cases hx

/-! ## Smallest expressions -/

variable {name : String}

theorem noTarget_arrow {params : List Pattern} {isAsync : Bool} :
    NoTarget (arrow inner params isAsync) := by
  have hbody : NoTarget (do
      let body ←
        if ← Parse.atMark .leftBrace then FunctionBody.block <$> bodyBlock inner
        else FunctionBody.expression <$> inner.assignment
      return .arrow
        { name := none, params, body, isArrow := true, isAsync, isGenerator := false }) := by
    refine .bind fun brace => ?_
    split <;> exact .bind fun _ => .pure rfl
  exact .bind fun _ _ _ _ _ h => hbody h

theorem noTarget_functionExpression {isAsync : Bool} :
    NoTarget (functionExpression inner isAsync) :=
  .bind fun _ => .bind fun _ => .bind fun _ => .bind fun _ => .pure rfl

/-- A token that is no name and no bracket begins no target. -/
theorem noTarget_primary (hname : c.name? r.current = none)
    (hparen : r.current.isMark .leftParen = false)
    (hbracket : r.current.isMark .leftBracket = false)
    (hbrace : r.current.isMark .leftBrace = false) (h : primary inner c r = .ok (x, s)) :
    x.toPattern? = none := by
  have hnamed (h : named inner c r = .ok (x, s)) : x.toPattern? = none := by
    rw [named, expectName, bind_assoc, name?_bind, hname] at h
    cases h
  have hadvance {e : Expression} (he : e.toPattern? = none)
      (h : (advance >>= fun _ => pure e) c r = .ok (x, s)) : x.toPattern? = none :=
    NoTarget.bind (fun _ => .pure he) h
  have hregExp (front : String) (h : regExp front c r = .ok (x, s)) : x.toPattern? = none := by
    refine NoTarget.bind (fun token => ?_) h
    split
    · exact .bind fun _ => .pure rfl
    · exact fun _ _ _ _ h => by cases h
  have htemplate (h : plainTemplate inner c r = .ok (x, s)) : x.toPattern? = none := by
    refine NoTarget.bind (fun found => ?_) h
    dsimp only
    split
    · exact .fail_bind
    · exact .pure rfl
  rw [primary, current_bind] at h
  cases htoken : r.current with
  | punctuator mark =>
    rw [htoken] at hparen hbracket hbrace h
    cases mark with
    | leftParen => cases hparen
    | leftBracket => cases hbracket
    | leftBrace => cases hbrace
    | slash => exact hregExp "" h
    | slashAssign => exact hregExp "=" h
    | _ => exact hnamed h
  | keyword word =>
    rw [htoken] at hname h
    cases word with
    | thisWord => exact hadvance rfl h
    | superWord =>
      refine NoTarget.bind (fun _ => .bind fun _ => .bind fun token => ?_) h
      split
      · split
        · exact .pure rfl
        · exact .fail
      · split
        · exact .pure rfl
        · exact .fail
      · split
        · exact .pure rfl
        · exact .fail
      · exact .fail
    | asyncWord => cases hname
    | functionWord => exact noTarget_functionExpression h
    | classWord => exact NoTarget.bind (fun _ => .pure rfl) h
    | _ => exact hnamed h
  | template part cooked raw =>
    rw [htoken] at h
    cases part with
    | whole => exact htemplate h
    | head => exact htemplate h
    | _ => exact hnamed h
  | numeric | bigint | string | boolean | null =>
    rw [htoken] at h
    exact hadvance rfl h
  | identifier | regExp | lineEnd | endOfInput =>
    rw [htoken] at h
    exact hnamed h

/-! ### Names -/

theorem opensPrimary_of_name (hname : c.name? r.current = some name) :
    opensPrimary c r.current = true := by
  generalize r.current = token at hname
  cases token with
  | identifier => rfl
  | keyword word =>
    cases word with
    | awaitWord =>
      cases hawaits : c.awaits with
      | true => simp [Context.name?, hawaits] at hname
      | false => simp [opensPrimary, hawaits, unaryOperator?, updateOperator?, Token.isWord]
    | asyncWord | ofWord | staticWord | letWord | yieldWord => rfl
    | _ => cases hname
  | _ => cases hname

theorem primary_eq_named (hname : c.name? r.current = some name)
    (hasync : r.current.isWord .asyncWord = false) : primary inner c r = named inner c r := by
  rw [primary, current_bind]
  cases htoken : r.current with
  | identifier => rfl
  | keyword word =>
    rw [htoken] at hname hasync
    cases word with
    | asyncWord => cases hasync
    | awaitWord | ofWord | staticWord | letWord | yieldWord => rfl
    | _ => cases hname
  | _ => simp [htoken, Context.name?] at hname

theorem primary_eq_asyncOperand (hasync : r.current.isWord .asyncWord = true) :
    primary inner c r = asyncOperand inner c r := by
  rw [primary, current_bind, Token.eq_of_isWord hasync]

theorem expectName_of_name {β : Type} (hname : c.name? r.current = some name)
    (f : String → Parse β) : (expectName >>= f) c r = (advance >>= fun _ => f name) c r := by
  rw [expectName, bind_assoc, name?_bind, hname]
  dsimp only
  rw [bind_assoc]
  rfl

/-- A name that nothing follows is an expression. -/
theorem primary_of_name (hname : c.name? r.current = some name)
    (hadvance : advance c r = .ok ((), s)) (hs : s.current.closesOperand = true) :
    primary inner c r = .ok (.identifier name, s) := by
  have harrow : s.current.isMark .arrow = false := isMark_of_closesOperand hs rfl
  have hatArrow {β : Type} (f : Bool → Parse β) : (atArrow >>= f) c s = f false c s := by
    rw [atArrow, bind_assoc, atMark_bind, harrow]
    rfl
  cases hasync : r.current.isWord .asyncWord with
  | false =>
    rw [primary_eq_named hname hasync, named, expectName_of_name hname, bind_of_ok hadvance,
      hatArrow]
    rfl
  | true =>
    obtain rfl : "async" = name := by
      rw [Token.eq_of_isWord hasync] at hname
      exact Option.some.inj hname
    rw [primary_eq_asyncOperand hasync, asyncOperand, bind_of_ok (peek_of_advance hadvance)]
    dsimp only
    rw [bind_of_ok hadvance]
    have hplain : (atArrow >>= fun b =>
        if b then arrow inner [.identifier "async"] false else pure (.identifier "async")) c s =
          .ok (.identifier "async", s) := hatArrow _
    cases s.afterLineEnd with
    | true => rfl
    | false =>
      rw [if_neg Bool.false_ne_true]
      cases htoken : s.current with
      | punctuator mark =>
        rw [htoken] at hs
        cases mark with
        | leftParen => cases hs
        | _ => exact hplain
      | keyword | identifier =>
        rw [htoken] at hs
        cases hs
      | _ => exact hplain

/-- A name that is read as a target is read as that name. -/
theorem eq_of_primary_of_name (hname : c.name? r.current = some name)
    (h : primary inner c r = .ok (x, s)) (hx : x.toPattern? = some y) :
    y = .identifier name ∧ advance c r = .ok ((), s) := by
  have hatArrow {r' : Reading} {p q : Parse Expression} (hp : NoTarget p)
      (h : (atArrow >>= fun b => if b then p else q) c r' = .ok (x, s)) :
      q c r' = .ok (x, s) := by
    rw [atArrow, bind_assoc, atMark_bind] at h
    cases harrow : r'.current.isMark .arrow with
    | false =>
      rw [harrow] at h
      exact h
    | true =>
      rw [harrow, if_pos rfl, bind_assoc, afterLineEnd_bind, pure_bind] at h
      split at h
      · rw [hp h] at hx
        cases hx
      · exact h
  cases hasync : r.current.isWord .asyncWord with
  | false =>
    rw [primary_eq_named hname hasync, named, expectName_of_name hname] at h
    obtain ⟨_, r', hadvance, h⟩ := exists_of_bind_eq_ok h
    cases hatArrow noTarget_arrow h
    cases hx
    exact ⟨rfl, hadvance⟩
  | true =>
    obtain rfl : "async" = name := by
      rw [Token.eq_of_isWord hasync] at hname
      exact Option.some.inj hname
    rw [primary_eq_asyncOperand hasync, asyncOperand] at h
    obtain ⟨⟨next, line⟩, r₁, hpeek, h⟩ := exists_of_bind_eq_ok h
    have hr₁ : r₁ = r := by
      unfold peek at hpeek
      split at hpeek <;> cases hpeek
      rfl
    dsimp only at h
    rw [hr₁] at h
    obtain ⟨_, r', hadvance, h⟩ := exists_of_bind_eq_ok h
    have hidentifier (h : (pure (.identifier "async") : Parse Expression) c r' = .ok (x, s)) :
        y = .identifier "async" ∧ advance c r = .ok ((), s) := by
      cases h
      cases hx
      exact ⟨rfl, hadvance⟩
    have hnone {p : Parse Expression} (hp : NoTarget p) (h : p c r' = .ok (x, s)) :
        y = .identifier "async" ∧ advance c r = .ok ((), s) := by
      rw [hp h] at hx
      cases hx
    cases line with
    | true => exact hidentifier h
    | false =>
      rw [if_neg Bool.false_ne_true] at h
      cases next with
      | punctuator mark =>
        cases mark with
        | leftParen =>
          refine hnone (.bind fun args => .bind fun found => ?_) h
          split
          · exact .bind fun _ => noTarget_arrow
          · exact .pure rfl
        | _ => exact hidentifier (hatArrow noTarget_arrow h)
      | keyword word =>
        cases word with
        | functionWord => exact hnone noTarget_functionExpression h
        | _ => exact hidentifier (hatArrow noTarget_arrow h)
      | identifier =>
        refine hnone (.bind fun _ => .bind fun found => ?_) h
        split
        · exact noTarget_arrow
        · exact fun _ _ _ _ h => nomatch h
      | _ => exact hidentifier (hatArrow noTarget_arrow h)

end Grammar

end EcmaEval
