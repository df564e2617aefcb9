import EcmaEval.Proofs.Syntax.Pairing
import EcmaEval.Grammar.Expression

/-!
# Readers on one reading

What the small readers do where the token at hand is known, and the readers of operators where no
operator is.  An operand that nothing follows is all that the readers of looser phrases read.

## Main definitions

* `Token.closesOperand`: nothing that follows an operand begins with the token
* `Token.opensPrimary`: no operator before an operand begins with the token

## Main results

* `Grammar.conditional_of_unary`: an operand with nothing behind it is a conditional expression
* `Grammar.assignment_of_conditional`: a conditional expression with no assignment behind it
* `Grammar.unary_of_primary`: a smallest expression with nothing behind it is an operand
-/

namespace EcmaEval

/-! ## Small readers -/

namespace Parse

variable {α β : Type} {p : Parse α} {f : α → Parse β} {c : Context} {r s : Reading} {x : α}
  {e : SyntaxError} {mark : Punctuator}

theorem bind_of_ok (h : p c r = .ok (x, s)) : (p >>= f) c r = f x c s := by
  rw [bind_apply, h]

theorem bind_of_error (h : p c r = .error e) : (p >>= f) c r = .error e := by
  rw [bind_apply, h]

/-- A value in another form is given where the value is. -/
theorem error_of_bind_pure {f : α → β} (h : (p >>= fun x => pure (f x)) c r = .error e) :
    p c r = .error e := by
  cases hp : p c r with
  | ok found =>
    rw [bind_of_ok hp] at h
    cases h
  | error e' =>
    rw [bind_of_error hp] at h
    cases h
    rfl

@[simp] theorem pure_apply (x : α) (c : Context) (r : Reading) :
    (pure x : Parse α) c r = .ok (x, r) := rfl

@[simp] theorem current_bind (f : Token → Parse β) (c : Context) (r : Reading) :
    (current >>= f) c r = f r.current c r := rfl

@[simp] theorem afterLineEnd_bind (f : Bool → Parse β) (c : Context) (r : Reading) :
    (afterLineEnd >>= f) c r = f r.afterLineEnd c r := rfl

@[simp] theorem context_bind (f : Context → Parse β) (c : Context) (r : Reading) :
    (context >>= f) c r = f c c r := rfl

@[simp] theorem atMark_bind (mark : Punctuator) (f : Bool → Parse β) (c : Context) (r : Reading) :
    (atMark mark >>= f) c r = f (r.current.isMark mark) c r := rfl

@[simp] theorem atWord_bind (word : Keyword) (f : Bool → Parse β) (c : Context) (r : Reading) :
    (atWord word >>= f) c r = f (r.current.isWord word) c r := rfl

@[simp] theorem name?_bind (f : Option String → Parse β) (c : Context) (r : Reading) :
    (name? >>= f) c r = f (c.name? r.current) c r := rfl

theorem skipMark_of_isMark (h : r.current.isMark mark = true) (f : Bool → Parse β) :
    (skipMark mark >>= f) c r = (advance >>= fun _ => f true) c r := by
  unfold skipMark
  rw [bind_assoc, atMark_bind, h, if_pos rfl, bind_assoc]
  rfl

theorem skipMark_of_not (h : r.current.isMark mark = false) (f : Bool → Parse β) :
    (skipMark mark >>= f) c r = f false c r := by
  unfold skipMark
  rw [bind_assoc, atMark_bind, h]
  rfl

theorem expect_of_isMark (h : r.current.isMark mark = true) (f : Unit → Parse β) :
    (expect mark >>= f) c r = (advance >>= f) c r := by
  unfold expect
  rw [bind_assoc, atMark_bind, h, if_pos rfl]

theorem expect_of_not (h : r.current.isMark mark = false) (f : Unit → Parse β) :
    (expect mark >>= f) c r = (unexpected : Parse β) c r := by
  unfold expect
  rw [bind_assoc, atMark_bind, h]
  rfl

theorem separator_of_isMark (h : r.current.isMark mark = true) (f : Unit → Parse β) :
    (separator mark >>= f) c r = f () c r := by
  unfold separator
  rw [bind_assoc, atMark_bind, h, if_pos rfl, pure_bind]

theorem separator_of_not (h : r.current.isMark mark = false) (f : Unit → Parse β) :
    (separator mark >>= f) c r = (expect .comma >>= f) c r := by
  unfold separator
  rw [bind_assoc, atMark_bind, h, if_neg Bool.false_ne_true]

/-- A separator is the same wherever it stands. -/
theorem separator_congr (close : Punctuator) (c c' : Context) (r : Reading) :
    separator close c r = separator close c' r := by
  unfold separator
  rw [atMark_bind, atMark_bind]
  split
  · rfl
  · unfold expect
    rw [atMark_bind, atMark_bind]
    split <;> rfl

/-- A separator was passed, or the list ends here. -/
theorem separator_cases (h : separator mark c r = .ok ((), s)) :
    r.current.isMark mark = true ∧ s = r ∨
      r.current.isMark mark = false ∧ r.current.isMark .comma = true ∧
        advance c r = .ok ((), s) := by
  unfold separator at h
  rw [atMark_bind] at h
  cases hmark : r.current.isMark mark with
  | true =>
    rw [hmark, if_pos rfl] at h
    cases h
    exact .inl ⟨rfl, rfl⟩
  | false =>
    rw [hmark, if_neg Bool.false_ne_true] at h
    unfold expect at h
    rw [atMark_bind] at h
    split at h
    · next hcomma => exact .inr ⟨rfl, hcomma, h⟩
    · cases h

/-- The operator `in` is allowed already. -/
theorem withIn_of_noIn (h : c.noIn = false) : withIn p c r = p c r := by
  have hc : { c with noIn := false } = c := by rw [← h]
  exact congrArg (fun c => p c r) hc

/-- A look ahead sees the token that is passed next. -/
theorem peek_of_advance (h : advance c r = .ok ((), s)) :
    peek c r = .ok ((s.current, s.afterLineEnd), r) := by
  unfold advance at h
  unfold peek
  cases hnext : Lexer.nextOnLine r.cursor false with
  | ok found d =>
    rw [hnext] at h
    cases h
    rfl
  | error e d =>
    rw [hnext] at h
    cases h

theorem peek_of_advance_error (h : advance c r = .error e) : peek c r = .error e := by
  unfold advance at h
  unfold peek
  cases hnext : Lexer.nextOnLine r.cursor false with
  | ok found d =>
    rw [hnext] at h
    cases h
  | error e d =>
    rw [hnext] at h
    cases h
    rfl

/-- A punctuator is one mark only. -/
theorem isMark_of_isMark {token : Token} {mark' : Punctuator} (h : token.isMark mark = true)
    (hne : mark ≠ mark') : token.isMark mark' = false := by
  rw [Token.eq_of_isMark h]
  exact beq_false_of_ne hne

end Parse

/-! ## Operands with nothing behind them -/

namespace Token

/-- No operator, member, call or template that follows an operand begins with the token. -/
def closesOperand : Token → Bool
  | .punctuator mark =>
    match mark with
    | .comma | .colon | .semicolon | .assign | .rightParen | .rightBracket | .rightBrace => true
    | _ => false
  | .endOfInput => true
  | _ => false

end Token

namespace Grammar

open Parse

variable {inner : Phrases} {c : Context} {r s : Reading} {e : Expression} {level : Nat}

/-- A token that closes an operand is none of the marks that are looked for behind one. -/
theorem isMark_of_closesOperand {token : Token} (h : token.closesOperand = true) {mark : Punctuator}
    (hmark : (Token.punctuator mark).closesOperand = false) : token.isMark mark = false := by
  refine Bool.eq_false_iff.mpr fun hmark' => ?_
  rw [Token.eq_of_isMark hmark', hmark] at h
  cases h

theorem updateOperator?_of_closesOperand {token : Token} (h : token.closesOperand = true) :
    updateOperator? token = none := by
  unfold updateOperator?
  split <;> first | rfl | cases h

theorem binaryOperator?_of_closesOperand {token : Token} (h : token.closesOperand = true)
    (noIn : Bool) : binaryOperator? noIn token = none := by
  unfold binaryOperator?
  split <;> first | rfl | cases h

theorem beginsTemplate_of_closesOperand {token : Token} (h : token.closesOperand = true) :
    beginsTemplate token = false := by
  unfold beginsTemplate
  split <;> first | rfl | cases h

theorem power_of_unary (h : unary inner c r = .ok (e, s)) (hs : s.current.closesOperand = true) :
    power inner c r = .ok (e, s) := by
  unfold power
  rw [current_bind, bind_of_ok h, atMark_bind, isMark_of_closesOperand hs rfl]
  rfl

theorem binary_of_unary (hfuel : 0 < inner.fuel) (h : unary inner c r = .ok (e, s))
    (hs : s.current.closesOperand = true) : binary inner level c r = .ok (e, s) := by
  unfold binary
  rw [bind_of_ok (power_of_unary h hs)]
  obtain ⟨fuel, hfuel⟩ := Nat.exists_eq_succ_of_ne_zero hfuel.ne'
  rw [hfuel, binaryTail, context_bind, current_bind, binaryOperator?_of_closesOperand hs]
  rfl

theorem logicalTail_of_closesOperand (hs : s.current.closesOperand = true) {mark : Punctuator}
    (hmark : (Token.punctuator mark).closesOperand = false) (op : LogicalOperator)
    (next : Parse Expression) {fuel : Nat} (hfuel : 0 < fuel) :
    logicalTail mark op next fuel e c s = .ok (e, s) := by
  obtain ⟨fuel, rfl⟩ := Nat.exists_eq_succ_of_ne_zero hfuel.ne'
  rw [logicalTail, skipMark_of_not (isMark_of_closesOperand hs hmark)]
  rfl

theorem coalescence_of_unary (hfuel : 0 < inner.fuel) (h : unary inner c r = .ok (e, s))
    (hs : s.current.closesOperand = true) : coalescence inner c r = .ok (e, s) := by
  have hconjunction : conjunction inner c r = .ok (e, s) := by
    rw [conjunction, bind_of_ok (binary_of_unary hfuel h hs)]
    exact logicalTail_of_closesOperand hs rfl _ _ hfuel
  have hdisjunction : disjunction inner c r = .ok (e, s) := by
    rw [disjunction, bind_of_ok hconjunction]
    exact logicalTail_of_closesOperand hs rfl _ _ hfuel
  rw [coalescence, bind_of_ok hdisjunction]
  exact logicalTail_of_closesOperand hs rfl _ _ hfuel

/-- An operand that nothing follows is a conditional expression. -/
theorem conditional_of_unary (hfuel : 0 < inner.fuel) (h : unary inner c r = .ok (e, s))
    (hs : s.current.closesOperand = true) : conditional inner c r = .ok (e, s) := by
  rw [conditional, bind_of_ok (coalescence_of_unary hfuel h hs),
    skipMark_of_not (isMark_of_closesOperand hs rfl)]
  rfl

/-- The first operand fails for all expressions that begin with it. -/
theorem conditional_of_unary_error {x : SyntaxError} (h : unary inner c r = .error x) :
    conditional inner c r = .error x := by
  have hpower : power inner c r = .error x := by
    rw [power, current_bind, bind_of_error h]
  have hbinary : binary inner 0 c r = .error x := bind_of_error hpower
  have hconjunction : conjunction inner c r = .error x := bind_of_error hbinary
  have hdisjunction : disjunction inner c r = .error x := bind_of_error hconjunction
  have hcoalescence : coalescence inner c r = .error x := bind_of_error hdisjunction
  exact bind_of_error hcoalescence

/-- A conditional expression that no assignment follows. -/
theorem assignment_of_conditional (hc : c.inGenerator = false)
    (h : conditional inner c r = .ok (e, s)) (hs : assignmentOperator? s.current = none) :
    assignment inner c r = .ok (e, s) := by
  rw [assignment, context_bind, atWord_bind, hc, Bool.false_and, if_neg Bool.false_ne_true,
    bind_of_ok h, current_bind, hs]
  rfl

theorem assignment_of_conditional_error {x : SyntaxError} (hc : c.inGenerator = false)
    (h : conditional inner c r = .error x) : assignment inner c r = .error x := by
  rw [assignment, context_bind, atWord_bind, hc, Bool.false_and, if_neg Bool.false_ne_true,
    bind_of_error h]

/-! ## Operands without operators -/

/-- The token begins an operand that has no operator before it and is no construction. -/
def opensPrimary (c : Context) (token : Token) : Bool :=
  (unaryOperator? token).isNone && (updateOperator? token).isNone &&
    !(token.isWord .awaitWord && c.awaits) && !token.isWord .newWord

theorem operand_of_primary (hfuel : 0 < inner.fuel) (hr : r.current.isWord .newWord = false)
    (h : primary inner c r = .ok (e, s)) (hs : s.current.closesOperand = true) :
    operand inner c r = .ok (e, s) := by
  have hmark (mark : Punctuator) (hmark : (Token.punctuator mark).closesOperand = false) :
      s.current.isMark mark = false := isMark_of_closesOperand hs hmark
  obtain ⟨fuel, hfuel⟩ := Nat.exists_eq_succ_of_ne_zero hfuel.ne'
  rw [operand, atWord_bind, hr, if_neg Bool.false_ne_true, bind_of_ok h]
  dsimp only
  rw [hfuel, operandTail, current_bind]
  simp only [hmark .dot rfl, hmark .leftBracket rfl, hmark .leftParen rfl, hmark .optionalChain rfl,
    beginsTemplate_of_closesOperand hs, Bool.false_eq_true, if_false]
  rfl

/-- An operand without an operator before it. -/
theorem unary_eq_stepped (hr : opensPrimary c r.current = true) :
    unary inner c r = stepped inner c r := by
  simp only [opensPrimary, Bool.and_eq_true, Option.isNone_iff_eq_none, Bool.not_eq_true'] at hr
  obtain ⟨⟨⟨hunary, hupdate⟩, hawait⟩, hnew⟩ := hr
  rw [unary, current_bind]
  simp only [hunary, hupdate]
  rw [context_bind, hawait]
  rfl

/-- A smallest expression that nothing follows is an operand. -/
theorem unary_of_primary (hfuel : 0 < inner.fuel) (hr : opensPrimary c r.current = true)
    (h : primary inner c r = .ok (e, s)) (hs : s.current.closesOperand = true) :
    unary inner c r = .ok (e, s) := by
  have hnew : r.current.isWord .newWord = false := by
    simp only [opensPrimary, Bool.and_eq_true, Bool.not_eq_true'] at hr
    exact hr.2
  rw [unary_eq_stepped hr, stepped, bind_of_ok (operand_of_primary hfuel hnew h hs),
    afterLineEnd_bind]
  split
  · rfl
  · rw [current_bind, updateOperator?_of_closesOperand hs]
    rfl

theorem unary_of_primary_error {x : SyntaxError} (hr : opensPrimary c r.current = true)
    (h : primary inner c r = .error x) : unary inner c r = .error x := by
  have hnew : r.current.isWord .newWord = false := by
    simp only [opensPrimary, Bool.and_eq_true, Bool.not_eq_true'] at hr
    exact hr.2
  have hoperand : operand inner c r = .error x := by
    rw [operand, atWord_bind, hnew, if_neg Bool.false_ne_true, bind_of_error h]
  rw [unary_eq_stepped hr, stepped, bind_of_error hoperand]

end Grammar

end EcmaEval
