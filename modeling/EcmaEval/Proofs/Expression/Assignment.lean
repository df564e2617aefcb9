import EcmaEval.Proofs.Conduct.Store
import EcmaEval.Session

/-!
# Assignments with an operator

An assignment with an operator to a name stands for a longer expression with a plain assignment in it:
`x op= e` for `x = x op e`, and where the operator may skip its right operand for `x op (x = e)`.  The
assignment goes its own way through the name, the operand and the operator.  It does the same things
in the same order, and takes one level of evaluation less.

## Main definitions

* `Grammar.MarkOf`: the operator that a mark stands for
* `Engine.ComesTo`: how the evaluation of an expression ends, however deep it goes
* `Engine.StandsFor`: an expression does the same as a longer one

## Main results

* `Engine.assignments_unfold`: an assignment with an operator stands for its longer expression
-/

namespace EcmaEval

namespace Grammar

/-! ## Marks of assignments -/

/-- The operator that a mark stands for between two operands. -/
inductive MarkOf : Punctuator → AssignmentOperator → Prop where
  | power : MarkOf .exponent (.compound .power)
  | binary {mark : Punctuator} {op : BinaryOperator} {tightness : Nat}
    (h : binaryOperator? false (.punctuator mark) = some (op, tightness)) :
    MarkOf mark (.compound op)
  | and : MarkOf .logicalAnd (.logical .and)
  | or : MarkOf .logicalOr (.logical .or)
  | coalesce : MarkOf .nullishCoalescing (.logical .coalesce)

/-- An assignment with an operator is written with the mark of the operator and an equals sign. -/
theorem exists_markOf {mark : Punctuator} {op : AssignmentOperator}
    (h : assignmentOperator? (.punctuator mark) = some op) (hop : op ≠ .plain) :
    ∃ bare, MarkOf bare op ∧ mark.spelling = bare.spelling ++ ['='] := by
  cases mark with
  | plusAssign => cases h; exact ⟨.plus, .binary rfl, rfl⟩
  | minusAssign => cases h; exact ⟨.minus, .binary rfl, rfl⟩
  | starAssign => cases h; exact ⟨.star, .binary rfl, rfl⟩
  | slashAssign => cases h; exact ⟨.slash, .binary rfl, rfl⟩
  | percentAssign => cases h; exact ⟨.percent, .binary rfl, rfl⟩
  | exponentAssign => cases h; exact ⟨.exponent, .power, rfl⟩
  | leftShiftAssign => cases h; exact ⟨.leftShift, .binary rfl, rfl⟩
  | rightShiftAssign => cases h; exact ⟨.rightShift, .binary rfl, rfl⟩
  | unsignedRightShiftAssign => cases h; exact ⟨.unsignedRightShift, .binary rfl, rfl⟩
  | ampersandAssign => cases h; exact ⟨.ampersand, .binary rfl, rfl⟩
  | pipeAssign => cases h; exact ⟨.pipe, .binary rfl, rfl⟩
  | caretAssign => cases h; exact ⟨.caret, .binary rfl, rfl⟩
  | logicalAndAssign => cases h; exact ⟨.logicalAnd, .and, rfl⟩
  | logicalOrAssign => cases h; exact ⟨.logicalOr, .or, rfl⟩
  | nullishAssign => cases h; exact ⟨.nullishCoalescing, .coalesce, rfl⟩
  | assign => cases h; exact absurd rfl hop
  | _ => cases h

end Grammar

namespace Engine

open EcmaEval.Action

variable {name x : String} {scope : FrameId} {e e' : Expression} {m : Machine}
  {result result' : EStateM.Result Abrupt Machine Value}

/-! ## How an evaluation ends -/

/-- The evaluation of an expression ends in this way, with all fuel from some amount on. -/
def ComesTo (name : String) (scope : FrameId) (e : Expression) (m : Machine)
    (result : EStateM.Result Abrupt Machine Value) : Prop :=
  ∃ enough, ∀ fuel, enough ≤ fuel → (ofFuel fuel).evaluateAs name scope e m = result

/-- An evaluation ends in one way only. -/
theorem ComesTo.unique (h : ComesTo name scope e m result) (h' : ComesTo name scope e m result') :
    result = result' := by
  obtain ⟨n, hn⟩ := h
  obtain ⟨k, hk⟩ := h'
  rw [← hn (max n k) (le_max_left n k), hk (max n k) (le_max_right n k)]

/-- An assignment does the same as the expression it stands for.  From some fuel on the two are the
same action, where the longer one takes one level more, and so they end in the same way. -/
structure StandsFor (scope : FrameId) (e e' : Expression) : Prop where
  sameAction : ∃ enough, ∀ fuel, enough ≤ fuel → ∀ name,
    (ofFuel fuel).evaluateAs name scope e = (ofFuel (fuel + 1)).evaluateAs name scope e'
  sameEnd : ∀ name m result, ComesTo name scope e m result ↔ ComesTo name scope e' m result

theorem StandsFor.of_shift {base : Nat} (h : ∀ fuel name,
      (ofFuel (fuel + base)).evaluateAs name scope e =
        (ofFuel (fuel + base + 1)).evaluateAs name scope e') : StandsFor scope e e' := by
  have hsame (fuel : Nat) (hle : base ≤ fuel) (name : String) :
      (ofFuel fuel).evaluateAs name scope e = (ofFuel (fuel + 1)).evaluateAs name scope e' := by
    obtain ⟨k, rfl⟩ := Nat.exists_eq_add_of_le' hle
    exact h k name
  refine ⟨⟨base, hsame⟩, fun name m result => ⟨?_, ?_⟩⟩
  · rintro ⟨enough, henough⟩
    refine ⟨max base enough + 1, fun fuel hle => ?_⟩
    obtain ⟨k, rfl⟩ := Nat.exists_eq_add_of_le' hle
    rw [← Nat.add_assoc, ← hsame _ (by omega)]
    exact henough _ (by omega)
  · rintro ⟨enough, henough⟩
    refine ⟨max base enough, fun fuel hle => ?_⟩
    rw [hsame fuel (by omega)]
    exact henough _ (by omega)

/-! ## Assignments to a name -/

section Name

variable (fuel : Nat) (name x : String) (scope : FrameId) (e : Expression)

/-- A plain assignment gives its name to what it evaluates. -/
theorem evaluateAs_plain :
    (ofFuel (fuel + 1)).evaluateAs name scope (.assign .plain (.identifier x) e) = (do
      let result ← (ofFuel fuel).evaluateAs x scope e
      assignName scope x result
      return result) := rfl

theorem evaluateAs_compound (op : BinaryOperator) :
    (ofFuel (fuel + 1)).evaluateAs name scope (.assign (.compound op) (.identifier x) e) = (do
      let current ← nameValue scope x
      let result ← (ofFuel fuel).binary op current (← (ofFuel fuel).evaluate scope e)
      assignName scope x result
      return result) := rfl

theorem evaluateAs_logicalAssignment (op : LogicalOperator) :
    (ofFuel (fuel + 1)).evaluateAs name scope (.assign (.logical op) (.identifier x) e) = (do
      let current ← nameValue scope x
      if op.keeps current then return current
      let result ← (ofFuel fuel).evaluateAs x scope e
      assignName scope x result
      return result) := rfl

/-- An operator that has a name as its left operand reads it first. -/
theorem evaluateAs_binary_identifier (op : BinaryOperator) :
    (ofFuel (fuel + 2)).evaluateAs name scope (.binary op (.identifier x) e) = (do
      let current ← nameValue scope x
      (ofFuel (fuel + 1)).binary op current (← (ofFuel (fuel + 1)).evaluate scope e)) := rfl

theorem evaluateAs_logical_identifier (op : LogicalOperator) :
    (ofFuel (fuel + 2)).evaluateAs name scope (.logical op (.identifier x) e) = (do
      let current ← nameValue scope x
      if op.keeps current then return current
      (ofFuel (fuel + 1)).evaluate scope e) := rfl

/-- The name is read, the operand evaluated, the operator applied and the name assigned in this order
on either way, and all of it at the same levels. -/
theorem evaluateAs_unfold_compound (op : BinaryOperator) :
    (ofFuel (fuel + 2)).evaluateAs name scope (.assign (.compound op) (.identifier x) e) =
      (ofFuel (fuel + 3)).evaluateAs name scope
        (.assign .plain (.identifier x) (.binary op (.identifier x) e)) := by
  rw [evaluateAs_compound, evaluateAs_plain, evaluateAs_binary_identifier]
  simp only [bind_assoc]

/-- An operator that is satisfied with the name ends both.  Otherwise both give the name to what they
evaluate. -/
theorem evaluateAs_unfold_logical (op : LogicalOperator) :
    (ofFuel (fuel + 2)).evaluateAs name scope (.assign (.logical op) (.identifier x) e) =
      (ofFuel (fuel + 3)).evaluateAs name scope
        (.logical op (.identifier x) (.assign .plain (.identifier x) e)) := by
  rw [evaluateAs_logicalAssignment, evaluateAs_logical_identifier, evaluate, evaluateAs_plain]

end Name

/-- **Assignments with an operator.**  An assignment with an operator to a name is written with the
mark of the operator and an equals sign.  For every operator and operand, and in every scope and state,
it ends with the value or the error, and in the state, that the expression it stands for ends with. -/
theorem assignments_unfold (x : String) (scope : FrameId) (e : Expression) :
    (∀ op : BinaryOperator,
      StandsFor scope (.assign (.compound op) (.identifier x) e)
        (.assign .plain (.identifier x) (.binary op (.identifier x) e))) ∧
    (∀ op : LogicalOperator,
      StandsFor scope (.assign (.logical op) (.identifier x) e)
        (.logical op (.identifier x) (.assign .plain (.identifier x) e))) ∧
    ∀ mark op, Grammar.assignmentOperator? (.punctuator mark) = some op → op ≠ .plain →
      ∃ bare, Grammar.MarkOf bare op ∧ mark.spelling = bare.spelling ++ ['='] :=
  ⟨fun op => .of_shift fun fuel name => evaluateAs_unfold_compound fuel name x scope e op,
    fun op => .of_shift fun fuel name => evaluateAs_unfold_logical fuel name x scope e op,
    fun _ _ => Grammar.exists_markOf⟩

/-- A machine on which a name is a constant. -/
def oneConstant : Machine :=
  { Machine.empty with
    frames := ⟨#[({ parent := none, kind := .block } : Frame).declareConstant "x" (.ofText "a")]⟩ }

/-- The longer expression with a constant throws what the assignment throws, once the sum is there. -/
theorem assignments_unfold_constant :
    ComesTo "" ⟨0⟩
      (.assign .plain (.identifier "x") (.binary .add (.identifier "x") (.literal (.string "b"))))
      oneConstant (.error (.thrown (.object ⟨0⟩)) (oneConstant.afterFault .constantAssigned)) ∧
    ∃ bare, Grammar.MarkOf bare (.compound .add) ∧
      Punctuator.plusAssign.spelling = bare.spelling ++ ['='] := by
  obtain ⟨hcompound, -, hmarks⟩ := assignments_unfold "x" ⟨0⟩ (.literal (.string "b"))
  refine ⟨((hcompound .add).sameEnd "" oneConstant _).mp ⟨2, fun fuel hle => ?_⟩,
    hmarks .plusAssign (.compound .add) rfl nofun⟩
  obtain ⟨k, rfl⟩ := Nat.exists_eq_add_of_le' hle
  rfl

end Engine

end EcmaEval
