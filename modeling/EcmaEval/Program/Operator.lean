/-!
# Operators and kinds

The small enumerations that occur in syntax trees.
-/

namespace EcmaEval

/-- A way to declare variables. -/
inductive DeclarationKind where
  | variable
  | lexical
  | constant
  deriving DecidableEq, Repr

/-- An operator with one operand that does not assign to it. -/
inductive UnaryOperator where
  | minus
  | plus
  | not
  | bitwiseNot
  | typeOf
  | void
  | delete
  deriving DecidableEq, Repr

/-- An operator that computes with the values of both operands. -/
inductive BinaryOperator where
  | add
  | subtract
  | multiply
  | divide
  | modulo
  | power
  | equal
  | notEqual
  | strictEqual
  | strictNotEqual
  | less
  | greater
  | lessOrEqual
  | greaterOrEqual
  | leftShift
  | rightShift
  | unsignedRightShift
  | bitwiseAnd
  | bitwiseOr
  | bitwiseXor
  | hasKey
  | instanceOf
  deriving DecidableEq, Repr

/-- An operator that may leave its second operand unevaluated. -/
inductive LogicalOperator where
  | and
  | or
  | coalesce
  deriving DecidableEq, Repr

/-- A step up or down. -/
inductive UpdateOperator where
  | increment
  | decrement
  deriving DecidableEq, Repr

/-- An assignment: plain, through a binary operator, or under the condition of a logical
operator. -/
inductive AssignmentOperator where
  | plain
  | compound (op : BinaryOperator)
  | logical (op : LogicalOperator)
  deriving DecidableEq, Repr

/-- What a property of an object literal is made of. -/
inductive MemberKind where
  | value
  | method
  | getter
  | setter
  | spread
  deriving DecidableEq, Repr

/-- What a function of a class is for. -/
inductive MethodKind where
  | method
  | getter
  | setter
  | constructor
  deriving DecidableEq, Repr

end EcmaEval
