import EcmaEval.Program.Tree
import EcmaEval.Token.Basic

/-!
# Operators by the tightness of their binding

A sequence of operands with operators between them is grouped to a tree.  An operator takes to its
right what binds more tightly, and to its left what binds at least as tightly; a power takes a power
to its right.  There is one such tree for each sequence.

## Main definitions

* `InfixOperator`: the operators between two operands
* `OperatorTree`: operands grouped by operators
* `OperatorTree.Grouped`: the operators at the top of the operands bind tightly enough
* `OperandSequence.group`: the grouped tree of a sequence

## Main results

* `OperandSequence.grouped_group`, `OperandSequence.traversal_group`: it is grouped, and has the
  operands of the sequence in their order
* `OperatorTree.group_traversal`: it is the only one
-/

namespace EcmaEval

/-- An operator between two operands. -/
inductive InfixOperator where
  | binary (op : BinaryOperator)
  | logical (op : LogicalOperator)
  deriving DecidableEq, Repr

namespace InfixOperator

/-- The operator of powers. -/
abbrev power : InfixOperator := .binary .power

/-- The operator that a token is. -/
def ofToken? : Token → Option InfixOperator
  | .punctuator .nullishCoalescing => some (.logical .coalesce)
  | .punctuator .logicalOr => some (.logical .or)
  | .punctuator .logicalAnd => some (.logical .and)
  | .punctuator .pipe => some (.binary .bitwiseOr)
  | .punctuator .caret => some (.binary .bitwiseXor)
  | .punctuator .ampersand => some (.binary .bitwiseAnd)
  | .punctuator .equal => some (.binary .equal)
  | .punctuator .notEqual => some (.binary .notEqual)
  | .punctuator .strictEqual => some (.binary .strictEqual)
  | .punctuator .strictNotEqual => some (.binary .strictNotEqual)
  | .punctuator .lessThan => some (.binary .less)
  | .punctuator .greaterThan => some (.binary .greater)
  | .punctuator .lessThanEqual => some (.binary .lessOrEqual)
  | .punctuator .greaterThanEqual => some (.binary .greaterOrEqual)
  | .keyword .instanceofWord => some (.binary .instanceOf)
  | .keyword .inWord => some (.binary .hasKey)
  | .punctuator .leftShift => some (.binary .leftShift)
  | .punctuator .rightShift => some (.binary .rightShift)
  | .punctuator .unsignedRightShift => some (.binary .unsignedRightShift)
  | .punctuator .plus => some (.binary .add)
  | .punctuator .minus => some (.binary .subtract)
  | .punctuator .star => some (.binary .multiply)
  | .punctuator .slash => some (.binary .divide)
  | .punctuator .percent => some (.binary .modulo)
  | .punctuator .exponent => some .power
  | _ => none

/-- How tightly an operator binds. -/
def tightness : InfixOperator → Nat
  | .logical .coalesce => 0
  | .logical .or => 1
  | .logical .and => 2
  | .binary .bitwiseOr => 3
  | .binary .bitwiseXor => 4
  | .binary .bitwiseAnd => 5
  | .binary .equal | .binary .notEqual | .binary .strictEqual | .binary .strictNotEqual => 6
  | .binary .less | .binary .greater | .binary .lessOrEqual | .binary .greaterOrEqual
  | .binary .instanceOf | .binary .hasKey => 7
  | .binary .leftShift | .binary .rightShift | .binary .unsignedRightShift => 8
  | .binary .add | .binary .subtract => 9
  | .binary .multiply | .binary .divide | .binary .modulo => 10
  | .binary .power => 11

/-- The operator `other` may be at the top of the left operand. -/
def AdmitsLeft (op other : InfixOperator) : Prop :=
  if op = .power then op.tightness < other.tightness else op.tightness ≤ other.tightness

/-- The operator `other` may be at the top of the right operand. -/
def AdmitsRight (op other : InfixOperator) : Prop :=
  if op = .power then op.tightness ≤ other.tightness else op.tightness < other.tightness

instance (op other : InfixOperator) : Decidable (op.AdmitsLeft other) := by
  unfold AdmitsLeft
  infer_instance

instance (op other : InfixOperator) : Decidable (op.AdmitsRight other) := by
  unfold AdmitsRight
  infer_instance

/-- An operator with its operands. -/
def apply : InfixOperator → Expression → Expression → Expression
  | .binary op => .binary op
  | .logical op => .logical op

theorem tightness_le (op : InfixOperator) : op.tightness ≤ 11 := by
  rcases op with op | op <;> cases op <;> decide

/-- Nothing else binds as tightly as a power. -/
theorem eq_power_iff {op : InfixOperator} : op = .power ↔ op.tightness = 11 := by
  rcases op with op | op <;> cases op <;> decide

/-- Of two operators one behind the other, either the first takes the second to its right, or the
second takes the first to its left. -/
theorem admitsLeft_iff {op other : InfixOperator} :
    op.AdmitsLeft other ↔ ¬ other.AdmitsRight op := by
  have hop := op.tightness_le
  have hother := other.tightness_le
  simp only [AdmitsLeft, AdmitsRight, eq_power_iff]
  split <;> split <;> omega

theorem AdmitsLeft.le {op other : InfixOperator} (h : op.AdmitsLeft other) :
    op.tightness ≤ other.tightness := by
  unfold AdmitsLeft at h
  split at h
  · exact Nat.le_of_lt h
  · exact h

/-- What an operator admits to its right binds at least as tightly. -/
theorem AdmitsRight.le {op other : InfixOperator} (h : op.AdmitsRight other) :
    op.tightness ≤ other.tightness := by
  unfold AdmitsRight at h
  split at h
  · exact h
  · exact Nat.le_of_lt h

theorem AdmitsRight.of_le {op other third : InfixOperator} (h : op.AdmitsRight other)
    (hle : other.tightness ≤ third.tightness) : op.AdmitsRight third := by
  unfold AdmitsRight at h ⊢
  split at h <;> split <;> omega

end InfixOperator

/-- Operands grouped by the operators between them. -/
inductive OperatorTree where
  | leaf (e : Expression)
  | node (op : InfixOperator) (left right : OperatorTree)

/-- Operands with operators between them. -/
structure OperandSequence where
  first : Expression
  rest : List (InfixOperator × Expression)

namespace OperatorTree

/-- The leftmost operand. -/
def first : OperatorTree → Expression
  | leaf e => e
  | node _ left _ => left.first

/-- The operators and operands behind the leftmost one. -/
def rest : OperatorTree → List (InfixOperator × Expression)
  | leaf _ => []
  | node op left right => left.rest ++ (op, right.first) :: right.rest

/-- The operands and operators in their order. -/
def traversal (t : OperatorTree) : OperandSequence := ⟨t.first, t.rest⟩

/-- The operator at the top. -/
def top? : OperatorTree → Option InfixOperator
  | leaf _ => none
  | node op _ _ => some op

/-- Each operator admits the operators at the top of its operands. -/
def Grouped : OperatorTree → Prop
  | leaf _ => True
  | node op left right =>
    left.Grouped ∧ right.Grouped ∧ (∀ other ∈ left.top?, op.AdmitsLeft other) ∧
      ∀ other ∈ right.top?, op.AdmitsRight other

/-- The expression of a tree. -/
def toExpression : OperatorTree → Expression
  | leaf e => e
  | node op left right => op.apply left.toExpression right.toExpression

/-- The tree with one more operator and operand at its end. -/
def insert (t : OperatorTree) (op : InfixOperator) (e : Expression) : OperatorTree :=
  match t with
  | leaf a => node op (leaf a) (leaf e)
  | node other left right =>
    if other.AdmitsRight op then node other left (right.insert op e)
    else node op (node other left right) (leaf e)

/-- The tree with more operators and operands at its end. -/
def extend (t : OperatorTree) (items : List (InfixOperator × Expression)) : OperatorTree :=
  items.foldl (fun t item => t.insert item.1 item.2) t

@[simp] theorem extend_nil (t : OperatorTree) : t.extend [] = t := rfl

@[simp] theorem extend_cons (t : OperatorTree) (op : InfixOperator) (e : Expression)
    (items : List (InfixOperator × Expression)) :
    t.extend ((op, e) :: items) = (t.insert op e).extend items := rfl

theorem extend_append (t : OperatorTree) (items items' : List (InfixOperator × Expression)) :
    t.extend (items ++ items') = (t.extend items).extend items' :=
  List.foldl_append

/-! ### What an insertion changes -/

theorem first_insert (t : OperatorTree) (op : InfixOperator) (e : Expression) :
    (t.insert op e).first = t.first := by
  cases t with
  | leaf a => rfl
  | node other left right =>
    unfold insert
    split <;> rfl

theorem rest_insert (t : OperatorTree) (op : InfixOperator) (e : Expression) :
    (t.insert op e).rest = t.rest ++ [(op, e)] := by
  induction t with
  | leaf a => rfl
  | node other left right _ ih =>
    unfold insert
    split
    · simp [rest, ih, first_insert]
    · simp [rest, first]

/-- The new operator is at the top, or the old one still is and admits it. -/
theorem top?_insert (t : OperatorTree) (op : InfixOperator) (e : Expression) :
    (t.insert op e).top? = some op ∨ (t.insert op e).top? = t.top? := by
  cases t with
  | leaf a => exact .inl rfl
  | node other left right =>
    unfold insert
    split
    · exact .inr rfl
    · exact .inl rfl

/-- The top of a longer tree is that of the tree, or one of the operators behind it. -/
theorem top?_extend (t : OperatorTree) (items : List (InfixOperator × Expression)) :
    ∀ top ∈ (t.extend items).top?, top ∈ t.top? ∨ ∃ item ∈ items, item.1 = top := by
  induction items generalizing t with
  | nil => exact fun top htop => .inl htop
  | cons item items ih =>
    intro top htop
    rcases ih (t.insert item.1 item.2) top htop with hfirst | ⟨other, hother, rfl⟩
    · rcases t.top?_insert item.1 item.2 with hnew | hold
      · rw [hnew] at hfirst
        exact .inr ⟨item, List.mem_cons_self, Option.mem_some.mp hfirst⟩
      · exact .inl (hold ▸ hfirst)
    · exact .inr ⟨other, List.mem_cons_of_mem _ hother, rfl⟩

theorem Grouped.insert {t : OperatorTree} (h : t.Grouped) (op : InfixOperator) (e : Expression) :
    (t.insert op e).Grouped := by
  induction t with
  | leaf a => exact ⟨trivial, trivial, nofun, nofun⟩
  | node other left right _ ih =>
    obtain ⟨hleft, hright, htopLeft, htopRight⟩ := h
    unfold OperatorTree.insert
    split
    · next hadmits =>
      refine ⟨hleft, ih hright, htopLeft, fun top htop => ?_⟩
      rcases right.top?_insert op e with hnew | hold
      · rw [hnew] at htop
        exact Option.mem_some.mp htop ▸ hadmits
      · exact htopRight top (hold ▸ htop)
    · next hadmits =>
      refine ⟨⟨hleft, hright, htopLeft, htopRight⟩, trivial, fun top htop => ?_, nofun⟩
      exact Option.mem_some.mp htop ▸ InfixOperator.admitsLeft_iff.mpr hadmits

theorem Grouped.extend {t : OperatorTree} (h : t.Grouped)
    (items : List (InfixOperator × Expression)) : (t.extend items).Grouped := by
  induction items generalizing t with
  | nil => exact h
  | cons item items ih => exact ih (h.insert item.1 item.2)

theorem traversal_extend (t : OperatorTree) (items : List (InfixOperator × Expression)) :
    (t.extend items).traversal = ⟨t.first, t.rest ++ items⟩ := by
  induction items generalizing t with
  | nil => simp [traversal]
  | cons item items ih =>
    obtain ⟨op, e⟩ := item
    rw [extend_cons, ih, first_insert, rest_insert, List.append_assoc]
    rfl

/-! ### Where an insertion happens -/

/-- Behind a tree whose top does not admit it, an operator takes the whole tree. -/
theorem insert_of_not_admitsRight {t : OperatorTree} {op : InfixOperator}
    (h : ∀ other ∈ t.top?, op.AdmitsLeft other) (e : Expression) :
    t.insert op e = node op t (leaf e) := by
  cases t with
  | leaf a => rfl
  | node other left right =>
    unfold insert
    rw [if_neg (InfixOperator.admitsLeft_iff.mp (h other rfl))]

/-- Operators that the top admits go to the right operand. -/
theorem extend_node {op : InfixOperator} {left right : OperatorTree}
    {items : List (InfixOperator × Expression)} (h : ∀ item ∈ items, op.AdmitsRight item.1) :
    (node op left right).extend items = node op left (right.extend items) := by
  induction items generalizing right with
  | nil => rfl
  | cons item items ih =>
    have hinsert : (node op left right).insert item.1 item.2 =
        node op left (right.insert item.1 item.2) := if_pos (h item List.mem_cons_self)
    rw [extend, List.foldl_cons, hinsert]
    exact ih fun other hother => h other (List.mem_cons_of_mem _ hother)

/-- An operator that takes the tree before it, with the operators that it admits behind it. -/
theorem extend_cons_of_admits {t : OperatorTree} {op : InfixOperator} {e : Expression}
    {items : List (InfixOperator × Expression)} (htop : ∀ other ∈ t.top?, op.AdmitsLeft other)
    (hitems : ∀ item ∈ items, op.AdmitsRight item.1) :
    t.extend ((op, e) :: items) = node op t ((leaf e).extend items) := by
  rw [extend_cons, insert_of_not_admitsRight htop, extend_node hitems]

/-- No operator of a grouped tree binds less tightly than its top. -/
theorem Grouped.tightness_le {t : OperatorTree} (h : t.Grouped) :
    ∀ top ∈ t.top?, ∀ item ∈ t.rest, top.tightness ≤ item.1.tightness := by
  induction t with
  | leaf e => exact nofun
  | node op left right ihLeft ihRight =>
    obtain ⟨hleft, hright, htopLeft, htopRight⟩ := h
    intro top htop item hitem
    obtain rfl := Option.mem_some.mp htop
    rcases List.mem_append.mp hitem with hitem | hitem
    · cases left with
      | leaf e => cases hitem
      | node other left' right' =>
        exact Nat.le_trans (htopLeft other rfl).le (ihLeft hleft other rfl item hitem)
    rcases List.mem_cons.mp hitem with rfl | hitem
    · exact Nat.le_refl _
    · cases right with
      | leaf e => cases hitem
      | node other left' right' =>
        exact Nat.le_trans (htopRight other rfl).le (ihRight hright other rfl item hitem)

/-- A grouped tree is what its operands and operators are grouped to. -/
theorem Grouped.extend_first {t : OperatorTree} (h : t.Grouped) :
    (leaf t.first).extend t.rest = t := by
  induction t with
  | leaf e => rfl
  | node op left right ihLeft ihRight =>
    obtain ⟨hleft, hright, htopLeft, htopRight⟩ := h
    have hitems : ∀ item ∈ right.rest, op.AdmitsRight item.1 := by
      intro item hitem
      cases right with
      | leaf e => cases hitem
      | node other left' right' =>
        exact (htopRight other rfl).of_le (hright.tightness_le other rfl item hitem)
    rw [first, rest, extend_append, ihLeft hleft, extend_cons_of_admits htopLeft hitems,
      ihRight hright]

end OperatorTree

namespace OperandSequence

open OperatorTree

/-- The grouped tree of a sequence. -/
def group (items : OperandSequence) : OperatorTree := (leaf items.first).extend items.rest

theorem grouped_group (items : OperandSequence) : items.group.Grouped :=
  Grouped.extend (t := leaf items.first) trivial items.rest

theorem traversal_group (items : OperandSequence) : items.group.traversal = items :=
  traversal_extend (leaf items.first) items.rest

end OperandSequence

/-- A sequence is grouped to one tree only. -/
theorem OperatorTree.Grouped.group_traversal {t : OperatorTree} (h : t.Grouped) :
    t.traversal.group = t :=
  h.extend_first

end EcmaEval
