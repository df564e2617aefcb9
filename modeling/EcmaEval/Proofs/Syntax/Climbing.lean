import EcmaEval.Proofs.Syntax.InStepStatement
import EcmaEval.Proofs.Syntax.Precedence

/-!
# Reading operators by their tightness

Each reader of operators reads those that bind at least as tightly as its own.  What it reads is the
grouped tree of the operands that stand one behind the other.

## Main definitions

* `Grammar.operands`: operands and the operators between them, without grouping
* `Grammar.Climbs`: a reader groups the operators from a tightness on

## Main results

* `Grammar.coalescence_groups`: an expression without a conditional is the grouped tree of its
  operands
-/

namespace EcmaEval

/-! ## A reading and itself -/

/-- Each reading is in step with itself only. -/
def Pairing.same : Pairing :=
  .itself (fun _ => True) (fun _ => False) (fun _ => trivial) (fun _ _ => trivial)
    fun _ _ _ _ => trivial

namespace Parse.InStep

variable {α : Type} {inside : Bool} {n : Nat} {fresh takes : Bool} {p q : Parse α} {c : Context}
  {r s : Reading}

/-- Readers that keep in step on one reading give the same. -/
theorem eq_of_same (h : InStep .same inside n fresh .univ takes p q) (hr : r.left < bound n fresh) :
    q c r = p c r := by
  have hpairs : Pairing.same.Pairs r r := ⟨rfl, trivial⟩
  have houtcome := h.outcome (.refl _ _ c) hpairs hr trivial
  generalize p c r = result at houtcome
  generalize q c r = result' at houtcome
  cases houtcome with
  | ok hpairs => rw [hpairs.1]
  | closing h => cases h <;> contradiction
  | failed h => rw [h.1]

/-- Less is left behind a reader that takes something. -/
theorem left_lt_of_same (h : InStep .same inside n fresh .univ true p q) (hr : r.left < bound n fresh)
    {x : α} (hp : p c r = .ok (x, s)) : s.left < r.left := by
  have hpairs : Pairing.same.Pairs r r := ⟨rfl, trivial⟩
  have houtcome := h.outcome (.refl _ _ c) hpairs hr trivial
  rw [hp] at houtcome
  generalize q c r = result' at houtcome
  cases houtcome with
  | ok _ _ htakes => exact htakes rfl
  | closing h => cases h; contradiction

end Parse.InStep

namespace Grammar

open Parse

variable {c : Context} {r r' s s' : Reading} {e : Expression} {depth depth' : Nat}
  {items items' : List (InfixOperator × Expression)}

/-! ## Operands one behind the other -/

/-- The operators and operands behind an operand; `isUnary` tells whether that begins with an
operator, so that it is no base of a power. -/
def operandsBehind (inner : Phrases) :
    (fuel : Nat) → (isUnary : Bool) → Parse (List (InfixOperator × Expression))
  | 0, _ => fail .exhausted
  | fuel + 1, isUnary => do
    match InfixOperator.ofToken? (← current) with
    | none => return []
    | some op =>
      if op = .power && isUnary then fail .unaryBeforePower
      advance
      let isUnary := (unaryOperator? (← current)).isSome
      let e ← unary inner
      let others ← operandsBehind inner fuel isUnary
      return (op, e) :: others

/-- Operands with operators between them. -/
def operands (inner : Phrases) : Parse OperandSequence := do
  let isUnary := (unaryOperator? (← current)).isSome
  let first ← unary inner
  let rest ← operandsBehind inner inner.fuel isUnary
  return ⟨first, rest⟩

/-- An operand stands at a reading, up to another one. -/
structure Stands (c : Context) (r : Reading) (e : Expression) (s : Reading) : Prop where
  unary_eq : ∀ {depth}, r.left ≤ depth → unary (.ofDepth depth) c r = .ok (e, s)
  left_lt : s.left < r.left

/-- The token at hand begins an operand with an operator. -/
def beginsUnary (r : Reading) : Bool := (unaryOperator? r.current).isSome

/-- Operators and operands stand one behind the other. -/
inductive Follow (c : Context) : (isUnary : Bool) → Reading → List (InfixOperator × Expression) →
    Reading → Prop where
  | nil {isUnary : Bool} {s : Reading} : Follow c isUnary s [] s
  | cons {isUnary : Bool} {s r s' s'' : Reading} {op : InfixOperator} {e : Expression}
    {items : List (InfixOperator × Expression)} (hop : InfixOperator.ofToken? s.current = some op)
    (hpower : op = .power → isUnary = false) (hadvance : advance c s = .ok ((), r))
    (hleft : r.left < s.left) (he : Stands c r e s')
    (hitems : Follow c (beginsUnary r) s' items s'') :
    Follow c isUnary s ((op, e) :: items) s''

theorem Stands.of_unary (hr : r.left ≤ depth) (h : unary (.ofDepth depth) c r = .ok (e, s)) :
    Stands c r e s where
  unary_eq := by
    intro depth' hr'
    have hphrases := Phrases.inStep_ofDepth (P := .same) hr hr'
    have hunary : InStep .same true r.left true .univ true (unary (.ofDepth depth))
      (unary (.ofDepth depth')) := inferInstance
    rw [hunary.eq_of_same (Nat.lt_succ_self _), h]
  left_lt := by
    have hphrases := Phrases.inStep_ofDepth (P := .same) hr hr
    have hunary : InStep .same true r.left true .univ true (unary (.ofDepth depth))
      (unary (.ofDepth depth)) := inferInstance
    exact hunary.left_lt_of_same (Nat.lt_succ_self _) h

theorem Follow.append {isUnary : Bool} (h : Follow c isUnary s (items ++ items') s') :
    ∃ middle isUnary', Follow c isUnary s items middle ∧ Follow c isUnary' middle items' s' := by
  induction items generalizing isUnary s with
  | nil => exact ⟨s, isUnary, .nil, h⟩
  | cons item items ih =>
    cases h with
    | cons hop hpower hadvance hleft he hitems =>
      obtain ⟨middle, isUnary', hfirst, hrest⟩ := ih hitems
      exact ⟨middle, isUnary', .cons hop hpower hadvance hleft he hfirst, hrest⟩

/-- What is left behind operators and operands. -/
theorem Follow.left_le {isUnary : Bool} (h : Follow c isUnary s items s') : s'.left ≤ s.left := by
  induction h with
  | nil => exact Nat.le_refl _
  | cons _ _ _ hleft he _ ih => exact ih.trans (he.left_lt.trans hleft).le

theorem exists_split (level : Nat) (items : List (InfixOperator × Expression)) :
    ∃ front back, items = front ++ back ∧ (∀ item ∈ front, level ≤ item.1.tightness) ∧
      ∀ item ∈ back.head?, item.1.tightness < level := by
  induction items with
  | nil => exact ⟨[], [], rfl, nofun, nofun⟩
  | cons item items ih =>
    rcases Nat.lt_or_ge item.1.tightness level with hlt | hle
    · exact ⟨[], item :: items, rfl, nofun, fun _ hitem => Option.mem_some.mp hitem ▸ hlt⟩
    · obtain ⟨front, back, rfl, hfront, hback⟩ := ih
      exact ⟨item :: front, back, rfl, List.forall_mem_cons.mpr ⟨hle, hfront⟩, hback⟩

/-- Operators that bind at least as tightly as a level, up to the first one that does not. -/
theorem Follow.split {isUnary : Bool} (h : Follow c isUnary s items s') (level : Nat)
    (hend : ∀ op ∈ InfixOperator.ofToken? s'.current, op.tightness < level) :
    ∃ front back middle isUnary', items = front ++ back ∧ Follow c isUnary s front middle ∧
      Follow c isUnary' middle back s' ∧ (∀ item ∈ front, level ≤ item.1.tightness) ∧
      (∀ item ∈ back.head?, item.1.tightness < level) ∧
      ∀ op ∈ InfixOperator.ofToken? middle.current, op.tightness < level := by
  obtain ⟨front, back, rfl, hfront, hback⟩ := exists_split level items
  obtain ⟨middle, isUnary', hfirst, hrest⟩ := h.append
  refine ⟨front, back, middle, isUnary', rfl, hfirst, hrest, hfront, hback, fun op hop => ?_⟩
  cases hrest with
  | nil => exact hend op hop
  | @cons _ _ _ _ _ first _ _ hfirst =>
    rw [hfirst] at hop
    exact Option.mem_some.mp hop ▸ hback _ rfl

/-! ## Readers that climb -/

/-- The reader groups the operators that bind at least as tightly as a level, up to one that does
not, where at most `depth` is left to read. -/
def Climbs (p : Parse Expression) (level depth : Nat) : Prop :=
  ∀ ⦃c r e s items s'⦄, c.noIn = false → r.left ≤ depth → Stands c r e s →
    Follow c (beginsUnary r) s items s' → (∀ item ∈ items, level ≤ item.1.tightness) →
    (∀ op ∈ InfixOperator.ofToken? s'.current, op.tightness < level) →
    p c r = .ok ((OperandSequence.group ⟨e, items⟩).toExpression, s')

/-- A reader of what follows the operators from a tightness `high` on, which have been read.  It
goes on with those from `low` on, each with an operand of its own. -/
structure Tail (tail : Nat → Expression → Parse Expression)
    (next : InfixOperator → Parse Expression) (low high : Nat) : Prop where
  stop : ∀ {fuel left c s}, c.noIn = false →
    (∀ op ∈ InfixOperator.ofToken? s.current, op.tightness < low) →
    tail (fuel + 1) left c s = .ok (left, s)
  step : ∀ {fuel left c s op}, c.noIn = false → InfixOperator.ofToken? s.current = some op →
    low ≤ op.tightness → op.tightness < high →
    tail (fuel + 1) left c s = (do
      advance
      let right ← next op
      tail fuel (op.apply left right) : Parse Expression) c s

variable {tail : Nat → Expression → Parse Expression} {next : InfixOperator → Parse Expression}
  {low high : Nat}

/-- An operator that is no power has what binds as tightly on its left. -/
theorem admitsLeft_of_le {op top : InfixOperator} (hop : op.tightness < 11)
    (hle : op.tightness ≤ top.tightness) : op.AdmitsLeft top := by
  unfold InfixOperator.AdmitsLeft
  rw [if_neg fun hpower => ?_]
  · exact hle
  · rw [InfixOperator.eq_power_iff.mp hpower] at hop
    exact absurd hop (Nat.lt_irrefl _)

/-- What binds more tightly goes to the right. -/
theorem admitsRight_of_lt {op other : InfixOperator} (h : op.tightness < other.tightness) :
    op.AdmitsRight other := by
  unfold InfixOperator.AdmitsRight
  split
  · exact h.le
  · exact h

theorem Tail.reads (htail : Tail tail next low high) (hhigh : high ≤ 11)
    (hnext : ∀ op, low ≤ op.tightness → op.tightness < high →
      Climbs (next op) (op.tightness + 1) depth)
    {fuel : Nat} {t : OperatorTree} {isUnary : Bool} (hin : c.noIn = false) (hfuel : s.left < fuel)
    (hdepth : s.left ≤ depth + 1) (hitems : Follow c isUnary s items s')
    (hlow : ∀ item ∈ items, low ≤ item.1.tightness)
    (hhead : ∀ item ∈ items.head?, item.1.tightness < high ∧
      ∀ top ∈ t.top?, item.1.tightness ≤ top.tightness)
    (hend : ∀ op ∈ InfixOperator.ofToken? s'.current, op.tightness < low) :
    tail fuel t.toExpression c s = .ok ((t.extend items).toExpression, s') := by
  induction fuel generalizing t s items isUnary with
  | zero => exact absurd hfuel (Nat.not_lt_zero _)
  | succ fuel ih =>
    cases hitems with
    | nil => exact htail.stop hin hend
    | @cons _ _ r s₁ _ op e items hop hpower hadvance hleft he hitems =>
      have hoplow : low ≤ op.tightness := hlow (op, e) List.mem_cons_self
      obtain ⟨hophigh, htop⟩ := hhead (op, e) rfl
      rw [htail.step hin hop hoplow hophigh, bind_apply, hadvance]
      dsimp only
      -- The operand of this operator takes the operators that bind more tightly.
      obtain ⟨front, back, middle, isUnary', rfl, hfront, hback, htighter, hlooser, hmiddle⟩ :=
        hitems.split (op.tightness + 1) fun other hother =>
          (hend other hother).trans_le (hoplow.trans (Nat.le_succ _))
      have hr : r.left ≤ depth := by omega
      rw [bind_apply, hnext op hoplow hophigh hin hr he hfront htighter hmiddle]
      dsimp only
      have hadmitsLeft : ∀ top ∈ t.top?, op.AdmitsLeft top := fun top htop' =>
        admitsLeft_of_le (hophigh.trans_le hhigh) (htop top htop')
      have hadmitsRight : ∀ item ∈ front, op.AdmitsRight item.1 := fun item hitem =>
        admitsRight_of_lt (htighter item hitem)
      have hmiddleLeft : middle.left < s.left :=
        hfront.left_le.trans_lt (he.left_lt.trans hleft)
      have hrest := ih (t := .node op t (OperandSequence.group ⟨e, front⟩)) (by omega) (by omega)
        hback (fun item hitem => hlow item (List.mem_cons_of_mem _ (List.mem_append_right _ hitem)))
        (fun item hitem => ⟨(Nat.lt_succ_iff.mp (hlooser item hitem)).trans_lt hophigh,
          fun top htop' => Option.mem_some.mp htop' ▸ Nat.lt_succ_iff.mp (hlooser item hitem)⟩)
      rw [OperatorTree.toExpression] at hrest
      rw [hrest, ← List.cons_append, OperatorTree.extend_append,
        OperatorTree.extend_cons_of_admits hadmitsLeft hadmitsRight]
      rfl

/-- A reader of the operators from `high` on, and then of the looser ones behind them. -/
theorem Climbs.bind_tail {first : Parse Expression} (hfirst : Climbs first high depth)
    (htail : Tail tail next low high) (hlow : low ≤ high) (hhigh : high ≤ 11)
    (hnext : ∀ op, low ≤ op.tightness → op.tightness < high →
      Climbs (next op) (op.tightness + 1) depth') (hdepth : depth ≤ depth' + 1) :
    Climbs (first >>= tail depth) low depth := by
  intro c r e s items s' hin hr he hitems hitemsLow hend
  obtain ⟨front, back, middle, isUnary', rfl, hfront, hback, htighter, hlooser, hmiddle⟩ :=
    hitems.split high fun op hop => (hend op hop).trans_le hlow
  rw [bind_apply, hfirst hin hr he hfront htighter hmiddle]
  dsimp only
  have hmiddleLeft : middle.left < depth := (hfront.left_le.trans_lt he.left_lt).trans_le hr
  have htop : ∀ top ∈ (OperandSequence.group ⟨e, front⟩).top?, high ≤ top.tightness := by
    intro top htop
    rcases OperatorTree.top?_extend _ _ top htop with hleaf | ⟨item, hitem, rfl⟩
    · cases hleaf
    · exact htighter item hitem
  rw [htail.reads hhigh hnext hin hmiddleLeft (by omega) hback
    (fun item hitem => hitemsLow item (List.mem_append_right _ hitem))
    (fun item hitem => ⟨hlooser item hitem, fun top htop' =>
      (hlooser item hitem).le.trans (htop top htop')⟩) hend]
  unfold OperandSequence.group
  rw [OperatorTree.extend_append]

/-! ## The readers of operators -/

/-- The token that an operator is written as. -/
def operatorToken : InfixOperator → Token
  | .logical .coalesce => .punctuator .nullishCoalescing
  | .logical .or => .punctuator .logicalOr
  | .logical .and => .punctuator .logicalAnd
  | .binary .bitwiseOr => .punctuator .pipe
  | .binary .bitwiseXor => .punctuator .caret
  | .binary .bitwiseAnd => .punctuator .ampersand
  | .binary .equal => .punctuator .equal
  | .binary .notEqual => .punctuator .notEqual
  | .binary .strictEqual => .punctuator .strictEqual
  | .binary .strictNotEqual => .punctuator .strictNotEqual
  | .binary .less => .punctuator .lessThan
  | .binary .greater => .punctuator .greaterThan
  | .binary .lessOrEqual => .punctuator .lessThanEqual
  | .binary .greaterOrEqual => .punctuator .greaterThanEqual
  | .binary .instanceOf => .keyword .instanceofWord
  | .binary .hasKey => .keyword .inWord
  | .binary .leftShift => .punctuator .leftShift
  | .binary .rightShift => .punctuator .rightShift
  | .binary .unsignedRightShift => .punctuator .unsignedRightShift
  | .binary .add => .punctuator .plus
  | .binary .subtract => .punctuator .minus
  | .binary .multiply => .punctuator .star
  | .binary .divide => .punctuator .slash
  | .binary .modulo => .punctuator .percent
  | .binary .power => .punctuator .exponent

/-- Each operator is written as one token. -/
theorem ofToken?_eq_some_iff {token : Token} {op : InfixOperator} :
    InfixOperator.ofToken? token = some op ↔ token = operatorToken op := by
  constructor
  · intro h
    unfold InfixOperator.ofToken? at h
    split at h <;> cases h <;> rfl
  · rintro rfl
    rcases op with op | op <;> cases op <;> rfl

theorem binaryOperator?_of_ofToken? {token : Token} {op : InfixOperator}
    (h : InfixOperator.ofToken? token = some op) (hlow : 3 ≤ op.tightness)
    (hhigh : op.tightness < 11) :
    ∃ binaryOp, op = .binary binaryOp ∧
      binaryOperator? false token = some (binaryOp, op.tightness - 2) := by
  obtain rfl := ofToken?_eq_some_iff.mp h
  cases op with
  | binary binaryOp =>
    refine ⟨binaryOp, rfl, ?_⟩
    cases binaryOp
    case power => exact absurd hhigh (Nat.lt_irrefl _)
    all_goals rfl
  | logical logicalOp => cases logicalOp <;> simp [InfixOperator.tightness] at hlow

theorem ofToken?_of_binaryOperator? {token : Token} {op : BinaryOperator} {level : Nat}
    (h : binaryOperator? false token = some (op, level)) :
    InfixOperator.ofToken? token = some (.binary op) ∧
      (InfixOperator.binary op).tightness = level + 2 := by
  unfold binaryOperator? at h
  split at h <;> cases h <;> exact ⟨rfl, rfl⟩

theorem ofToken?_eq_power_iff {token : Token} :
    InfixOperator.ofToken? token = some .power ↔ token.isMark .exponent = true := by
  rw [ofToken?_eq_some_iff]
  refine ⟨fun h => ?_, Token.eq_of_isMark⟩
  rw [h]
  rfl

/-- The operators behind a power, from the tightness of a level on. -/
theorem tail_binaryTail (inner : Phrases) (level : Nat) :
    Tail (binaryTail inner level) (fun op => inner.binary (op.tightness - 2)) (level + 3) 11 where
  stop := by
    intro fuel left c s hin hend
    unfold binaryTail
    rw [bind_apply]
    dsimp only [context]
    rw [bind_apply]
    dsimp only [current]
    rw [hin]
    cases hop : binaryOperator? false s.current with
    | none => rfl
    | some found =>
      obtain ⟨op, opLevel⟩ := found
      obtain ⟨htoken, htight⟩ := ofToken?_of_binaryOperator? hop
      have hlt := hend _ htoken
      dsimp only
      rw [if_pos (by omega)]
      rfl
  step := by
    intro fuel left c s op hin hop hlow hhigh
    obtain ⟨binaryOp, rfl, hbinary⟩ := binaryOperator?_of_ofToken? hop (by omega) hhigh
    rw [binaryTail, bind_apply]
    dsimp only [context]
    rw [bind_apply]
    dsimp only [current]
    rw [hin, hbinary]
    dsimp only
    rw [if_neg (by omega)]
    rfl

/-- The mark of a logical operator. -/
def logicalMark : LogicalOperator → Punctuator
  | .and => .logicalAnd
  | .or => .logicalOr
  | .coalesce => .nullishCoalescing

theorem ofToken?_eq_logical_iff {token : Token} {op : LogicalOperator} :
    InfixOperator.ofToken? token = some (.logical op) ↔ token.isMark (logicalMark op) = true := by
  have htoken : operatorToken (.logical op) = .punctuator (logicalMark op) := by cases op <;> rfl
  rw [ofToken?_eq_some_iff, htoken]
  refine ⟨fun h => ?_, Token.eq_of_isMark⟩
  rw [h]
  cases op <;> rfl

theorem eq_logical_of_tightness {op : InfixOperator} {logicalOp : LogicalOperator}
    (h : op.tightness = (InfixOperator.logical logicalOp).tightness) : op = .logical logicalOp := by
  rcases op with op | op <;> cases op <;> cases logicalOp <;> first | rfl | cases h

/-- The operands of one logical operator. -/
theorem tail_logicalTail (op : LogicalOperator) (next : Parse Expression) :
    Tail (logicalTail (logicalMark op) op next) (fun _ => next)
      (InfixOperator.logical op).tightness ((InfixOperator.logical op).tightness + 1) where
  stop := by
    intro fuel left c s _ hend
    have hmark : s.current.isMark (logicalMark op) = false := by
      refine Bool.eq_false_iff.mpr fun hmark => ?_
      exact absurd (hend _ (ofToken?_eq_logical_iff.mpr hmark)) (Nat.lt_irrefl _)
    rw [logicalTail, InStep.skipMark_bind, bind_apply]
    dsimp only [atMark]
    rw [hmark]
    rfl
  step := by
    intro fuel left c s other _ hother hlow hhigh
    obtain rfl := eq_logical_of_tightness (Nat.le_antisymm (Nat.lt_succ_iff.mp hhigh) hlow)
    rw [logicalTail, InStep.skipMark_bind, bind_apply]
    dsimp only [atMark]
    rw [ofToken?_eq_logical_iff.mp hother]
    rfl

/-- Powers group from the right. -/
theorem climbs_power (depth : Nat) : Climbs (power (.ofDepth depth)) 11 depth := by
  induction depth with
  | zero =>
    intro c r e s items s' _ hr he
    exact absurd (he.left_lt.trans_le hr) (Nat.not_lt_zero _)
  | succ depth ih =>
    intro c r e s items s' hin hr he hitems hlow hend
    unfold power
    rw [bind_apply]
    dsimp only [current]
    rw [bind_apply, he.unary_eq hr]
    dsimp only
    rw [bind_apply]
    dsimp only [atMark]
    cases hitems with
    | nil =>
      have hmark : s.current.isMark .exponent = false := by
        refine Bool.eq_false_iff.mpr fun hmark => ?_
        exact absurd (hend _ (ofToken?_eq_power_iff.mpr hmark)) (Nat.lt_irrefl _)
      rw [hmark]
      rfl
    | @cons _ _ r' s₁ _ op e' items hop hpower hadvance hleft he' hitems =>
      obtain rfl := InfixOperator.eq_power_iff.mpr
        (Nat.le_antisymm op.tightness_le (hlow (op, e') List.mem_cons_self))
      have hlow' : ∀ item ∈ items, 11 ≤ item.1.tightness := fun item hitem =>
        hlow item (List.mem_cons_of_mem _ hitem)
      have hr' : r'.left ≤ depth := by
        have := he.left_lt
        omega
      have hrest := ih hin hr' he' hitems hlow' hend
      have hbase : (unaryOperator? r.current).isSome = false := hpower rfl
      rw [ofToken?_eq_power_iff.mp hop, hbase]
      simp only [↓reduceIte]
      rw [if_neg Bool.false_ne_true, bind_apply, hadvance]
      dsimp only
      have hinner : (Phrases.ofDepth (depth + 1)).power c r' = power (.ofDepth depth) c r' := rfl
      have hadmits : ∀ item ∈ items, InfixOperator.power.AdmitsRight item.1 := fun item hitem => by
        unfold InfixOperator.AdmitsRight
        rw [if_pos rfl]
        exact hlow' item hitem
      have hgroup : OperandSequence.group ⟨e, (.power, e') :: items⟩ =
          .node .power (.leaf e) (OperandSequence.group ⟨e', items⟩) :=
        OperatorTree.extend_cons_of_admits nofun hadmits
      rw [bind_apply, hinner, hrest, hgroup]
      rfl

/-- The binary operators from the tightness of a level on. -/
theorem climbs_binary (depth level : Nat) (hlevel : level ≤ 8) :
    Climbs (binary (.ofDepth depth) level) (level + 3) depth := by
  induction depth generalizing level with
  | zero =>
    intro c r e s items s' _ hr he
    exact absurd (he.left_lt.trans_le hr) (Nat.not_lt_zero _)
  | succ depth ih =>
    refine Climbs.bind_tail (climbs_power (depth + 1)) (tail_binaryTail _ level) (by omega)
      (Nat.le_refl 11) (fun op hlow hhigh => ?_) (Nat.le_refl _)
    have hclimbs := ih (op.tightness - 2) (by omega)
    rwa [show op.tightness - 2 + 3 = op.tightness + 1 by omega] at hclimbs

theorem climbs_logical (op : LogicalOperator) {first : Parse Expression}
    (hfirst : Climbs first ((InfixOperator.logical op).tightness + 1) depth) :
    Climbs (first >>= logicalTail (logicalMark op) op first (Phrases.ofDepth depth).fuel)
      (InfixOperator.logical op).tightness depth := by
  have hfuel : (Phrases.ofDepth depth).fuel = depth := by cases depth <;> rfl
  rw [hfuel]
  refine Climbs.bind_tail hfirst (tail_logicalTail op first) (Nat.le_succ _)
    (by cases op <;> decide) (fun other hlow hhigh => ?_) (Nat.le_succ depth)
  rwa [Nat.le_antisymm (Nat.lt_succ_iff.mp hhigh) hlow]

theorem climbs_conjunction (depth : Nat) : Climbs (conjunction (.ofDepth depth)) 2 depth :=
  climbs_logical .and (climbs_binary depth 0 (Nat.zero_le 8))

theorem climbs_disjunction (depth : Nat) : Climbs (disjunction (.ofDepth depth)) 1 depth :=
  climbs_logical .or (climbs_conjunction depth)

theorem climbs_coalescence (depth : Nat) : Climbs (coalescence (.ofDepth depth)) 0 depth :=
  climbs_logical .coalesce (climbs_disjunction depth)

/-! ## Expressions without conditionals -/

/-- An operator is no end. -/
theorem isEnd_of_ofToken? {token : Token} {op : InfixOperator}
    (h : InfixOperator.ofToken? token = some op) : token.isEnd = false := by
  cases token with
  | endOfInput => cases h
  | _ => rfl

theorem left_lt_of_advance (hs : s.current.isEnd = false) (h : advance c s = .ok ((), r)) :
    r.left < s.left := by
  unfold advance at h
  cases hnext : Lexer.nextOnLine s.cursor false with
  | ok found d =>
    rw [hnext] at h
    cases h
    exact Reading.left_lt_of_nextOnLine hs hnext
  | error e d =>
    rw [hnext] at h
    cases h

theorem follow_of_operandsBehind {fuel : Nat} {isUnary : Bool} (hs : s.left ≤ depth)
    (h : operandsBehind (.ofDepth depth) fuel isUnary c s = .ok (items, s')) :
    Follow c isUnary s items s' ∧ InfixOperator.ofToken? s'.current = none := by
  induction fuel generalizing isUnary s items with
  | zero => cases h
  | succ fuel ih =>
    unfold operandsBehind at h
    rw [bind_apply] at h
    dsimp only [current] at h
    cases hop : InfixOperator.ofToken? s.current with
    | none =>
      rw [hop] at h
      cases h
      exact ⟨.nil, hop⟩
    | some op =>
      rw [hop] at h
      dsimp only at h
      split at h
      · cases h
      next hbase =>
      obtain ⟨_, r, hadvance, h⟩ := exists_of_bind_eq_ok h
      obtain ⟨_, _, hcurrent, h⟩ := exists_of_bind_eq_ok h
      cases hcurrent
      obtain ⟨e, middle, hunary, h⟩ := exists_of_bind_eq_ok h
      obtain ⟨others, _, hothers, h⟩ := exists_of_bind_eq_ok h
      cases h
      have hleft := left_lt_of_advance (isEnd_of_ofToken? hop) hadvance
      have he := Stands.of_unary (hleft.le.trans hs) hunary
      obtain ⟨hitems, hend⟩ := ih ((he.left_lt.trans hleft).le.trans hs) hothers
      refine ⟨.cons hop (fun hpower => ?_) hadvance hleft he hitems, hend⟩
      simpa [hpower] using hbase

theorem follow_of_operands {operandSequence : OperandSequence} (hr : r.left ≤ depth)
    (h : operands (.ofDepth depth) c r = .ok (operandSequence, s')) :
    ∃ s, Stands c r operandSequence.first s ∧
      Follow c (beginsUnary r) s operandSequence.rest s' ∧
      InfixOperator.ofToken? s'.current = none := by
  unfold operands at h
  obtain ⟨_, _, hcurrent, h⟩ := exists_of_bind_eq_ok h
  cases hcurrent
  obtain ⟨first, s, hunary, h⟩ := exists_of_bind_eq_ok h
  obtain ⟨rest, _, hrest, h⟩ := exists_of_bind_eq_ok h
  cases h
  have he := Stands.of_unary hr hunary
  obtain ⟨hitems, hend⟩ := follow_of_operandsBehind (he.left_lt.le.trans hr) hrest
  exact ⟨s, he, hitems, hend⟩

/-- Where operands stand one behind the other with operators between them, an expression without a
conditional is read as the one tree of these operands, in their order, in which each operator binds
less tightly than those at the top of its operands. -/
theorem coalescence_groups {operandSequence : OperandSequence} (hin : c.noIn = false)
    (hr : r.left ≤ depth)
    (h : operands (.ofDepth depth) c r = .ok (operandSequence, s)) :
    ∃ tree : OperatorTree, coalescence (.ofDepth depth) c r = .ok (tree.toExpression, s) ∧
      (tree.traversal = operandSequence ∧ tree.Grouped) ∧
      ∀ other : OperatorTree, other.traversal = operandSequence → other.Grouped → other = tree := by
  obtain ⟨s', hfirst, hrest, hend⟩ := follow_of_operands hr h
  refine ⟨operandSequence.group, ?_,
    ⟨operandSequence.traversal_group, operandSequence.grouped_group⟩, ?_⟩
  · refine climbs_coalescence depth hin hr hfirst hrest (fun _ _ => Nat.zero_le _) ?_
    rw [hend]
    exact nofun
  · rintro other rfl hother
    exact hother.group_traversal.symm

/-- Operators of many levels, behind an operand that is at hand. -/
def mixedOperators : Reading :=
  ⟨.identifier "a", false, Cursor.ofText " ?? b || c - d - -e * f ** g ** h in i;"⟩

theorem coalescence_groups_mixedOperators :
    ∃ operandSequence s, operands (.ofDepth 50) { options := {} } mixedOperators =
        .ok (operandSequence, s) ∧
      operandSequence.rest.map (·.1) = [.logical .coalesce, .logical .or, .binary .subtract,
        .binary .subtract, .binary .multiply, .power, .power, .binary .hasKey] ∧
      ∃ tree : OperatorTree,
        coalescence (.ofDepth 50) { options := {} } mixedOperators = .ok (tree.toExpression, s) ∧
        (tree.traversal = operandSequence ∧ tree.Grouped) ∧
        ∀ other : OperatorTree, other.traversal = operandSequence → other.Grouped →
          other = tree := by
  have hread : (match operands (.ofDepth 50) { options := {} } mixedOperators with
      | .ok (found, _) => found.rest.map (·.1) == [.logical .coalesce, .logical .or,
        .binary .subtract, .binary .subtract, .binary .multiply, .power, .power, .binary .hasKey]
      | .error _ => false) = true := by
    decide +kernel
  cases hresult : operands (.ofDepth 50) { options := {} } mixedOperators with
  | error e =>
    rw [hresult] at hread
    cases hread
  | ok found =>
    rw [hresult] at hread
    exact ⟨found.1, found.2, rfl, by simpa using hread,
      coalescence_groups rfl (by decide) hresult⟩

end Grammar

end EcmaEval
