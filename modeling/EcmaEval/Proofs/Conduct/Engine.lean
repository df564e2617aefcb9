import EcmaEval.Engine.Operator
import EcmaEval.Proofs.Conduct.Store
import EcmaEval.Proofs.Part.Basic

/-!
# Engines that conduct themselves well

An engine conducts itself well if each of its ways to run a part does, given a part that mentions
only what is known.  A statement also mentions the variables in it, which the frame of variables has
to bind before the statement runs, and the names that it adds to its frame itself.

## Main definitions

* `Query.facts`: the facts that a part of a phrase mentions
* `Engine.Behaves`: an engine that conducts itself well
-/

namespace EcmaEval

/-! ## What a part mentions -/

/-- The facts that a statement mentions in a frame, apart from the calls in it. -/
def statementFacts (scope : FrameId) (s : Statement) : Set Fact :=
  facts scope ∪ {f | ∃ name ∈ s.variableNames, f = .owns scope name} ∪
    {f | ∃ name ∈ s.declared, f = .free scope name}

/-- The facts that a part of a phrase mentions. -/
def Query.facts : Query → Set Fact
  | .evaluate _ scope e => HasFacts.facts scope ∪ HasFacts.facts (Framed.mk (some scope) e)
  | .execute scope s => statementFacts scope s ∪ HasFacts.facts (Framed.mk (some scope) s)
  | .call id this args => HasFacts.facts id ∪ HasFacts.facts this ∪ HasFacts.facts args
  | .construct id args newTarget =>
    HasFacts.facts id ∪ HasFacts.facts args ∪ HasFacts.facts newTarget
  | .settle id outcome => HasFacts.facts id ∪ HasFacts.facts outcome

instance : HasFacts Query := ⟨Query.facts⟩

/-- The engine conducts itself well. -/
class Engine.Behaves (L : Law) (engine : Engine) : Prop where
  evaluateAs : ∀ {K : Knowledge} (name : String) (scope : FrameId) (e : Expression)
    [Shown K (Query.evaluate name scope e)], L.Conducts K (engine.evaluateAs name scope e)
  execute : ∀ {K : Knowledge} (scope : FrameId) (s : Statement)
    [Shown K (Query.execute scope s)], L.Conducts K (engine.execute scope s)
  call : ∀ {K : Knowledge} (id : ObjectId) (this : Value) (args : List Value)
    [Shown K id] [Shown K this] [Shown K args], L.Conducts K (engine.call id this args)
  construct : ∀ {K : Knowledge} (id : ObjectId) (args : List Value) (newTarget : ObjectId)
    [Shown K id] [Shown K args] [Shown K newTarget],
    L.Conducts K (engine.construct id args newTarget)
  settle : ∀ {K : Knowledge} (id : ObjectId) (outcome : Settlement) [Shown K id]
    [Shown K outcome], L.Conducts K (engine.settle id outcome)

/-- A value that is known to be an object names it. -/
instance (priority := low) Shown.of_object {K : Knowledge} (id : ObjectId)
    [h : Shown K (Value.object id)] : Shown K id := ⟨h.facts_subset⟩

namespace Shown

variable {K : Knowledge} (name : String) (scope : FrameId) (e : Expression)

instance evaluate [h : Shown K scope] [hcode : Shown K (Framed.mk (some scope) e)] :
    Shown K (Query.evaluate name scope e) :=
  union rfl h.facts_subset hcode.facts_subset

theorem scope_of_evaluate [h : Shown K (Query.evaluate name scope e)] : Shown K scope :=
  ⟨Set.subset_union_left.trans h.facts_subset⟩

theorem code_of_evaluate [h : Shown K (Query.evaluate name scope e)] :
    Shown K (Framed.mk (some scope) e) :=
  ⟨Set.subset_union_right.trans h.facts_subset⟩

end Shown

namespace Law.Conducts

open EcmaEval.Action Engine

variable {L : Law} {K : Knowledge} {engine : Engine} [hengine : engine.Behaves L]

section Parts

variable (id : ObjectId) [Shown K id]

instance (name : String) (scope : FrameId) (e : Expression)
    [Shown K (Query.evaluate name scope e)] : L.Conducts K (engine.evaluateAs name scope e) :=
  hengine.evaluateAs name scope e

instance (scope : FrameId) (e : Expression) [Shown K scope] [Shown K (Framed.mk (some scope) e)] :
    L.Conducts K (engine.evaluate scope e) :=
  hengine.evaluateAs "" scope e

instance (scope : FrameId) (s : Statement) [Shown K (Query.execute scope s)] :
    L.Conducts K (engine.execute scope s) :=
  hengine.execute scope s

instance (this : Value) (args : List Value) [Shown K this] [Shown K args] :
    L.Conducts K (engine.call id this args) :=
  hengine.call id this args

instance (args : List Value) (newTarget : ObjectId) [Shown K args] [Shown K newTarget] :
    L.Conducts K (engine.construct id args newTarget) :=
  hengine.construct id args newTarget

instance (outcome : Settlement) [Shown K outcome] : L.Conducts K (engine.settle id outcome) :=
  hengine.settle id outcome

end Parts

/-! ## Calls and properties -/

instance (callee this : Value) (args : List Value) [Shown K callee] [Shown K this]
    [Shown K args] : L.Conducts K (engine.callValue callee this args) := by
  unfold callValue
  refine .bind fun callable => ?_
  split <;> infer_instance

instance (property : Option Property) (receiver : Value) [hproperty : Shown K property]
    [Shown K receiver] : L.Conducts K (engine.readProperty property receiver) := by
  unfold readProperty
  split
  · next value writable enumerable =>
    have : Shown K value := .covered (some (Property.data value writable enumerable))
    infer_instance
  · next getter setter enumerable =>
    have : Shown K getter := .covered (some (Property.accessor (some getter) setter enumerable))
    infer_instance
  · infer_instance

instance (id : ObjectId) (key : String) (receiver : Value) [Shown K receiver] :
    L.Conducts K (engine.getProperty id key receiver) := by
  unfold getProperty
  infer_instance

instance (id : ObjectId) (key : String) [Shown K id] : L.Conducts K (engine.getOf id key) := by
  unfold getOf
  infer_instance

instance (s : UnitString) (key : String) : L.Conducts K (engine.getOfString s key) := by
  unfold getOfString
  split
  · infer_instance
  · split <;> infer_instance

instance (target : Value) (key : String) [Shown K target] :
    L.Conducts K (engine.get target key) := by
  unfold Engine.get
  split
  -- Other primitives find their properties in a prototype.
  case h_5 =>
    refine .bind fun prototype => ?_
    split <;> infer_instance
  all_goals infer_instance

/-! ## Conversions -/

instance (id : ObjectId) (methods : List String) [Shown K id] :
    L.Conducts K (engine.primitiveByMethods id methods) := by
  -- Induction on the methods that are left to try.
  induction methods with
  | nil =>
    unfold primitiveByMethods
    infer_instance
  | cons method methods ih =>
    unfold primitiveByMethods
    infer_instance

instance (v : Value) (preference : Preference) [Shown K v] :
    L.Conducts K (engine.toPrimitive v preference) := by
  unfold toPrimitive
  split <;> infer_instance

instance (v : Value) [Shown K v] : L.Conducts K (engine.toUnits v) := by
  unfold Engine.toUnits
  infer_instance

instance (v : Value) [Shown K v] : L.Conducts K (engine.toText v) := by
  unfold toText
  infer_instance

instance (v : Value) [Shown K v] : L.Conducts K (engine.toNumber v) := by
  unfold toNumber
  infer_instance

instance (v : Value) [Shown K v] : L.Conducts K (engine.toNumeric v) := by
  unfold toNumeric
  infer_instance

instance (v : Value) [Shown K v] : L.Conducts K (engine.toKey v) := by
  unfold toKey
  split <;> infer_instance

instance (v w : Value) [Shown K v] [Shown K w] : L.Conducts K (engine.looseEqual v w) := by
  unfold looseEqual
  split <;> infer_instance

instance (key : String) (value : Value) [Shown K value] :
    L.Conducts K (engine.checkArrayWrite key value) := by
  unfold checkArrayWrite
  split
  · infer_instance
  · split <;> infer_instance

instance (receiver : Value) (key : String) (value : Value) [Shown K receiver] [Shown K value] :
    L.Conducts K (engine.writeOwn receiver key value) := by
  unfold writeOwn
  split <;> infer_instance

instance (id : ObjectId) (key : String) (value receiver : Value) [Shown K value]
    [Shown K receiver] : L.Conducts K (engine.setProperty id key value receiver) := by
  unfold setProperty
  refine .bind fun property => ?_
  split <;> infer_instance

instance (target : Value) (key : String) (value : Value) [Shown K target] [Shown K value] :
    L.Conducts K (engine.set target key value) := by
  unfold Engine.set
  split <;> infer_instance

instance (v : Value) : L.Conducts K (iterate v) := by
  unfold iterate
  split
  · infer_instance
  · refine .bind fun elements => ?_
    split <;> infer_instance
  · infer_instance

instance (v constructor : Value) [Shown K constructor] :
    L.Conducts K (engine.instanceOf v constructor) := by
  unfold instanceOf
  refine .bind fun callable => ?_
  split
  · refine .bind fun target => ?_
    split
    · refine .bind fun prototype => ?_
      split <;> infer_instance
    · infer_instance
  · infer_instance

instance (id : ObjectId) [Shown K id] : L.Conducts K (engine.listElements id) := by
  unfold listElements
  refine .bind fun elements => ?_
  split <;> infer_instance

/-! ## Operators -/

instance {α : Type} [HasFacts α] (result : Except Fault α) [Shown K result] :
    L.Conducts K (orFault result) := by
  unfold orFault
  cases result with
  | error fault => infer_instance
  | ok x =>
    have : Shown K x := .covered (Except.ok x : Except Fault α)
    infer_instance

instance (op : ArithmeticOperator) (x y : Numeric) : Shown K (op.apply x y) := by
  unfold ArithmeticOperator.apply
  split
  · infer_instance
  · cases op.onIntegers _ _ <;> exact .of_empty rfl
  · infer_instance

instance (op : ArithmeticOperator) (v w : Value) [Shown K v] [Shown K w] :
    L.Conducts K (engine.arithmetic op v w) := by
  unfold arithmetic
  infer_instance

instance (v w : Value) [Shown K v] [Shown K w] : L.Conducts K (engine.add v w) := by
  unfold add
  infer_instance

instance (v w : Value) [Shown K v] [Shown K w] : L.Conducts K (engine.less v w) := by
  unfold less
  infer_instance

instance (v w : Value) [Shown K v] [Shown K w] : L.Conducts K (engine.lessFlipped v w) := by
  unfold lessFlipped
  infer_instance

instance (key object : Value) [Shown K key] : L.Conducts K (engine.hasKey key object) := by
  unfold hasKey
  split <;> infer_instance

instance (op : BinaryOperator) (v w : Value) [Shown K v] [Shown K w] :
    L.Conducts K (engine.binary op v w) := by
  unfold binary
  split <;> infer_instance

instance (v : Value) [Shown K v] : L.Conducts K (engine.plus v) := by
  unfold plus
  refine .bind fun x => ?_
  split <;> infer_instance

instance (v : Value) [Shown K v] : L.Conducts K (engine.minus v) := by
  unfold minus
  refine .bind fun x => ?_
  split <;> infer_instance

instance (v : Value) [Shown K v] : L.Conducts K (engine.bitwiseNot v) := by
  unfold bitwiseNot
  refine .bind fun x => ?_
  split <;> infer_instance

end Law.Conducts

end EcmaEval
