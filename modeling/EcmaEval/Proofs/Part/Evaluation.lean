import EcmaEval.Proofs.Run.Statement
import EcmaEval.Proofs.Part.Library

/-!
# The parts of a program

Every form of expression and statement asks its engine for its parts.  With alike engines it ends
alike, whatever stands around the point at which they differ: no handler, no final part and no
promise takes a breakdown in.

## Main results

* `Alike.alike_evaluateExpression`, `Alike.alike_executeStatement`: expressions and statements
* `Alike.alike_executeProgram`: a program
-/

namespace EcmaEval.Alike

open EcmaEval.Action EcmaEval.Engine

variable {h h' : Halt} {a a' : Action Value} {engine engine' : Engine}
  [hengine : Engine.Alike h h' engine engine']

/-! ## Statements in sequence -/

instance (scope : FrameId) (last : Value) (statements : List Statement) :
    Alike h h' (engine.executeFrom scope last statements)
      (engine'.executeFrom scope last statements) := by
  induction statements generalizing last with
  | nil =>
    unfold executeFrom
    infer_instance
  | cons s rest ih =>
    unfold executeFrom
    dsimp only
    infer_instance

instance (scope : FrameId) (statements : List Statement) :
    Alike h h' (engine.executeList scope statements) (engine'.executeList scope statements) := by
  unfold executeList
  infer_instance

instance (scope : FrameId) (statements : List Statement) :
    Alike h h' (engine.executeBody scope statements) (engine'.executeBody scope statements) := by
  unfold executeBody
  infer_instance

instance (scope : FrameId) (statements : List Statement) :
    Alike h h' (engine.executeBlock scope statements) (engine'.executeBlock scope statements) := by
  unfold executeBlock
  infer_instance

/-! ## Functions -/

instance (frame : FrameId) (args : List Value) (i : Nat) (p : Pattern) :
    Alike h h' (engine.parameter frame args i p) (engine'.parameter frame args i p) := by
  unfold parameter
  split <;> infer_instance

instance (frame : FrameId) (args : List Value) (i : Nat) (params : List Pattern) :
    Alike h h' (engine.bindParameters frame args i params)
      (engine'.bindParameters frame args i params) := by
  induction params generalizing i with
  | nil =>
    unfold bindParameters
    infer_instance
  | cons p rest ih =>
    unfold bindParameters
    infer_instance

instance (node : FunctionNode) (frame : FrameId) (args : List Value) :
    Alike h h' (engine.runBody node frame args) (engine'.runBody node frame args) := by
  unfold runBody
  refine .bind fun _ => ?_
  split <;> infer_instance

/-- The promise of an asynchronous function takes in what is thrown, and nothing else. -/
instance [Alike h h' a a'] :
    Alike h h' (engine.promiseOfAction a) (engine'.promiseOfAction a') := by
  unfold promiseOfAction
  refine .bind fun result => ?_
  split <;> infer_instance

instance (node : FunctionNode) (frame : FrameId) (args : List Value) :
    Alike h h' (engine.runFunction node frame args) (engine'.runFunction node frame args) := by
  unfold runFunction
  infer_instance

instance (node : FunctionNode) (scope : FrameId) (home : Option ObjectId) (this : Value)
    (args : List Value) :
    Alike h h' (engine.callClosure node scope home this args)
      (engine'.callClosure node scope home this args) := by
  unfold callClosure
  infer_instance

/-! ## References and declarations -/

instance (scope : FrameId) (key : String) :
    Alike h h' (engine.getSuper scope key) (engine'.getSuper scope key) := by
  unfold getSuper
  refine .bind fun base => .bind fun this => ?_
  split <;> infer_instance

instance (scope : FrameId) (key : String) (value : Value) :
    Alike h h' (engine.setSuper scope key value) (engine'.setSuper scope key value) := by
  unfold setSuper
  refine .bind fun base => .bind fun this => ?_
  split <;> infer_instance

instance (scope : FrameId) (key : MemberKey) :
    Alike h h' (engine.memberKey scope key) (engine'.memberKey scope key) := by
  unfold Engine.memberKey
  split <;> infer_instance

instance (scope : FrameId) (key : PropertyKey) :
    Alike h h' (engine.propertyKey scope key) (engine'.propertyKey scope key) := by
  unfold Engine.propertyKey
  split <;> infer_instance

instance (scope : FrameId) (target : Expression) :
    Alike h h' (engine.resolve scope target) (engine'.resolve scope target) := by
  unfold Engine.resolve
  split <;> infer_instance

instance (scope : FrameId) (r : Reference) :
    Alike h h' (engine.readReference scope r) (engine'.readReference scope r) := by
  unfold readReference
  split <;> infer_instance

instance (scope : FrameId) (r : Reference) (value : Value) :
    Alike h h' (engine.writeReference scope r value) (engine'.writeReference scope r value) := by
  unfold writeReference
  split <;> infer_instance

instance (scope : FrameId) (kind : DeclarationKind) (d : Declarator) :
    Alike h h' (engine.executeDeclarator scope kind d)
      (engine'.executeDeclarator scope kind d) := by
  unfold executeDeclarator
  split
  · split <;> infer_instance
  · infer_instance

instance (scope : FrameId) (kind : DeclarationKind) (declarators : List Declarator) :
    Alike h h' (engine.executeDeclaration scope kind declarators)
      (engine'.executeDeclaration scope kind declarators) := by
  unfold executeDeclaration
  infer_instance

instance (scope : FrameId) (head : ForHead) (value : Value) :
    Alike h h' (engine.bindHead scope head value) (engine'.bindHead scope head value) := by
  unfold bindHead
  split <;> infer_instance

/-! ## Classes -/

instance (frame : Action FrameId) (key : String) (initializer : Option Expression) :
    Alike h h' (engine.fieldValue frame key initializer)
      (engine'.fieldValue frame key initializer) := by
  unfold fieldValue
  split <;> infer_instance

instance (definition : ClassDefinition) (id : ObjectId) :
    Alike h h' (engine.initializeFields definition id)
      (engine'.initializeFields definition id) := by
  unfold initializeFields
  infer_instance

instance (scope : FrameId) (e : Option Expression) :
    Alike h h' (engine.heritage scope e) (engine'.heritage scope e) := by
  unfold heritage
  split
  · infer_instance
  · refine .bind fun v => .bind fun constructible => ?_
    split
    · infer_instance
    · refine .bind fun prototype => ?_
      split <;> infer_instance
    · infer_instance

instance (scope : FrameId) (elements : List ClassElement) (parts : ClassParts) :
    Alike h h' (engine.classParts scope elements parts)
      (engine'.classParts scope elements parts) := by
  induction elements generalizing parts with
  | nil =>
    unfold classParts
    infer_instance
  | cons element rest ih =>
    unfold classParts
    split <;> infer_instance

instance (id : ObjectId) (scope : FrameId) (element : StaticElement) :
    Alike h h' (engine.runStatic id scope element) (engine'.runStatic id scope element) := by
  unfold runStatic
  refine .bind fun frame => ?_
  split <;> infer_instance

instance (name : String) (scope : FrameId) (node : ClassNode) :
    Alike h h' (engine.makeClass name scope node) (engine'.makeClass name scope node) := by
  unfold makeClass
  refine .bind fun scope => .bind fun ⟨parent, prototypeParent⟩ => .bind fun prototype =>
    .bind fun parts => .bind fun id => .bind fun _ => ?_
  split <;> infer_instance

instance (newTarget : ObjectId) :
    Alike h h' (engine.allocateInstance newTarget) (engine'.allocateInstance newTarget) := by
  unfold allocateInstance
  refine .bind fun prototype => ?_
  split <;> infer_instance

instance (definition : ClassDefinition) (args : List Value) (newTarget : ObjectId) :
    Alike h h' (engine.constructByDefault definition args newTarget)
      (engine'.constructByDefault definition args newTarget) := by
  unfold constructByDefault
  dsimp only
  split
  · infer_instance
  · refine .bind fun made => ?_
    split <;> infer_instance

instance (definition : ClassDefinition) (args : List Value) (newTarget : ObjectId) :
    Alike h h' (engine.constructorFrame definition args newTarget)
      (engine'.constructorFrame definition args newTarget) := by
  unfold constructorFrame
  infer_instance

instance (definition : ClassDefinition) (args : List Value) (newTarget : ObjectId) :
    Alike h h' (engine.constructInstance definition args newTarget)
      (engine'.constructInstance definition args newTarget) := by
  unfold constructInstance
  split
  · infer_instance
  · refine .bind fun frame => .bind fun result => ?_
    infer_instance

instance (scope : FrameId) (args args' : Action (List Value)) [Alike h h' args args'] :
    Alike h h' (engine.callSuper scope args) (engine'.callSuper scope args') := by
  unfold callSuper
  refine .bind fun found => ?_
  split
  · refine .bind fun args => .bind fun frame => ?_
    split
    · infer_instance
    · split
      · refine .bind fun made => ?_
        split <;> infer_instance
      · infer_instance
    · infer_instance
  · infer_instance

/-! ## Expressions -/

instance (scope : FrameId) (values : Array Value) (elements : List (Option Expression)) :
    Alike h h' (engine.evaluateList scope values elements)
      (engine'.evaluateList scope values elements) := by
  fun_induction engine.evaluateList scope values elements with
  | case1 values =>
    rw [evaluateList]
    infer_instance
  | case2 values rest ih =>
    rw [evaluateList]
    exact ih
  | case3 values operand rest ih =>
    rw [evaluateList]
    infer_instance
  | case4 values e rest hspread ih =>
    rw [evaluateList.eq_4 _ _ _ _ _ hspread]
    infer_instance

instance (scope : FrameId) (args : List Expression) :
    Alike h h' (engine.evaluateArguments scope args) (engine'.evaluateArguments scope args) := by
  unfold evaluateArguments
  infer_instance

instance (target : ObjectId) (source : Value) :
    Alike h h' (engine.copyProperties target source) (engine'.copyProperties target source) := by
  unfold copyProperties
  split <;> infer_instance

instance (scope : FrameId) (id : ObjectId) (m : ObjectMember) :
    Alike h h' (engine.addMember scope id m) (engine'.addMember scope id m) := by
  unfold addMember
  split
  · infer_instance
  · infer_instance
  · refine .bind fun key => ?_
    split <;> infer_instance

instance (scope : FrameId) (written : String) (texts : List (Option String))
    (substitutions : List Expression) :
    Alike h h' (engine.templateText scope written texts substitutions)
      (engine'.templateText scope written texts substitutions) := by
  fun_induction engine.templateText scope written texts substitutions with
  | case1 written substitutions =>
    rw [templateText]
    infer_instance
  | case2 written texts substitutions =>
    rw [templateText]
    infer_instance
  | case3 written text texts ih =>
    rw [templateText]
    exact ih
  | case4 written text texts e rest ih =>
    rw [templateText]
    infer_instance

instance (scope : FrameId) (operand : Expression) :
    Alike h h' (engine.delete scope operand) (engine'.delete scope operand) := by
  unfold Engine.delete
  split
  case h_2 =>
    refine .bind fun base => .bind fun key => ?_
    split <;> infer_instance
  all_goals infer_instance

instance (scope : FrameId) (operand : Expression) :
    Alike h h' (engine.typeOfOperand scope operand) (engine'.typeOfOperand scope operand) := by
  unfold typeOfOperand
  refine .bind fun unbound => ?_
  split <;> infer_instance

instance (scope : FrameId) (op : UnaryOperator) (operand : Expression) :
    Alike h h' (engine.unary scope op operand) (engine'.unary scope op operand) := by
  unfold unary
  cases op <;> infer_instance

instance (scope : FrameId) (op : AssignmentOperator) (target value : Expression) :
    Alike h h' (engine.assign scope op target value) (engine'.assign scope op target value) := by
  unfold assign
  refine .bind fun reference => ?_
  cases op <;> infer_instance

instance (scope : FrameId) (op : UpdateOperator) (before : Bool) (target : Expression) :
    Alike h h' (engine.update scope op before target) (engine'.update scope op before target) := by
  unfold update
  infer_instance

instance (scope : FrameId) (object : Expression) (key : MemberKey) :
    Alike h h' (engine.memberFunction scope object key)
      (engine'.memberFunction scope object key) := by
  unfold memberFunction
  split <;> infer_instance

instance (scope : FrameId) (callee : Expression) (args : List Expression) :
    Alike h h' (engine.evaluateCall scope callee args)
      (engine'.evaluateCall scope callee args) := by
  unfold evaluateCall
  split <;> infer_instance

instance (scope : FrameId) (callee : Expression) (args : List Expression) :
    Alike h h' (engine.evaluateNew scope callee args) (engine'.evaluateNew scope callee args) := by
  unfold evaluateNew
  refine .bind fun constructor => .bind fun args => .bind fun constructible => ?_
  split <;> infer_instance

instance (scope : FrameId) (last : Value) (parts : List Expression) :
    Alike h h' (engine.evaluateSequence scope last parts)
      (engine'.evaluateSequence scope last parts) := by
  induction parts generalizing last with
  | nil =>
    unfold evaluateSequence
    infer_instance
  | cons e rest ih =>
    unfold evaluateSequence
    infer_instance

instance alike_evaluateExpression (name : String) (scope : FrameId) (e : Expression) :
    Alike h h' (engine.evaluateExpression name scope e)
      (engine'.evaluateExpression name scope e) := by
  unfold evaluateExpression
  split <;> infer_instance

/-! ## Loops -/

section Rounds

variable {σ : Type} (labels : List String)

instance (enter enter' : σ → Action (Option σ)) [∀ s, Alike h h' (enter s) (enter' s)]
    (body body' : Action Value) [Alike h h' body body'] (fuel : Nat) (s : σ) (last : Value) :
    Alike h h' (runRounds labels enter body fuel s last)
      (runRounds labels enter' body' fuel s last) := by
  -- Induction on the number of rounds left.
  induction fuel generalizing s last with
  | zero => exact inferInstanceAs (Alike h h' exhausted exhausted)
  | succ fuel ih =>
    unfold runRounds
    refine .bind fun next => ?_
    split <;> infer_instance

theorem alike_runLoop {enter enter' : σ → Action (Option σ)}
    (henter : ∀ s, Alike h h' (enter s) (enter' s)) (scope : FrameId) (body : Statement)
    (start : σ) :
    Alike h h' (engine.runLoop labels scope body start enter)
      (engine'.runLoop labels scope body start enter') := by
  unfold runLoop
  rw [hengine.fuel]
  infer_instance

instance (scope : FrameId) (body : Statement) (start : σ) (enter enter' : σ → Action (Option σ))
    [henter : ∀ s, Alike h h' (enter s) (enter' s)] :
    Alike h h' (engine.runLoop labels scope body start enter)
      (engine'.runLoop labels scope body start enter') :=
  alike_runLoop labels henter scope body start

end Rounds

instance (scope : FrameId) (test : Option Expression) :
    Alike h h' (engine.loopTest scope test) (engine'.loopTest scope test) := by
  unfold loopTest
  split <;> infer_instance

instance (scope : FrameId) (init : Option ForInit) :
    Alike h h' (engine.executeInit scope init) (engine'.executeInit scope init) := by
  unfold executeInit
  split <;> infer_instance

instance (scope : FrameId) (head : ForHead) (values : List Value) :
    Alike h h' (engine.enterListed scope head values) (engine'.enterListed scope head values) := by
  unfold enterListed
  split <;> infer_instance

instance (scope : FrameId) (head : ForHead) (id : ObjectId) (i : Nat) :
    Alike h h' (engine.enterElement scope head id i) (engine'.enterElement scope head id i) := by
  unfold enterElement
  refine .bind fun element => ?_
  split <;> infer_instance

instance (labels : List String) (scope : FrameId) (loop : Statement) :
    Alike h h' (engine.executeLoop labels scope loop) (engine'.executeLoop labels scope loop) := by
  unfold executeLoop
  refine .bind fun scope => ?_
  cases loop with
  | «for» init test update body =>
    refine .bind fun _ => ?_
    refine alike_runLoop labels (fun started => ?_) scope body false
    dsimp only
    split
    · split <;> infer_instance
    · infer_instance
  | forOf head iterable body =>
    refine .bind fun source => .bind fun array => ?_
    split <;> infer_instance
  | _ => infer_instance

/-! ## Statements -/

instance (scope : FrameId) (handler : CatchClause) (thrown : Value) :
    Alike h h' (engine.executeHandler scope handler thrown)
      (engine'.executeHandler scope handler thrown) := by
  unfold executeHandler
  refine .bind fun scope => ?_
  split <;> infer_instance

/-- A handler runs for what is thrown, and for nothing else. -/
instance (scope : FrameId) (body : List Statement) (handler : Option CatchClause) :
    Alike h h' (engine.executeGuarded scope body handler)
      (engine'.executeGuarded scope body handler) := by
  unfold executeGuarded
  split
  · infer_instance
  · refine .bind fun result => ?_
    split <;> infer_instance

/-- The final part of a try statement runs behind what is thrown, but not behind a breakdown. -/
instance (scope : FrameId) (body : List Statement) (handler : Option CatchClause)
    (finalizer : Option (List Statement)) :
    Alike h h' (engine.executeTry scope body handler finalizer)
      (engine'.executeTry scope body handler finalizer) := by
  unfold executeTry
  split <;> infer_instance

instance (scope : FrameId) (discriminant : Value) (cases : List SwitchCase) :
    Alike h h' (engine.matchingCases scope discriminant cases)
      (engine'.matchingCases scope discriminant cases) := by
  induction cases with
  | nil =>
    unfold matchingCases
    infer_instance
  | cons c rest ih =>
    unfold matchingCases
    split <;> infer_instance

instance (scope : FrameId) (last : Value) (cases : List SwitchCase) :
    Alike h h' (engine.executeCases scope last cases) (engine'.executeCases scope last cases) := by
  induction cases generalizing last with
  | nil =>
    unfold executeCases
    infer_instance
  | cons c rest ih =>
    unfold executeCases
    infer_instance

instance (scope : FrameId) (discriminant : Expression) (cases : List SwitchCase) :
    Alike h h' (engine.executeSwitch scope discriminant cases)
      (engine'.executeSwitch scope discriminant cases) := by
  unfold executeSwitch
  infer_instance

instance (scope : FrameId) (labels : List String) (s : Statement) :
    Alike h h' (engine.executeLabeled scope labels s) (engine'.executeLabeled scope labels s) := by
  fun_induction engine.executeLabeled scope labels s with
  | case1 labels label body ih =>
    rw [executeLabeled]
    exact ih
  | case2 labels s hlabeled _ hloop =>
    rw [executeLabeled.eq_2 _ _ _ _ hlabeled, if_pos hloop]
    infer_instance
  | case3 labels s hlabeled _ hloop =>
    rw [executeLabeled.eq_2 _ _ _ _ hlabeled, if_neg hloop]
    infer_instance

instance alike_executeStatement (scope : FrameId) (s : Statement) :
    Alike h h' (engine.executeStatement scope s) (engine'.executeStatement scope s) := by
  unfold executeStatement
  cases s with
  | «if» test consequent alternate =>
    refine .bind fun v => ?_
    split
    · infer_instance
    · split <;> infer_instance
  | «return» value => cases value <;> infer_instance
  | _ => infer_instance

instance alike_executeProgram (scope : FrameId) (p : Program) :
    Alike h h' (engine.executeProgram scope p) (engine'.executeProgram scope p) := by
  unfold executeProgram
  infer_instance

end EcmaEval.Alike
