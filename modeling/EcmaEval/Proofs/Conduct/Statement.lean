import EcmaEval.Eval.Statement
import EcmaEval.Proofs.Conduct.Expression
import EcmaEval.Proofs.Run.Statement

/-!
# Statements on sound machines

A statement is executed where the variables in it are owned already.  Its parts are executed in the
same frame, or in a new block, which owns what the frame around it owns and may be given any name.

## Main results

* `Law.Conducts.executeLoop`, `Law.Conducts.executeSwitch`: statements with blocks of their own
* `Law.Conducts.executeStatement`: each form of statement
* `Law.Conducts.executeProgram`: the statements of a program
-/

namespace EcmaEval

variable {L : Law} {K : Knowledge}

/-- What a loop leaves behind a round is what its body left, or nothing. -/
theorem AfterRound.rest_of_stop {labels : List String} {signal rest : Option Signal}
    (h : ofSignal labels signal = .stop rest) : rest = none ∨ rest = signal := by
  unfold ofSignal at h
  split at h
  case h_1 | h_2 => cases h
  case h_3 =>
    cases h
    exact .inl rfl
  case h_4 | h_5 =>
    split at h <;> cases h
    all_goals first | exact .inl rfl | exact .inr rfl
  case h_6 | h_7 =>
    cases h
    exact .inr rfl

/-- Fewer cases declare fewer names. -/
theorem variableNamesOfCases_dropWhile_subset (p : SwitchCase → Bool) (cases : List SwitchCase) :
    variableNamesOfCases (cases.dropWhile p) ⊆ variableNamesOfCases cases := by
  induction cases with
  | nil => exact List.Subset.refl _
  | cons c rest ih =>
    obtain ⟨test, body⟩ := c
    rw [List.dropWhile_cons]
    split
    · exact List.Subset.trans ih (List.subset_append_right _ _)
    · exact List.Subset.refl _

namespace Law

open EcmaEval.Action EcmaEval.Engine

variable {engine : Engine} [hengine : engine.Behaves L]

namespace Conducts

/-! ## Loops -/

instance (labels : List String) : L.Conducts K (loopContinues labels) := by
  unfold loopContinues
  refine .bind fun signal => ?_
  cases hafter : AfterRound.ofSignal labels signal with
  | next => infer_instance
  | stop rest => rcases AfterRound.rest_of_stop hafter with rfl | rfl <;> infer_instance

section Rounds

variable {σ : Type} [HasFacts σ]

instance (labels : List String) (enter : σ → Action (Option σ)) (body : Action Value) (fuel : Nat)
    (s : σ) (last : Value) [hs : Shown K s] [Shown K last] [hbody : L.Conducts K body]
    [henter : ∀ s, L.Conducts (K.and s) (enter s)] :
    L.Conducts K (runRounds labels enter body fuel s last) := by
  -- Induction on the rounds that may still come.
  induction fuel generalizing s last K with
  | zero =>
    unfold runRounds
    infer_instance
  | succ fuel ih =>
    have := of_shown s (henter s)
    unfold runRounds
    refine .bind fun entered => ?_
    cases entered with
    | none => infer_instance
    | some s =>
      refine .bind fun value => .bind fun continues => ?_
      split
      · have (t : σ) : L.Conducts ((((K.and (some s)).and value).and continues).and t) (enter t) :=
          (henter t).mono (Knowledge.known_and_subset
            (Set.subset_union_left.trans (Set.subset_union_left.trans Set.subset_union_left)) t) rfl
        exact ih s value
      · infer_instance

instance (labels : List String) (scope : FrameId) (body : Statement) (start : σ)
    (enter : σ → Action (Option σ)) [Shown K start] [Shown K (Query.execute scope body)]
    [∀ s, L.Conducts (K.and s) (enter s)] :
    L.Conducts K (engine.runLoop labels scope body start enter) := by
  unfold runLoop
  infer_instance

end Rounds

section Scope

variable (scope : FrameId) [hscope : Shown K scope]

instance (test : Option Expression) [hcode : Shown K (Framed.mk (some scope) test)] :
    L.Conducts K (engine.loopTest scope test) := by
  unfold loopTest
  cases test with
  | none => infer_instance
  | some e =>
    have : Shown K (Framed.mk (some scope) e) := hcode.part
    infer_instance

instance executeInit (init : Option ForInit) [hfree : ∀ name, Free K scope name]
    [howned : Owned K scope ((init.map ForInit.variableNames).getD [])]
    [hcode : Shown K (Framed.mk (some scope) init)] :
    L.Conducts K (engine.executeInit scope init) := by
  unfold Engine.executeInit
  match init, howned, hcode with
  | none, _, _ => infer_instance
  | some (.expression e), _, hcode =>
    have hinit : Shown K (Framed.mk (some scope) (ForInit.expression e)) := hcode.part
    have : Shown K (Framed.mk (some scope) e) := hinit.part
    infer_instance
  | some (.declaration kind declarators), howned, hcode =>
    have hinit : Shown K (Framed.mk (some scope) (ForInit.declaration kind declarators)) :=
      hcode.part
    have : Shown K (Framed.mk (some scope) declarators) := hinit.part
    have : Declares K scope kind (declarators.flatMap fun d => d.target.names) :=
      .of_owned fun h => by
        subst h
        exact howned
    have : L.Conducts K (engine.executeDeclaration scope kind declarators) :=
      Conducts.executeDeclaration scope kind declarators
    infer_instance

instance (v : Value) : L.Conducts K (keysToVisit v) := by
  unfold keysToVisit
  split <;> infer_instance

instance (head : ForHead) (values : List Value) [hvalues : Shown K values]
    [hfree : ∀ name, Free K scope name] [howned : Owned K scope head.variableNames]
    [Shown K (Framed.mk (some scope) head)] :
    L.Conducts K (engine.enterListed scope head values) := by
  unfold enterListed
  cases values with
  | nil => infer_instance
  | cons v rest =>
    have : Shown K v := .covered (v :: rest)
    have : Shown K rest := .covered (v :: rest)
    infer_instance

instance (head : ForHead) (id : ObjectId) (i : Nat) [hfree : ∀ name, Free K scope name]
    [howned : Owned K scope head.variableNames] [Shown K (Framed.mk (some scope) head)] :
    L.Conducts K (engine.enterElement scope head id i) := by
  unfold enterElement
  refine .bind fun element => ?_
  cases element <;> infer_instance

end Scope

/-- A loop runs in a block of its own. -/
instance executeLoop (labels : List String) (scope : FrameId) (loop : Statement)
    [hloop : Shown K (Query.execute scope loop)] :
    L.Conducts K (engine.executeLoop labels scope loop) := by
  have hscope : Shown K scope := .scope_of_execute loop
  have howned : Owned K scope loop.variableNames := Shown.owned_of_execute loop
  have hcode : Shown K (Framed.mk (some scope) loop) := .code_of_execute loop
  unfold Engine.executeLoop
  refine (leaves_addBlock scope).andThen fun block => ?_
  change L.Conducts (K.inBlock scope block) _
  have howned : Owned (K.inBlock scope block) block loop.variableNames := inferInstance
  have hcode : Shown (K.inBlock scope block) (Framed.mk (some block) loop) := inferInstance
  clear hloop
  cases loop with
  | «while» test body =>
    have : Owned (K.inBlock scope block) block body.variableNames := howned
    have : Shown (K.inBlock scope block) (Framed.mk (some block) test) := hcode.part
    have : Shown (K.inBlock scope block) (Framed.mk (some block) body) := hcode.part
    infer_instance
  | doWhile body test =>
    have : Owned (K.inBlock scope block) block body.variableNames := howned
    have : Shown (K.inBlock scope block) (Framed.mk (some block) test) := hcode.part
    have : Shown (K.inBlock scope block) (Framed.mk (some block) body) := hcode.part
    infer_instance
  | «for» init test update body =>
    have : Owned (K.inBlock scope block) block ((init.map ForInit.variableNames).getD []) :=
      howned.subset (List.subset_append_left _ _)
    have : Owned (K.inBlock scope block) block body.variableNames :=
      howned.subset (List.subset_append_right _ _)
    have : Shown (K.inBlock scope block) (Framed.mk (some block) init) := hcode.part
    have : Shown (K.inBlock scope block) (Framed.mk (some block) test) := hcode.part
    have hupdate : Shown (K.inBlock scope block) (Framed.mk (some block) update) := hcode.part
    have : Shown (K.inBlock scope block) (Framed.mk (some block) body) := hcode.part
    refine .bind fun _ => ?_
    cases update with
    | none => infer_instance
    | some update =>
      have : Shown (K.inBlock scope block) (Framed.mk (some block) update) := hupdate.part
      infer_instance
  | forIn head object body =>
    have : Owned (K.inBlock scope block) block head.variableNames :=
      howned.subset (List.subset_append_left _ _)
    have : Owned (K.inBlock scope block) block body.variableNames :=
      howned.subset (List.subset_append_right _ _)
    have : Shown (K.inBlock scope block) (Framed.mk (some block) head) := hcode.part
    have : Shown (K.inBlock scope block) (Framed.mk (some block) object) := hcode.part
    have : Shown (K.inBlock scope block) (Framed.mk (some block) body) := hcode.part
    infer_instance
  | forOf head iterable body =>
    have : Owned (K.inBlock scope block) block head.variableNames :=
      howned.subset (List.subset_append_left _ _)
    have : Owned (K.inBlock scope block) block body.variableNames :=
      howned.subset (List.subset_append_right _ _)
    have : Shown (K.inBlock scope block) (Framed.mk (some block) head) := hcode.part
    have : Shown (K.inBlock scope block) (Framed.mk (some block) iterable) := hcode.part
    have : Shown (K.inBlock scope block) (Framed.mk (some block) body) := hcode.part
    refine .bind fun source => .bind fun isArray => ?_
    split <;> infer_instance
  | _ => infer_instance

/-! ## Statements with blocks -/

section Scope

variable (scope : FrameId) [hscope : Shown K scope]

instance (handler : CatchClause) (thrown : Value) [Shown K thrown]
    [howned : Owned K scope (variableNamesOfList handler.body)]
    [hcode : Shown K (Framed.mk (some scope) handler)] :
    L.Conducts K (engine.executeHandler scope handler thrown) := by
  have : Shown K (Framed.mk (some scope) handler.body) := hcode.part
  unfold executeHandler
  refine (leaves_addBlock scope).andThen fun block => ?_
  change L.Conducts (K.inBlock scope block) _
  dsimp only
  split <;> infer_instance

instance (body : List Statement) (handler : Option CatchClause)
    [Owned K scope (variableNamesOfList body)]
    [hhandler : Owned K scope (variableNamesOfHandler handler)]
    [Shown K (Framed.mk (some scope) body)] [hcode : Shown K (Framed.mk (some scope) handler)] :
    L.Conducts K (engine.executeGuarded scope body handler) := by
  unfold executeGuarded
  cases handler with
  | none => infer_instance
  | some handler =>
    obtain ⟨param, handlerBody⟩ := handler
    have : Owned K scope (variableNamesOfList handlerBody) := hhandler
    have : Shown K (Framed.mk (some scope) (CatchClause.mk param handlerBody)) := hcode.part
    refine .bind fun result => ?_
    cases result <;> infer_instance

instance (body : List Statement) (handler : Option CatchClause)
    (finalizer : Option (List Statement)) [Owned K scope (variableNamesOfList body)]
    [Owned K scope (variableNamesOfHandler handler)]
    [hfinalizer : Owned K scope (variableNamesOfFinalizer finalizer)]
    [Shown K (Framed.mk (some scope) body)] [Shown K (Framed.mk (some scope) handler)]
    [hcode : Shown K (Framed.mk (some scope) finalizer)] :
    L.Conducts K (engine.executeTry scope body handler finalizer) := by
  unfold executeTry
  cases finalizer with
  | none => infer_instance
  | some finalizer =>
    have : Owned K scope (variableNamesOfList finalizer) := hfinalizer
    have : Shown K (Framed.mk (some scope) finalizer) := hcode.part
    infer_instance

/-! ### Switches -/

/-- What the cases that are selected mention. -/
def selectedFacts (found : Option (List SwitchCase)) : Set Fact :=
  ownedFacts scope (variableNamesOfCases (found.getD [])) ∪
    facts (Framed.mk (some scope) (found.getD []))

/-- The cases that are selected mention nothing that the others do not. -/
theorem leaves_matchingCases (discriminant : Value) (cases : List SwitchCase)
    [howned : Owned K scope (variableNamesOfCases cases)]
    [hcode : Shown K (Framed.mk (some scope) cases)] :
    L.Leaves K (engine.matchingCases scope discriminant cases) (selectedFacts scope) := by
  -- Induction on the cases that are left.
  induction cases generalizing K with
  | nil =>
    unfold matchingCases
    exact .pure (Set.union_subset howned.known hcode.facts_subset)
  | cons c rest ih =>
    have hc : Shown K (Framed.mk (some scope) c) := hcode.part
    have hrest : variableNamesOfCases rest ⊆ variableNamesOfCases (c :: rest) := by
      obtain ⟨test, body⟩ := c
      exact List.subset_append_right _ _
    have : Owned K scope (variableNamesOfCases rest) := howned.subset hrest
    have : Shown K (Framed.mk (some scope) rest) := hcode.part
    have htest : Shown K (Framed.mk (some scope) c.test) := hc.part
    unfold matchingCases
    generalize c.test = test at htest ⊢
    cases test with
    | none => exact ih
    | some test =>
      have : Shown K (Framed.mk (some scope) test) := htest.part
      have htest : L.Conducts K (engine.evaluate scope test) := inferInstance
      refine htest.leaves.bind fun value => ?_
      change L.Leaves (K.and value) _ _
      split
      · exact .pure ((Set.union_subset howned.known hcode.facts_subset).trans
          Set.subset_union_left)
      · exact ih

/-- All cases bind what they declare in the block that they share. -/
theorem hoistCases (cases : List SwitchCase) [howned : Owned K scope (variableNamesOfCases cases)]
    [hfree : ∀ name, Free K scope name] [hcode : Shown K (Framed.mk (some scope) cases)] :
    L.Conducts K (cases.forM fun c => hoist scope c.body) := by
  induction cases generalizing K with
  | nil => exact inferInstanceAs (L.Conducts K (Pure.pure _))
  | cons c rest ih =>
    have hc : Shown K (Framed.mk (some scope) c) := hcode.part
    have hbody : Shown K (Framed.mk (some scope) c.body) := hc.part
    have : Shown K (Framed.mk (some scope) rest) := hcode.part
    obtain ⟨test, body⟩ := c
    have : Owned K scope (variableNamesOfList body) := howned.subset (List.subset_append_left _ _)
    have : Owned K scope (variableNamesOfCases rest) := howned.subset (List.subset_append_right _ _)
    have hhoist : L.Leaves K (hoist scope body) _ := leaves_hoist body
    exact hhoist.andThen fun _ => ih

instance (last : Value) (cases : List SwitchCase) [Shown K last]
    [howned : Owned K scope (variableNamesOfCases cases)] [hfree : ∀ name, Free K scope name]
    [hcode : Shown K (Framed.mk (some scope) cases)] :
    L.Conducts K (engine.executeCases scope last cases) := by
  induction cases generalizing last K with
  | nil =>
    unfold executeCases
    infer_instance
  | cons c rest ih =>
    have hc : Shown K (Framed.mk (some scope) c) := hcode.part
    have hbody : Shown K (Framed.mk (some scope) c.body) := hc.part
    have : Shown K (Framed.mk (some scope) rest) := hcode.part
    obtain ⟨test, body⟩ := c
    have : Owned K scope (variableNamesOfList body) := howned.subset (List.subset_append_left _ _)
    have : Owned K scope (variableNamesOfCases rest) := howned.subset (List.subset_append_right _ _)
    unfold executeCases
    infer_instance

instance executeSwitch (discriminant : Expression) (cases : List SwitchCase)
    [howned : Owned K scope (variableNamesOfCases cases)]
    [Shown K (Framed.mk (some scope) discriminant)] [hcode : Shown K (Framed.mk (some scope) cases)] :
    L.Conducts K (engine.executeSwitch scope discriminant cases) := by
  unfold Engine.executeSwitch
  refine .bind fun value => ?_
  refine (leaves_addBlock scope).andThen fun block => ?_
  change L.Conducts ((K.and value).inBlock scope block) _
  have := hoistCases (L := L) (K := (K.and value).inBlock scope block) block cases
  refine .bind fun u => ?_
  refine (leaves_matchingCases block value cases).andThen fun selected => ?_
  let K' := (((K.and value).inBlock scope block).and u).plus (selectedFacts block selected)
  let cases' := selected.getD (cases.dropWhile fun c => c.test.isSome)
  have hselected : Owned K' block (variableNamesOfCases cases') ∧
      Shown K' (Framed.mk (some block) cases') := by
    cases selected with
    | none =>
      let rest := cases.dropWhile fun c => c.test.isSome
      have hall : Owned ((K.and value).inBlock scope block) block (variableNamesOfCases cases) :=
        inferInstance
      have : Owned ((K.and value).inBlock scope block) block (variableNamesOfCases rest) :=
        hall.subset (variableNamesOfCases_dropWhile_subset _ cases)
      have hcode : Shown ((K.and value).inBlock scope block) (Framed.mk (some block) cases) :=
        inferInstance
      have : Covers (Framed.mk (some block) cases) (Framed.mk (some block) rest) :=
        Framed.covers_of_subset (List.dropWhile_suffix _).subset _
      have : Shown ((K.and value).inBlock scope block) (Framed.mk (some block) rest) := hcode.part
      exact ⟨inferInstanceAs (Owned K' block (variableNamesOfCases rest)),
        inferInstanceAs (Shown K' (Framed.mk (some block) rest))⟩
    | some selected => exact ⟨⟨Set.subset_union_left.trans Set.subset_union_right⟩,
        ⟨Set.subset_union_right.trans Set.subset_union_right⟩⟩
  obtain ⟨_, _⟩ := hselected
  infer_instance

/-! ## Labels and other statements -/

instance executeLabeled (labels : List String) (s : Statement)
    [hs : Shown K (Query.execute scope s)] :
    L.Conducts K (engine.executeLabeled scope labels s) := by
  fun_induction Engine.executeLabeled generalizing K with
  | case1 labels label body ih =>
    have hcode : Shown K (Framed.mk (some scope) (Statement.labeled label body)) :=
      .code_of_execute (.labeled label body)
    have : Shown K (Framed.mk (some scope) body) := hcode.part
    have : Shown K (Query.execute scope body) :=
      .execute_part (.labeled label body) (List.Subset.refl _) (List.Subset.refl _)
    exact ih
  | case2 labels s hlabeled absorbLabels =>
    have (value : Value) : L.Conducts (K.and value) (absorbLabels value) := by
      unfold absorbLabels
      infer_instance
    infer_instance
  | case3 labels s hlabeled absorbLabels =>
    have (value : Value) : L.Conducts (K.and value) (absorbLabels value) := by
      unfold absorbLabels
      infer_instance
    infer_instance

end Scope

instance (s : Signal) [Shown K s] : L.Conducts K (leave s) := by
  unfold leave
  infer_instance

/-- Each form of statement conducts itself well. -/
instance executeStatement (scope : FrameId) (s : Statement) [hs : Shown K (Query.execute scope s)] :
    L.Conducts K (engine.executeStatement scope s) := by
  have hscope : Shown K scope := .scope_of_execute s
  have howned : Owned K scope s.variableNames := Shown.owned_of_execute s
  have hcode : Shown K (Framed.mk (some scope) s) := .code_of_execute s
  unfold Engine.executeStatement
  cases s with
  | expression e =>
    have : Shown K (Framed.mk (some scope) e) := hcode.part
    infer_instance
  | declaration kind declarators =>
    have : Declares K scope kind (declarators.flatMap fun d => d.target.names) := by
      refine ⟨fun name hname => ?_⟩
      cases kind with
      | «variable» => exact howned.known ⟨name, hname, rfl⟩
      | lexical =>
        exact (Shown.free_of_execute (.declaration .lexical declarators) hname).known
      | constant =>
        exact (Shown.free_of_execute (.declaration .constant declarators) hname).known
    have : Shown K (Framed.mk (some scope) declarators) := hcode.part
    have : L.Conducts K (engine.executeDeclaration scope kind declarators) :=
      Conducts.executeDeclaration scope kind declarators
    infer_instance
  | «if» test consequent alternate =>
    have : Shown K (Framed.mk (some scope) test) := hcode.part
    have : Shown K (Framed.mk (some scope) consequent) := hcode.part
    have : Shown K (Query.execute scope consequent) :=
      .execute_part (.if test consequent alternate) (List.subset_append_left _ _)
        (List.subset_append_left _ _)
    have halternate : Shown K (Framed.mk (some scope) alternate) := hcode.part
    refine .bind fun value => ?_
    cases alternate with
    | none => infer_instance
    | some alternate =>
      have : Shown K (Framed.mk (some scope) alternate) := halternate.part
      have : Shown K (Query.execute scope alternate) :=
        .execute_part (.if test consequent (some alternate)) (List.subset_append_right _ _)
          (List.subset_append_right _ _)
      infer_instance
  | «return» value =>
    have hvalue : Shown K (Framed.mk (some scope) value) := hcode.part
    cases value with
    | none => infer_instance
    | some e =>
      have : Shown K (Framed.mk (some scope) e) := hvalue.part
      infer_instance
  | throw e =>
    have : Shown K (Framed.mk (some scope) e) := hcode.part
    infer_instance
  | block body =>
    have : Owned K scope (variableNamesOfList body) := howned
    have : Shown K (Framed.mk (some scope) body) := hcode.part
    infer_instance
  | «try» body handler finalizer =>
    have hboth : variableNamesOfList body ++ variableNamesOfHandler handler ⊆
        (Statement.try body handler finalizer).variableNames := List.subset_append_left _ _
    have : Owned K scope (variableNamesOfList body) :=
      howned.subset (List.Subset.trans (List.subset_append_left _ _) hboth)
    have : Owned K scope (variableNamesOfHandler handler) :=
      howned.subset (List.Subset.trans (List.subset_append_right _ _) hboth)
    have : Owned K scope (variableNamesOfFinalizer finalizer) :=
      howned.subset (List.subset_append_right _ _)
    have : Shown K (Framed.mk (some scope) body) := hcode.part
    have : Shown K (Framed.mk (some scope) handler) := hcode.part
    have : Shown K (Framed.mk (some scope) finalizer) := hcode.part
    infer_instance
  | switch discriminant cases =>
    have : Owned K scope (variableNamesOfCases cases) := howned
    have : Shown K (Framed.mk (some scope) discriminant) := hcode.part
    have : Shown K (Framed.mk (some scope) cases) := hcode.part
    infer_instance
  | «class» node =>
    have : Free K scope (node.name.getD "") :=
      Shown.free_of_execute (.class node) List.mem_cons_self
    have : Shown K (Framed.mk (some scope) node) := hcode.part
    infer_instance
  | _ => infer_instance

/-- The statements of a program run in a frame that takes variables and any name. -/
instance executeProgram (scope : FrameId) (p : Program) [Shown K scope] [Rooted K scope]
    [hfree : ∀ name, Free K scope name] [Shown K (Framed.mk (some scope) p.body)] :
    L.Conducts K (engine.executeProgram scope p) := by
  unfold Engine.executeProgram
  refine .bind fun value => .bind fun signal => ?_
  cases signal with
  | none => infer_instance
  | some signal => cases signal <;> infer_instance

end Conducts

end Law

end EcmaEval
