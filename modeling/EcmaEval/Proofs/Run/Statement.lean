import EcmaEval.Eval.Loop
import EcmaEval.Proofs.Run.Expression
import EcmaEval.Eval.Statement

/-!
# Statements

A statement leaves only signals that something around it takes out, and none that is aimed at
itself.  A loop, a switch and a label take out what is aimed at them, a try statement keeps what its
parts leave, and all other statements pass on what their parts leave.  A loop takes out each jump
that is aimed at it, and stops at every other signal of its body; so what it leaves leads to
something around the loop.

## Main definitions

* `Signal.AimedAtLoop`: a loop with some labels takes the signal out

## Main results

* `Discipline.runs_runRounds`: what the rounds of a loop leave
* `Discipline.runs_executeLoop`: what a loop leaves
* `Discipline.runs_executeStatement`: what a statement leaves
* `Discipline.steady_executeProgram`: a program puts everything back
-/

namespace EcmaEval

/-- A loop with some labels takes the signal out. -/
def Signal.AimedAtLoop (labels : List String) : Signal → Prop
  | .break none | .continue none => True
  | .break (some label) | .continue (some label) => label ∈ labels
  | .return _ | .suspend _ => False

/-- What a loop leaves when it stops is what its body left, and is not aimed at the loop. -/
theorem AfterRound.not_aimedAtLoop_of_stop {labels : List String} {left rest : Option Signal}
    (h : ofSignal labels left = .stop rest) :
    ∀ x ∈ rest, x ∈ left ∧ ¬ x.AimedAtLoop labels := by
  intro x hx
  unfold ofSignal at h
  -- A jump with a label stops the loop unless the loop has the label.
  split at h
  case h_4 label =>
    split at h
    · cases h
    · next hlabel =>
      cases h
      cases hx
      exact ⟨rfl, fun haimed => hlabel (List.contains_iff_mem.mpr haimed)⟩
  case h_5 label =>
    split at h
    · cases h
      cases hx
    · next hlabel =>
      cases h
      cases hx
      exact ⟨rfl, fun haimed => hlabel (List.contains_iff_mem.mpr haimed)⟩
  all_goals cases h
  · cases hx
  · cases hx
    exact ⟨rfl, id⟩
  · cases hx
    exact ⟨rfl, id⟩

/-- What is not aimed at a loop leads out of what surrounds the loop. -/
theorem Signal.Within.of_loop {c : Surroundings} {labels : List String} {x : Signal}
    (h : x.Within c.loop) (hx : ¬ x.AimedAtLoop labels) : x.Within c := by
  cases x with
  | «return» v => exact h
  | «break» label =>
    cases label with
    | none => exact (hx trivial).elim
    | some label => exact h
  | «continue» label =>
    cases label with
    | none => exact (hx trivial).elim
    | some label => exact h
  | suspend v => exact h

namespace Discipline

open EcmaEval.Action Engine

variable {D : Discipline}

/-! ## Rounds -/

/-- What a loop with some labels may leave. -/
def AllowsLoopExit (D : Discipline) (c : Surroundings) (labels : List String)
    (after : Option Signal) : Prop :=
  D.aimed → ∀ x ∈ after, x.Within c ∧ ¬ x.AimedAtLoop labels

section Rounds

variable {before : Option Signal} {labels : List String}

theorem runs_loopContinues :
    D.Runs before (loopContinues labels) fun goesOn after =>
      if goesOn then after = none else AfterRound.ofSignal labels before = .stop after := by
  unfold loopContinues
  refine runs_takeSignal.bind ?_
  rintro left _ ⟨rfl, rfl⟩
  split
  case h_1 => exact .pure rfl
  case h_2 rest hrest =>
    refine (runs_reinstate rest).bind ?_
    rintro _ _ rfl
    exact .pure hrest

/-- What the rounds of a loop leave is what a loop leaves after a round, or nothing. -/
theorem runs_runRounds {σ : Type} {enter : σ → Action (Option σ)} {body : Action Value}
    {P : Option Signal → Prop} (hnone : P none) (henter : ∀ s, D.Steady (enter s))
    (hbody : D.Runs none body fun _ left => ∀ rest, AfterRound.ofSignal labels left = .stop rest →
      P rest)
    (fuel : Nat) (s : σ) (last : Value) :
    D.Runs none (runRounds labels enter body fuel s last) fun _ after => P after := by
  -- Induction on the number of rounds left.  A round that goes on leaves nothing, so the next
  -- one starts as it did; one that stops leaves what the loop leaves.
  induction fuel generalizing s last with
  | zero => exact Runs.mono (keeps_exhausted (P := fun _ => True)) fun _ _ h => h.1 ▸ hnone
  | succ fuel ih =>
    unfold runRounds
    refine (henter s).keeps.andThen fun next _ => ?_
    split
    case h_1 => exact .pure hnone
    case h_2 s =>
      refine hbody.bind fun value left hleft => runs_loopContinues.bind ?_
      intro goesOn after hafter
      cases goesOn with
      | true => exact hafter ▸ ih s value
      | false => exact .pure (hleft after hafter)

end Rounds

/-! ## Declarations -/

instance (scope : FrameId) (kind : DeclarationKind) (name : String) (value : Value) :
    D.Steady (declare scope kind name value) := by
  unfold declare
  cases kind <;> infer_instance

instance (v : Value) : D.Steady (keysToVisit v) := by
  unfold keysToVisit
  split <;> infer_instance

section Heads

variable (engine : Engine) (scope : FrameId) (head : ForHead)
  [∀ value, D.Steady (engine.bindHead scope head value)]

instance (values : List Value) : D.Steady (engine.enterListed scope head values) := by
  unfold enterListed
  split <;> infer_instance

instance (id : ObjectId) (i : Nat) : D.Steady (engine.enterElement scope head id i) := by
  unfold enterElement
  refine .bind fun element => ?_
  split <;> infer_instance

end Heads

section Loops

variable {c : Surroundings} (engine : Engine) [hengine : engine.Obeys D]

theorem steady_executeDeclarator {d : Declarator} (h : Site.All D.rule (c.declarator d))
    (scope : FrameId) (kind : DeclarationKind) :
    D.Steady (engine.executeDeclarator scope kind d) := by
  unfold executeDeclarator
  split
  case h_1 name _ =>
    split
    case h_1 e hinit =>
      have he := Site.all_map.mp (Site.all_cons.mp h).2 e (by simp [hinit])
      have := steady_evaluateAs engine he name scope
      infer_instance
    all_goals infer_instance
  case h_2 => infer_instance

theorem steady_executeDeclaration {declarators : List Declarator}
    (h : Site.All D.rule (declarators.flatMap c.declarator)) (scope : FrameId)
    (kind : DeclarationKind) : D.Steady (engine.executeDeclaration scope kind declarators) :=
  .forM_mem fun d hd => steady_executeDeclarator engine (Site.all_flatMap.mp h d hd) scope kind

theorem steady_bindHead {head : ForHead} (h : Site.All D.rule (c.forHead head))
    (hshape : ∀ e, head = .target e → Grammar.isTarget false e = false →
      D.breakdown (.strayTarget e))
    (scope : FrameId) (value : Value) : D.Steady (engine.bindHead scope head value) := by
  unfold bindHead
  split
  case h_3 e =>
    have := steady_resolve engine (Site.all_cons.mp h).1 (hshape e rfl) scope
    infer_instance
  all_goals infer_instance

theorem steady_executeInit {init : Option ForInit}
    (h : Site.All D.rule (init.toList.flatMap c.forInit)) (scope : FrameId) :
    D.Steady (engine.executeInit scope init) := by
  unfold executeInit
  split
  case h_1 kind declarators =>
    exact steady_executeDeclaration engine (Site.all_flatMap.mp h _ (.head _)) scope kind
  case h_2 e =>
    have he := (Site.all_cons.mp (Site.all_flatMap.mp h _ (.head _))).1
    have := steady_evaluate engine he scope
    infer_instance
  case h_3 => infer_instance

/-! ## Heads of loops -/

theorem steady_loopTest {test : Option Expression}
    (h : Site.All D.rule (test.toList.map c.expression)) (scope : FrameId) :
    D.Steady (engine.loopTest scope test) := by
  unfold loopTest
  split
  case h_1 e =>
    have := steady_evaluate engine (Site.all_cons.mp h).1 scope
    infer_instance
  case h_2 => infer_instance

/-! ## Loops -/

section Loop

variable {labels : List String}

theorem allowsLoopExit_none : D.AllowsLoopExit c labels none := fun _ => nofun

/-- The body of a loop leaves what leads out of the loop, or what the loop takes out. -/
theorem runs_runLoop {σ : Type} {body : Statement} (h : (c.loop.statement body).Every D.rule)
    {enter : σ → Action (Option σ)} (henter : ∀ s, D.Steady (enter s)) (scope : FrameId)
    (start : σ) :
    D.Runs none (engine.runLoop labels scope body start enter) fun _ after =>
      D.AllowsLoopExit c labels after := by
  refine runs_runRounds allowsLoopExit_none henter ?_ engine.fuel start .undefined
  refine (runs_execute engine h scope).mono fun value left hleft rest hstop haimed x hx => ?_
  -- What is left by the body of a loop may lead to the loop, but then the loop takes it out.
  obtain ⟨hmem, hnot⟩ := AfterRound.not_aimedAtLoop_of_stop hstop x hx
  exact ⟨(hleft haimed x hmem).1.of_loop hnot, hnot⟩

theorem runs_executeLoop {loop : Statement} (h : (c.statement loop).Every D.rule)
    (hloop : loop.isLoop = true) (scope : FrameId) :
    D.Runs none (engine.executeLoop labels scope loop) fun _ after =>
      D.AllowsLoopExit c labels after := by
  unfold executeLoop
  refine .next fun scope => ?_
  -- The heads are steady, so only the body can leave anything.
  cases loop with
  | «while» test body =>
    obtain ⟨htest, hbody⟩ := Site.all_cons.mp h.parts
    have : D.Steady (engine.loopTest scope (some test)) :=
      steady_loopTest engine (Site.all_singleton.mpr htest) scope
    exact runs_runLoop engine (Site.all_cons.mp hbody).1 (fun _ => inferInstance) scope _
  | doWhile body test =>
    obtain ⟨htest, hbody⟩ := Site.all_cons.mp h.parts
    have : D.Steady (engine.loopTest scope (some test)) :=
      steady_loopTest engine (Site.all_singleton.mpr htest) scope
    exact runs_runLoop engine (Site.all_cons.mp hbody).1 (fun _ => inferInstance) scope _
  | «for» init test update body =>
    obtain ⟨hhead, hbody⟩ := Site.all_append.mp h.parts
    obtain ⟨hhead, hupdate⟩ := Site.all_append.mp hhead
    obtain ⟨hinit, htest⟩ := Site.all_append.mp hhead
    have := steady_loopTest engine htest scope
    have := steady_executeInit engine hinit scope
    refine .next fun _ => ?_
    refine runs_runLoop engine (Site.all_cons.mp hbody).1 (fun started => ?_) scope _
    split
    · split
      · next e =>
        have := steady_evaluate engine (Site.all_cons.mp hupdate).1 scope
        infer_instance
      · infer_instance
    · infer_instance
  | forIn head object body =>
    obtain ⟨hhead, hparts⟩ := Site.all_append.mp h.parts
    obtain ⟨hobject, hbody⟩ := Site.all_cons.mp hparts
    have := steady_evaluate engine hobject scope
    have := steady_bindHead engine hhead
      (fun e he hshape => D.breaks h.here (he ▸ .forIn hshape)) scope
    refine .next fun v => .next fun keys => ?_
    exact runs_runLoop engine (Site.all_cons.mp hbody).1 (fun _ => inferInstance) scope _
  | forOf head iterable body =>
    obtain ⟨hhead, hparts⟩ := Site.all_append.mp h.parts
    obtain ⟨hiterable, hbody⟩ := Site.all_cons.mp hparts
    have := steady_evaluate engine hiterable scope
    have := steady_bindHead engine hhead
      (fun e he hshape => D.breaks h.here (he ▸ .forOf hshape)) scope
    -- An array is read anew in each round, anything else is listed before the first.
    refine .next fun source => .next fun array => ?_
    split
    · exact runs_runLoop engine (Site.all_cons.mp hbody).1 (fun _ => inferInstance) scope _
    · refine .next fun values => ?_
      exact runs_runLoop engine (Site.all_cons.mp hbody).1 (fun _ => inferInstance) scope _
  | _ => cases hloop

end Loop

end Loops

end Discipline

end EcmaEval

/-! # All statements -/

namespace EcmaEval.Discipline

open EcmaEval.Action Engine

variable {D : Discipline} {c : Surroundings}

section

variable (engine : Engine) [hengine : engine.Obeys D]

/-! ## Try statements -/

theorem runs_executeHandler {handler : CatchClause} (h : Site.All D.rule (c.handler handler))
    (scope : FrameId) (thrown : Value) :
    D.Runs none (engine.executeHandler scope handler thrown) fun _ after =>
      D.AllowsSignal c after := by
  have hbody := Site.all_map.mp (Site.all_append.mp h).2
  unfold executeHandler
  refine .next fun scope => ?_
  split
  · exact .next fun _ => runs_executeBlock engine hbody scope
  · exact .next fun _ => runs_executeBlock engine hbody scope
  · exact runs_executeBlock engine hbody scope

theorem runs_executeGuarded {body : List Statement} {handler : Option CatchClause}
    (hbody : ∀ s ∈ body, (c.statement s).Every D.rule)
    (hhandler : Site.All D.rule (handler.toList.flatMap c.handler)) (scope : FrameId) :
    D.Runs none (engine.executeGuarded scope body handler) fun _ after =>
      D.AllowsSignal c after := by
  unfold executeGuarded
  split
  case h_1 => exact runs_executeBlock engine hbody scope
  case h_2 handler =>
    have hhandler := Site.all_flatMap.mp hhandler handler (.head _)
    refine (runs_attempt (runs_executeBlock engine hbody scope)).bind ?_
    -- The body has ended with a value, or has thrown one and left nothing.
    rintro result after (⟨v, rfl, hafter⟩ | rfl)
    · exact .pure hafter
    · split
      · exact .pure allowsSignal_none
      · exact runs_executeHandler engine hhandler scope _

/-- What the final part leaves takes the place of what the parts before it left. -/
theorem runs_executeTry {body : List Statement} {handler : Option CatchClause}
    {finalizer : Option (List Statement)}
    (h : (c.statement (.try body handler finalizer)).Every D.rule) (scope : FrameId) :
    D.Runs none (engine.executeTry scope body handler finalizer) fun _ after =>
      D.AllowsSignal c after := by
  obtain ⟨hguarded, hfinalizer⟩ := Site.all_append.mp h.parts
  obtain ⟨hbody, hhandler⟩ := Site.all_append.mp hguarded
  have hrun := runs_executeGuarded engine (Site.all_map.mp hbody) hhandler scope
  unfold executeTry
  split
  case h_1 => exact hrun
  case h_2 finalizer =>
    -- What is pending before the final part runs.
    have hleft : D.Runs none (attempt (engine.executeGuarded scope body handler))
        fun _ after => D.AllowsSignal c after := by
      refine (runs_attempt hrun).mono ?_
      rintro result after (⟨v, -, hafter⟩ | rfl)
      · exact hafter
      · exact allowsSignal_none
    refine hleft.bind fun _ left hleft => runs_takeSignal.bind ?_
    rintro pending _ ⟨rfl, rfl⟩
    refine (runs_executeBlock engine (Site.all_map.mp hfinalizer) scope).bind
      fun value after hafter => (runs_reinstate pending).bind ?_
    rintro _ _ rfl
    refine .pure fun haimed x hx => ?_
    -- A signal of the final part replaces the pending one.
    rcases Option.or_eq_some_iff.mp hx with hx | ⟨-, hx⟩
    · exact hafter haimed x hx
    · exact hleft haimed x hx

/-! ## Switches -/

theorem keeps_matchingCases {cases : List SwitchCase}
    (h : ∀ k ∈ cases, Site.All D.rule (c.switchCase k)) (scope : FrameId) (discriminant : Value) :
    D.Keeps (engine.matchingCases scope discriminant cases) fun found =>
      ∀ selected ∈ found, selected ⊆ cases := by
  -- Induction on the cases that are left to test.
  induction cases with
  | nil => exact .pure nofun
  | cons k rest ih =>
    obtain ⟨hk, hrest⟩ := List.forall_mem_cons.mp h
    have ih : D.Keeps (engine.matchingCases scope discriminant rest) fun found =>
        ∀ selected ∈ found, selected ⊆ k :: rest :=
      (ih hrest).mono fun found hfound selected hselected =>
        List.Subset.trans (hfound selected hselected) (List.subset_cons_self _ _)
    unfold matchingCases
    split
    case h_1 => exact ih
    case h_2 test htest =>
      have := steady_evaluate engine
        (Site.all_map.mp (Site.all_append.mp hk).1 test (by simp [htest])) scope
      refine .next fun v => ?_
      split
      · refine .pure fun selected hselected => ?_
        cases hselected
        exact List.Subset.refl _
      · exact ih

theorem runs_executeCases {cases : List SwitchCase}
    (h : ∀ k ∈ cases, Site.All D.rule (c.switchCase k)) (scope : FrameId) (last : Value) :
    D.Runs none (engine.executeCases scope last cases) fun _ after => D.AllowsSignal c after := by
  -- Induction on the cases that are left; execution falls through until something is asked for.
  induction cases generalizing last with
  | nil => exact .pure allowsSignal_none
  | cons k rest ih =>
    obtain ⟨hk, hrest⟩ := List.forall_mem_cons.mp h
    unfold executeCases
    refine (runs_executeList engine (Site.all_map.mp (Site.all_append.mp hk).2) scope).bind
      fun value after hafter => runs_isSignaled.bind ?_
    rintro _ after ⟨rfl, rfl⟩
    cases after with
    | none => exact ih hrest value
    | some x => exact .pure hafter

/-- What is no break without a label leads out of what surrounds the switch. -/
theorem within_of_switch {x : Signal} (h : x.Within c.switch) (hx : x ≠ .break none) :
    x.Within c := by
  cases x with
  | «break» label =>
    cases label with
    | none => exact absurd rfl hx
    | some label => exact h
  | «continue» label => cases label <;> exact h
  | «return» v => exact h
  | suspend v => exact h

theorem runs_executeSwitch {discriminant : Expression} {cases : List SwitchCase}
    (h : (c.statement (.switch discriminant cases)).Every D.rule) (scope : FrameId) :
    D.Runs none (engine.executeSwitch scope discriminant cases) fun _ after =>
      D.AllowsExit c (.switch discriminant cases) after := by
  obtain ⟨hdiscriminant, hcases⟩ := Site.all_cons.mp h.parts
  have hcases := Site.all_flatMap.mp hcases
  have := steady_evaluate engine hdiscriminant scope
  unfold executeSwitch
  refine .next fun v => .next fun scope => ?_
  have : D.Steady (cases.forM fun k => hoist scope k.body) :=
    .forM_mem fun k hk => steady_hoist (Site.all_map.mp (Site.all_append.mp (hcases k hk)).2) scope
  refine .next fun _ => (keeps_matchingCases engine hcases scope v).andThen fun found hfound => ?_
  -- Without a match, execution begins at the default case, if there is one.
  have hselected : found.getD (cases.dropWhile fun k => k.test.isSome) ⊆ cases := by
    cases found with
    | none => exact (List.dropWhile_sublist _).subset
    | some selected => exact hfound selected rfl
  refine (runs_executeCases engine (fun k hk => hcases k (hselected hk)) scope .undefined).bind
    fun value after hafter => (runs_absorb Signal.isBreak).bind ?_
  rintro _ _ rfl
  refine .pure fun haimed x hx => ?_
  obtain ⟨hx, hnot⟩ := Option.filter_eq_some_iff.mp hx
  have hbreak : x ≠ .break none := by
    rintro rfl
    simp [Signal.isBreak] at hnot
  exact ⟨within_of_switch (hafter haimed x hx) hbreak, hbreak⟩

/-! ## Labels -/

/-- The body of some labels leaves what leads out of them, once the breaks to them are taken out.
Only a loop right behind a label can be continued by that label, and it takes the jump out
itself. -/
theorem within_of_labels {labels : List String} {own : List (String × Bool)} {onLoop : Bool}
    (hown : ∀ l ∈ own, l.1 ∈ labels ∧ (l.2 = true → onLoop = true)) {x : Signal}
    (h : x.Within { c with labels := own ++ c.labels }) (hbreak : x.breaksTo labels = false)
    (hloop : onLoop = true → ¬ x.AimedAtLoop labels) : x.Within c := by
  cases x with
  | «return» v => exact h
  | «break» label =>
    cases label with
    | none => exact h
    | some label =>
      obtain ⟨flag, hmem⟩ := h
      -- A break to one of these labels has been taken out.
      rcases List.mem_append.mp hmem with hmem | hmem
      · simp [Signal.breaksTo, (hown _ hmem).1] at hbreak
      · exact ⟨flag, hmem⟩
  | «continue» label =>
    cases label with
    | none => exact h
    | some label =>
      -- A label that can be continued is on the loop itself, which takes the jump out.
      rcases List.mem_append.mp h with hmem | hmem
      · exact (hloop ((hown _ hmem).2 rfl) (hown _ hmem).1).elim
      · exact hmem
  | suspend v => exact h

/-- A loop takes out all that is aimed at it, whatever its labels. -/
theorem aimedAtLoop_of_absorbs {s : Statement} (hs : s.isLoop = true) {x : Signal}
    (hx : s.Absorbs x) (labels : List String) : x.AimedAtLoop labels := by
  cases s <;> cases hs <;> rcases hx with rfl | rfl <;> trivial

/-- The breaks to some labels are taken out behind their body. -/
theorem runs_absorbLabels {labels : List String} {own : List (String × Bool)} {s : Statement}
    (hown : ∀ l ∈ own, l.1 ∈ labels ∧ (l.2 = true → s.isLoop = true)) {run : Action Value}
    (hrun : D.Runs none run fun _ left => D.aimed → ∀ x ∈ left,
      x.Within { c with labels := own ++ c.labels } ∧ ¬ s.Absorbs x ∧
        (s.isLoop = true → ¬ x.AimedAtLoop labels)) :
    D.Runs none (run >>= fun value => absorb (Signal.breaksTo labels) >>= fun _ => pure value)
      fun _ after => D.AllowsExit c s after := by
  refine hrun.bind fun value left hleft => (runs_absorb (Signal.breaksTo labels)).bind ?_
  rintro _ _ rfl
  refine .pure fun haimed x hx => ?_
  obtain ⟨hx, hbreak⟩ := Option.filter_eq_some_iff.mp hx
  obtain ⟨hwithin, habsorbs, hloop⟩ := hleft haimed x hx
  exact ⟨within_of_labels hown hwithin (by simpa using hbreak) hloop, habsorbs⟩

/-- A statement behind the labels `labels`, which stand around it as `own`. -/
theorem runs_executeLabeled {labels : List String} (own : List (String × Bool)) {s : Statement}
    (hown : ∀ l ∈ own, l.1 ∈ labels ∧ (l.2 = true → s.isLoop = true))
    (h : (Surroundings.statement { c with labels := own ++ c.labels } s).Every D.rule)
    (scope : FrameId) :
    D.Runs none (engine.executeLabeled scope labels s) fun _ after => D.AllowsExit c s after := by
  fun_induction executeLabeled generalizing own with
  | case1 labels label body ih =>
    -- The new label stands directly before the body, with the labels that are before it.
    have hbody : ∀ l ∈ (label, body.isLoop) :: own,
        l.1 ∈ labels ++ [label] ∧ (l.2 = true → body.isLoop = true) := by
      refine List.forall_mem_cons.mpr ⟨⟨by simp, id⟩, fun l hl => ?_⟩
      exact ⟨List.mem_append_left _ (hown l hl).1, fun hloop => nomatch (hown l hl).2 hloop⟩
    refine (ih _ hbody (Site.all_cons.mp h.parts).1).mono fun value after hafter haimed x hx => ?_
    obtain ⟨hwithin, habsorbs⟩ := hafter haimed x hx
    have hfresh : ∀ onLoop, (label, onLoop) ∉ own ++ c.labels := D.permitted haimed h.here
    refine ⟨hwithin, ?_⟩
    -- A jump to the label would lead out of it, but no other label around has its name.
    rintro (rfl | rfl | hbody)
    · obtain ⟨onLoop, hmem⟩ := hwithin
      exact hfresh onLoop (List.mem_append_right _ hmem)
    · exact hfresh true (List.mem_append_right _ hwithin)
    · exact habsorbs hbody
  | case2 labels s hlabeled _ hloop =>
    refine runs_absorbLabels hown ((runs_executeLoop engine h hloop scope).mono ?_)
    intro value left hleft haimed x hx
    obtain ⟨hwithin, haimedAt⟩ := hleft haimed x hx
    exact ⟨hwithin, fun habsorbs => haimedAt (aimedAtLoop_of_absorbs hloop habsorbs labels),
      fun _ => haimedAt⟩
  | case3 labels s hlabeled _ hloop =>
    refine runs_absorbLabels hown ((runs_execute engine h scope).mono ?_)
    intro value left hleft haimed x hx
    obtain ⟨hwithin, habsorbs⟩ := hleft haimed x hx
    exact ⟨hwithin, habsorbs, fun h => absurd h hloop⟩

/-! ## Statements -/

theorem runs_leave {s : Statement} (x : Signal) (hx : D.aimed → x.Within c)
    (hs : ¬ s.Absorbs x) : D.Runs none (leave x) fun _ after => D.AllowsExit c s after := by
  unfold leave
  refine (runs_raise x).bind ?_
  rintro _ _ rfl
  refine .pure fun haimed y hy => ?_
  cases hy
  exact ⟨hx haimed, hs⟩

/-- A steady action leaves nothing. -/
theorem runs_of_steady {s : Statement} {a : Action Value} [ha : D.Steady a] :
    D.Runs none a fun _ after => D.AllowsExit c s after :=
  Runs.mono ha.keeps fun _ _ h => h.1 ▸ allowsExit_none

/-- A statement leaves what something around it takes out. -/
theorem runs_executeStatement {s : Statement} (h : (c.statement s).Every D.rule)
    (scope : FrameId) :
    D.Runs none (engine.executeStatement scope s) fun _ after => D.AllowsExit c s after := by
  unfold executeStatement
  cases s with
  -- These run no part of theirs that could ask for anything.
  | empty | debugger | function | «with» => exact runs_of_steady
  | expression e =>
    have := steady_evaluate engine (Site.all_cons.mp h.parts).1 scope
    exact runs_of_steady
  | throw e =>
    have := steady_evaluate engine (Site.all_cons.mp h.parts).1 scope
    exact runs_of_steady
  | block body =>
    exact (runs_executeBlock engine (Site.all_map.mp h.parts) scope).mono
      fun _ _ hafter => hafter.allowsExit fun _ => id
  | declaration kind declarators =>
    have := steady_executeDeclaration engine h.parts scope kind
    exact runs_of_steady
  | «if» test consequent alternate =>
    obtain ⟨htest, hbranches⟩ := Site.all_cons.mp h.parts
    obtain ⟨hconsequent, halternate⟩ := Site.all_cons.mp hbranches
    have := steady_evaluate engine htest scope
    refine .next fun v => ?_
    split
    · exact (runs_execute engine hconsequent scope).mono
        fun _ _ hafter => hafter.allowsSignal.allowsExit fun _ => id
    · split
      · exact (runs_execute engine (Site.all_cons.mp halternate).1 scope).mono
          fun _ _ hafter => hafter.allowsSignal.allowsExit fun _ => id
      · exact runs_of_steady
  | «while» | doWhile | «for» | forIn | forOf =>
    refine (runs_executeLoop engine h rfl scope).mono fun _ _ hafter haimed x hx => ?_
    obtain ⟨hwithin, haimedAt⟩ := hafter haimed x hx
    exact ⟨hwithin, fun habsorbs => haimedAt (aimedAtLoop_of_absorbs rfl habsorbs [])⟩
  | «return» value =>
    have hleave (v : Value) := runs_leave (D := D) (c := c) (s := .return value) (.return v)
      (fun haimed => D.permitted haimed h.here) id
    cases value with
    | none => exact hleave _
    | some e =>
      have := steady_evaluate engine (Site.all_cons.mp h.parts).1 scope
      exact .next fun v => hleave v
  | «break» label =>
    cases label <;> exact runs_leave _ (fun haimed => D.permitted haimed h.here) id
  | «continue» label =>
    cases label <;> exact runs_leave _ (fun haimed => D.permitted haimed h.here) id
  | «try» body handler finalizer =>
    exact (runs_executeTry engine h scope).mono fun _ _ hafter => hafter.allowsExit fun _ => id
  | switch discriminant cases => exact runs_executeSwitch engine h scope
  | labeled label body => exact runs_executeLabeled engine [] nofun h scope
  | «class» node =>
    have := steady_makeClass engine (Site.all_cons.mp h.parts).1 (node.name.getD "") scope
    exact runs_of_steady

/-- A program takes out what its statements leave. -/
theorem steady_executeProgram {options : ParseOptions} {p : Program}
    (h : p.Every options D.rule) (scope : FrameId) :
    D.Steady (engine.executeProgram scope p) := by
  refine ⟨(runs_executeBody engine (Site.all_map.mp h) scope).bind fun value after _ => ?_⟩
  refine runs_takeSignal.bind ?_
  rintro _ _ ⟨rfl, rfl⟩
  split <;> exact .pure ⟨rfl, trivial⟩

end

end EcmaEval.Discipline
