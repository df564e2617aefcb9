import EcmaEval.Proofs.Conduct.Names

/-!
# Finalizers

A try statement may end with a final part, its finalizer.  Where such statements stand around each
other, with a statement inside all of them, each one that is entered runs its finalizer once, and
the innermost one comes first, however the statement in the middle ends.

A run with a place in it, where a statement stands among others, comes to that place at most once.
What is behind the place depends on nothing but how the statement there ends.  So the runs of the
finalizers are found by induction on the statements around the inner one, from the outermost inwards.

## Main definitions

* `FinallyLayer`: a try statement with a finalizer around a statement
* `FinallyRun.Leaves`: how a try statement ends, by its guarded parts and its finalizer
* `Engine.ComesOnce`: a run comes to a place at most once
* `Engine.Unwinds`: the finalizers that run around a statement

## Main results

* `Engine.executeTry_leaves`: the finalizer has the last word
* `Engine.exists_unwinds`: the finalizers around a statement that keeps to a discipline
* `Machine.Asked.finalizers_run`: the finalizers around a statement in a session
-/

namespace EcmaEval

open EcmaEval.Action Discipline

/-! ## Try statements around a statement -/

/-- A try statement with a finalizer around a statement, which stands in its body or in the body of
its handler. -/
inductive FinallyLayer where
  | inBody (before after : List Statement) (handler : Option CatchClause)
      (finalizer : List Statement)
  | inHandler (body : List Statement) (param : Option Pattern) (before after : List Statement)
      (finalizer : List Statement)

namespace FinallyLayer

def finalizer : FinallyLayer → List Statement
  | inBody _ _ _ finalizer | inHandler _ _ _ _ finalizer => finalizer

/-- The body of the try statement around an inner statement. -/
def body (inner : Statement) : FinallyLayer → List Statement
  | inBody before after _ _ => before ++ inner :: after
  | inHandler body _ _ _ _ => body

/-- The handler of the try statement around an inner statement. -/
def handler (inner : Statement) : FinallyLayer → Option CatchClause
  | inBody _ _ handler _ => handler
  | inHandler _ param before after _ => some ⟨param, before ++ inner :: after⟩

/-- The try statement around an inner statement. -/
def around (inner : Statement) (layer : FinallyLayer) : Statement :=
  .try (layer.body inner) (layer.handler inner) (some layer.finalizer)

end FinallyLayer

/-- The statement inside of try statements, the outermost one first. -/
def Statement.inside (s : Statement) : List FinallyLayer → Statement
  | [] => s
  | layer :: layers => layer.around (s.inside layers)

/-! ## How try statements end -/

/-- The machine with nothing asked for. -/
def Machine.silenced (m : Machine) : Machine := { m with signal := none }

/-- How the run of a statement ends. -/
abbrev Ending := EStateM.Result Abrupt Machine Value

namespace Ending

/-- The machine that the run leaves. -/
def machine : Ending → Machine
  | .ok _ m | .error _ m => m

/-- The whole run does not end with it. -/
def Survives (ending : Ending) : Prop := ∀ e m, ending = .error e m → ¬ e.Fatal

/-- What was asked for before is asked for again, unless something else is. -/
def reinstating (pending : Option Signal) : Ending → Ending
  | .ok v m => .ok v { m with signal := m.signal.or pending }
  | .error e m => .error e m

theorem reinstating_apply (a : Action Value) (pending : Option Signal) (m : Machine) :
    (a >>= fun v => reinstate pending >>= fun _ => pure v) m = reinstating pending (a m) := by
  rw [bind_apply]
  cases a m <;> rfl

theorem survives_cases {ending : Ending} (h : ending.Survives) :
    (∃ v m, ending = .ok v m) ∨ ∃ v m, ending = .error (.thrown v) m := by
  cases ending with
  | ok v m => exact .inl ⟨v, m, rfl⟩
  | error e m =>
    cases e with
    | thrown v => exact .inr ⟨v, m, rfl⟩
    | broken | exhausted => exact absurd trivial (h _ _ rfl)

end Ending

/-- The run of a finalizer. -/
structure FinallyRun where
  finalizer : List Statement
  /-- How the parts before it ended. -/
  guarded : Ending
  /-- How it ended itself. -/
  finished : Ending

namespace FinallyRun

/-- How a try statement ends: as its finalizer does, with what was asked for before unless the
finalizer asks for something itself.  What was thrown before is gone. -/
inductive Leaves (run : FinallyRun) : Ending → Prop where
  | kept {v w : Value} {m m' : Machine} (hguarded : run.guarded = .ok v m)
    (hfinished : run.finished = .ok w m') (hsignal : m'.signal = none) :
    Leaves run (.ok w { m' with signal := m.signal })
  | dropped {v w : Value} {m m' : Machine} (hguarded : run.guarded = .error (.thrown v) m)
    (hfinished : run.finished = .ok w m') (hsignal : m'.signal = none) : Leaves run (.ok w m')
  | replaced {w : Value} {m' : Machine} {x : Signal} (hfinished : run.finished = .ok w m')
    (hsignal : m'.signal = some x) : Leaves run (.ok w m')
  | threw {v : Value} {m' : Machine} (hfinished : run.finished = .error (.thrown v) m')
    (hsignal : m'.signal = none) : Leaves run (.error (.thrown v) m')

variable {run : FinallyRun}

theorem leaves_reinstating (hguarded : run.guarded.Survives)
    (hthrown : ∀ e m, run.guarded = .error e m → m.signal = none)
    (hfinished : ∀ e m, run.finished = .error e m → m.signal = none)
    (hsurvives : (run.finished.reinstating run.guarded.machine.signal).Survives) :
    run.Leaves (run.finished.reinstating run.guarded.machine.signal) := by
  cases heq : run.finished with
  | error e m' =>
    rw [heq] at hsurvives
    obtain ⟨v, n, h⟩ | ⟨v, n, h⟩ := Ending.survives_cases hsurvives
    · cases h
    · cases h
      exact .threw heq (hfinished _ _ heq)
  | ok w m' =>
    change run.Leaves (.ok w { m' with signal := m'.signal.or run.guarded.machine.signal })
    cases hsignal : m'.signal with
    | some x =>
      have hsame : { m' with signal := some x } = m' := hsignal ▸ rfl
      rw [Option.some_or, hsame]
      exact .replaced heq hsignal
    | none =>
      rw [Option.none_or]
      obtain ⟨v, m, h⟩ | ⟨v, m, h⟩ := Ending.survives_cases hguarded
      · rw [h]
        exact .kept h heq hsignal
      · have hsame : { m' with signal := m.signal } = m' := by
          rw [hthrown _ _ h, ← hsignal]
        rw [h]
        change run.Leaves (.ok w { m' with signal := m.signal })
        rw [hsame]
        exact .dropped h heq hsignal

end FinallyRun

namespace Engine

/-- The run of a finalizer in a frame, behind parts that have ended.  What these ask for is kept
aside meanwhile. -/
def finalizing (engine : Engine) (scope : FrameId) (finalizer : List Statement)
    (guarded : Ending) : FinallyRun where
  finalizer := finalizer
  guarded := guarded
  finished := engine.executeBlock scope finalizer guarded.machine.silenced

variable {D : Discipline} {c : Surroundings} {engine : Engine} {scope : FrameId} {m : Machine}

section Try

variable {body finalizer : List Statement} {handler : Option CatchClause}

theorem executeTry_of_survives
    (h : Ending.Survives (engine.executeGuarded scope body handler m)) :
    engine.executeTry scope body handler (some finalizer) m =
      let run := engine.finalizing scope finalizer (engine.executeGuarded scope body handler m)
      run.finished.reinstating run.guarded.machine.signal := by
  unfold executeTry
  dsimp only
  rw [bind_apply]
  unfold Action.attempt
  obtain ⟨v, m', heq⟩ | ⟨v, m', heq⟩ := Ending.survives_cases h
  · rw [heq]
    exact Ending.reinstating_apply _ m'.signal m'.silenced
  · rw [heq]
    exact Ending.reinstating_apply _ m'.signal m'.silenced

/-- What ends the whole run passes. -/
theorem survives_guarded (engine : Engine)
    (h : Ending.Survives (engine.executeTry scope body handler (some finalizer) m)) :
    Ending.Survives (engine.executeGuarded scope body handler m) := by
  intro e m' heq hfatal
  refine h e m' ?_ hfatal
  simp only [executeTry, bind_apply, Action.attempt, heq]
  cases e with
  | thrown => exact hfatal.elim
  | broken | exhausted => rfl

/-- **The finalizer has the last word.**  It runs behind the body and the handler, and the try
statement ends as all of them leave it. -/
theorem executeTry_leaves (engine : Engine) [engine.Obeys D]
    (h : (c.statement (.try body handler (some finalizer))).Every D.rule) (hm : D.Holds m)
    (hsignal : m.signal = none)
    (hsurvives : Ending.Survives (engine.executeTry scope body handler (some finalizer) m)) :
    (engine.finalizing scope finalizer (engine.executeGuarded scope body handler m)).Leaves
      (engine.executeTry scope body handler (some finalizer) m) := by
  obtain ⟨hguarded, hfinalizer⟩ := Site.all_append.mp h.parts
  obtain ⟨hbody, hhandler⟩ := Site.all_append.mp hguarded
  have hends := runs_executeGuarded engine (Site.all_map.mp hbody) hhandler scope m hm hsignal
  have hpassed := survives_guarded engine hsurvives
  rw [executeTry_of_survives hpassed] at hsurvives ⊢
  generalize engine.executeGuarded scope body handler m = guarded at hends hpassed hsurvives ⊢
  -- The finalizer runs from a machine where nothing is asked for.
  have hholds : D.Holds (Ending.machine guarded).silenced := by
    cases hends with
    | ok hm' _ _ => exact ⟨hm'.callable, hm'.superCall⟩
    | error hm' _ _ _ => exact ⟨hm'.callable, hm'.superCall⟩
  have hfinal := runs_executeBlock engine (Site.all_map.mp hfinalizer) scope _ hholds rfl
  refine FinallyRun.leaves_reinstating hpassed ?_ ?_ hsurvives
  · rintro e m' rfl
    cases hends with
    | error _ _ hsignal _ => exact hsignal
  · intro e m' heq
    change D.Ends _ _ (engine.finalizing scope finalizer guarded).finished at hfinal
    rw [heq] at hfinal
    cases hfinal with
    | error _ _ hsignal _ => exact hsignal

end Try

/-! ## Runs that come to a place -/

/-- A run with a place in it, from a machine: it does not come to that place, or it comes there once,
and then does something that depends only on how what stands there ends. -/
inductive ComesOnce (D : Discipline) {α : Type} (run : (FrameId → Action Value) → Action α)
    (m : Machine) : Prop where
  | never (ending : EStateM.Result Abrupt Machine α) (h : ∀ place, run place m = ending) :
    ComesOnce D run m
  | once (scope : FrameId) (m' : Machine) (rest : Ending → EStateM.Result Abrupt Machine α)
    (hm' : D.Holds m') (hsignal : m'.signal = none)
    (hfatal : ∀ e n, e.Fatal → rest (.error e n) = .error e n)
    (h : ∀ place, run place m = rest (place scope m')) : ComesOnce D run m

namespace ComesOnce

variable {α β : Type} {run : (FrameId → Action Value) → Action α}

theorem place (scope : FrameId) (hm : D.Holds m) (hsignal : m.signal = none) :
    ComesOnce D (fun place => place scope) m :=
  .once scope m id hm hsignal (fun _ _ _ => rfl) fun _ => rfl

theorem bind (h : ComesOnce D run m) (f : α → Action β) :
    ComesOnce D (fun place => run place >>= f) m := by
  -- What is behind depends on the ending alone.
  let next (ending : EStateM.Result Abrupt Machine α) : EStateM.Result Abrupt Machine β :=
    ((fun _ => ending : Action α) >>= f) m
  have hnext (place : FrameId → Action Value) : (run place >>= f) m = next (run place m) := rfl
  cases h with
  | never ending h =>
    exact .never (next ending) fun place => (hnext place).trans (congrArg next (h place))
  | once scope m' rest hm' hsignal hfatal h =>
    exact .once scope m' (next ∘ rest) hm' hsignal (fun e n he => congrArg next (hfatal e n he))
      fun place => (hnext place).trans (congrArg next (h place))

theorem attempt (h : ComesOnce D run m) : ComesOnce D (fun place => Action.attempt (run place)) m := by
  let next (ending : EStateM.Result Abrupt Machine α) :
      EStateM.Result Abrupt Machine (Except Value α) :=
    Action.attempt (fun _ => ending) m
  have hnext (place : FrameId → Action Value) :
      Action.attempt (run place) m = next (run place m) := rfl
  cases h with
  | never ending h =>
    exact .never (next ending) fun place => (hnext place).trans (congrArg next (h place))
  | once scope m' rest hm' hsignal hfatal h =>
    refine .once scope m' (next ∘ rest) hm' hsignal (fun e n he => (congrArg next (hfatal e n he)).trans ?_)
      fun place => (hnext place).trans (congrArg next (h place))
    cases e with
    | thrown => exact he.elim
    | broken | exhausted => rfl

/-- Behind an action that does not come to the place. -/
theorem next {run : β → (FrameId → Action Value) → Action α} {a : Action β}
    {P : β → Option Signal → Prop} (ha : D.Runs none a P) (hm : D.Holds m)
    (hsignal : m.signal = none)
    (hrun : ∀ x m', D.Holds m' → P x m'.signal → ComesOnce D (run x) m') :
    ComesOnce D (fun place => a >>= fun x => run x place) m := by
  have hends := ha m hm hsignal
  cases heq : a m with
  | error e m' => exact .never _ fun place => by rw [bind_apply, heq]
  | ok x m' =>
    rw [heq] at hends
    cases hends with
    | ok hm' _ hx =>
      have hsame (place : FrameId → Action Value) :
          (a >>= fun x => run x place) m = run x place m' := by rw [bind_apply, heq]
      cases hrun x m' hm' hx with
      | never ending h => exact .never ending fun place => (hsame place).trans (h place)
      | once scope m'' rest hm'' hsignal hfatal h =>
        exact .once scope m'' rest hm'' hsignal hfatal fun place => (hsame place).trans (h place)

end ComesOnce

/-! ## Try statements with a place -/

/-- Executes the statements of a list around one of them, which an action runs. -/
def executeAround (engine : Engine) (scope : FrameId) (inner : Statement) (after : List Statement)
    (place : Action Value) (last : Value) : List Statement → Action Value
  | [] => do
    let value ← place
    let last := if inner.producesValue then value else last
    if ← isSignaled then return last
    engine.executeFrom scope last after
  | statement :: before => do
    let value ← engine.execute scope statement
    let last := if statement.producesValue then value else last
    if ← isSignaled then return last
    executeAround engine scope inner after place last before

theorem executeAround_execute (before : List Statement) (inner : Statement)
    (after : List Statement) (last : Value) :
    engine.executeAround scope inner after (engine.execute scope inner) last before =
      engine.executeFrom scope last (before ++ inner :: after) := by
  induction before generalizing last with
  | nil => rfl
  | cons statement before ih =>
    simp only [executeAround, List.cons_append, executeFrom, ih]

/-- Executes a block around one of its statements. -/
def blockAround (engine : Engine) (scope : FrameId) (before : List Statement) (inner : Statement)
    (after : List Statement) (place : FrameId → Action Value) : Action Value := do
  let scope ← addBlock scope
  hoist scope (before ++ inner :: after)
  engine.executeAround scope inner after (place scope) .undefined before

/-- Executes the body and the handler of a try statement around an inner statement. -/
def guardedAround (engine : Engine) (scope : FrameId) (inner : Statement) (layer : FinallyLayer)
    (place : FrameId → Action Value) : Action Value :=
  match layer with
  | .inBody before after none _ => engine.blockAround scope before inner after place
  | .inBody before after (some handler) _ => do
    match ← attempt (engine.blockAround scope before inner after place) with
    | .ok v => return v
    | .error thrown => engine.executeHandler scope handler thrown
  | .inHandler body param before after _ => do
    match ← attempt (engine.executeBlock scope body) with
    | .ok v => return v
    | .error thrown =>
      let scope ← addBlock scope
      match param with
      | some (.identifier name) => modifyFrame scope (·.declareVariable name thrown)
      | some target => breakDown (.unsupported target.kindName)
      | none => pure ()
      engine.blockAround scope before inner after place

theorem blockAround_execute (before : List Statement) (inner : Statement)
    (after : List Statement) :
    engine.blockAround scope before inner after (engine.execute · inner) =
      engine.executeBlock scope (before ++ inner :: after) := by
  simp only [blockAround, executeAround_execute]
  rfl

theorem guardedAround_execute (inner : Statement) (layer : FinallyLayer) :
    engine.guardedAround scope inner layer (engine.execute · inner) =
      engine.executeGuarded scope (layer.body inner) (layer.handler inner) := by
  cases layer with
  | inBody before after handler finalizer =>
    cases handler <;> simp only [guardedAround, blockAround_execute] <;> rfl
  | inHandler body param before after finalizer =>
    simp only [guardedAround, blockAround_execute]
    rfl

section Comes

variable (engine) [hengine : engine.Obeys D] (scope) {inner : Statement} {before after : List Statement}
  (hm : D.Holds m) (hsignal : m.signal = none)

include hengine hm hsignal

theorem comesOnce_executeAround (h : ∀ s ∈ before, (c.statement s).Every D.rule) (last : Value) :
    ComesOnce D (fun place => engine.executeAround scope inner after (place scope) last before)
      m := by
  -- Induction on the statements before the place, any of which may end the list.
  induction before generalizing last m with
  | nil => exact (ComesOnce.place scope hm hsignal).bind _
  | cons statement before ih =>
    obtain ⟨hstatement, hbefore⟩ := List.forall_mem_cons.mp h
    unfold executeAround
    refine .next (runs_execute engine hstatement scope) hm hsignal fun value m' hm' _ => ?_
    cases hleft : m'.signal with
    | some x =>
      refine .never (.ok (if statement.producesValue then value else last) m') fun place => ?_
      have hsignaled : isSignaled m' = .ok true m' := by
        unfold isSignaled
        rw [hleft]
        rfl
      refine (bind_apply _ _ m').trans ?_
      rw [hsignaled]
      rfl
    | none =>
      refine .next runs_isSignaled hm' hleft fun signaled m'' hm'' hsignaled => ?_
      obtain ⟨rfl, hleft⟩ := hsignaled
      exact ih hm'' hleft hbefore _

theorem comesOnce_blockAround (h : ∀ s ∈ before ++ inner :: after, (c.statement s).Every D.rule) :
    ComesOnce D (engine.blockAround scope before inner after) m := by
  unfold blockAround
  have hblock : D.Steady (addBlock scope) := inferInstance
  refine .next hblock.keeps hm hsignal fun scope m₁ hm₁ hleft => ?_
  have hhoist : D.Steady (hoist scope (before ++ inner :: after)) := steady_hoist h scope
  refine .next hhoist.keeps hm₁ hleft.1 fun _ m₂ hm₂ hleft => ?_
  exact comesOnce_executeAround engine scope hm₂ hleft.1
    (fun s hs => h s (List.mem_append_left _ hs)) _

theorem comesOnce_guardedAround {layer : FinallyLayer}
    (h : (c.statement (layer.around inner)).Every D.rule) :
    ComesOnce D (engine.guardedAround scope inner layer) m := by
  obtain ⟨hguarded, -⟩ := Site.all_append.mp h.parts
  obtain ⟨hbody, hhandler⟩ := Site.all_append.mp hguarded
  cases layer with
  | inBody before after handler finalizer =>
    have hblock : ComesOnce D (engine.blockAround scope before inner after) m :=
      comesOnce_blockAround engine scope hm hsignal (Site.all_map.mp hbody)
    cases handler with
    | none => exact hblock
    | some handler => exact hblock.attempt.bind _
  | inHandler body param before after finalizer =>
    have hbefore := Site.all_map.mp
      (Site.all_append.mp (Site.all_flatMap.mp hhandler _ (.head _))).2
    unfold guardedAround
    refine .next (runs_attempt (runs_executeBlock engine (Site.all_map.mp hbody) scope)) hm hsignal
      fun result m₁ hm₁ hleft => ?_
    cases result with
    | ok v => exact .never _ fun _ => rfl
    | error thrown =>
      have hnone : m₁.signal = none := by
        rcases hleft with ⟨v, hv, -⟩ | hleft
        · cases hv
        · exact hleft
      have hblock (scope : FrameId) {m : Machine} (hm : D.Holds m) (hsignal : m.signal = none) :
          ComesOnce D (engine.blockAround scope before inner after) m :=
        comesOnce_blockAround engine scope hm hsignal hbefore
      have hframe : D.Steady (addBlock scope) := inferInstance
      refine .next hframe.keeps hm₁ hnone fun scope m₂ hm₂ hleft => ?_
      cases param with
      | none => exact hblock scope hm₂ hleft.1
      | some target =>
        cases target with
        | identifier name =>
          have hdeclare : D.Steady (modifyFrame scope (·.declareVariable name thrown)) :=
            inferInstance
          exact .next hdeclare.keeps hm₂ hleft.1 fun _ m₃ hm₃ hleft => hblock scope hm₃ hleft.1
        | _ => exact .never _ fun _ => rfl

end Comes

/-! ## Statements inside of try statements -/

/-- The runs of finalizers around a statement, in the order in which they end, and how the outermost
try statement ends.  A try statement that is entered runs what it guards, where it comes to the
statement inside once or never, and then its finalizer. -/
inductive Unwinds (s : Statement) :
    Nat → FrameId → Machine → List FinallyLayer → List FinallyRun → Ending → Prop where
  | core {k : Nat} {scope : FrameId} {m : Machine} :
    Unwinds s k scope m [] [] ((ofFuel k).execute scope s m)
  | entered {k : Nat} {scope scope' : FrameId} {m m' : Machine} {layer : FinallyLayer}
    {layers : List FinallyLayer} {runs : List FinallyRun} {rest : Ending → Ending}
    {ending after : Ending}
    (honce : ∀ place, (ofFuel k).guardedAround scope (s.inside layers) layer place m =
      rest (place scope' m'))
    (hinner : Unwinds s k scope' m' layers runs ending)
    (hleaves : ((ofFuel k).finalizing scope layer.finalizer (rest ending)).Leaves after) :
    Unwinds s (k + 1) scope m (layer :: layers)
      (runs ++ [(ofFuel k).finalizing scope layer.finalizer (rest ending)]) after
  | missed {k : Nat} {scope : FrameId} {m : Machine} {layer : FinallyLayer}
    {layers : List FinallyLayer} {ending after : Ending}
    (hnever : ∀ place, (ofFuel k).guardedAround scope (s.inside layers) layer place m = ending)
    (hleaves : ((ofFuel k).finalizing scope layer.finalizer ending).Leaves after) :
    Unwinds s (k + 1) scope m (layer :: layers)
      [(ofFuel k).finalizing scope layer.finalizer ending] after

namespace Unwinds

variable {s : Statement} {k : Nat} {layers : List FinallyLayer} {runs : List FinallyRun}
  {ending : Ending}

/-- Of the try statements that are entered each runs its finalizer once, the innermost one first. -/
theorem finalizers (h : Unwinds s k scope m layers runs ending) :
    runs.map FinallyRun.finalizer =
      ((layers.take runs.length).map FinallyLayer.finalizer).reverse := by
  induction h with
  | core => rfl
  | entered _ _ _ ih => simp [ih, finalizing]
  | missed => simp [finalizing]

/-- The outermost try statement is entered, and ends as it and its finalizer leave it. -/
theorem leaves_last (h : Unwinds s k scope m layers runs ending) (hlayers : layers ≠ []) :
    ∃ run, runs.getLast? = some run ∧ run.Leaves ending := by
  cases h with
  | core => exact absurd rfl hlayers
  | entered _ _ hleaves => exact ⟨_, List.getLast?_concat, hleaves⟩
  | missed _ hleaves => exact ⟨_, rfl, hleaves⟩

end Unwinds

/-- The statement inside is code of the try statement. -/
theorem FinallyLayer.every_inner {layer : FinallyLayer} {inner : Statement}
    (h : (c.statement (layer.around inner)).Every D.rule) : (c.statement inner).Every D.rule := by
  obtain ⟨hguarded, -⟩ := Site.all_append.mp h.parts
  obtain ⟨hbody, hhandler⟩ := Site.all_append.mp hguarded
  cases layer with
  | inBody => exact Site.all_map.mp hbody inner (List.mem_append_right _ (.head _))
  | inHandler =>
    have hlist := (Site.all_append.mp (Site.all_flatMap.mp hhandler _ (.head _))).2
    exact Site.all_map.mp hlist inner (List.mem_append_right _ (.head _))

/-- What is inside of try statements is run in this way. -/
theorem exists_unwinds {s : Statement} {k : Nat} {layers : List FinallyLayer}
    (h : (c.statement (s.inside layers)).Every D.rule) (hm : D.Holds m) (hsignal : m.signal = none)
    (hsurvives : Ending.Survives ((ofFuel k).execute scope (s.inside layers) m)) :
    ∃ runs, Unwinds s k scope m layers runs ((ofFuel k).execute scope (s.inside layers) m) := by
  -- Induction on the try statements, from the outermost one inwards.
  induction layers generalizing k scope m with
  | nil => exact ⟨[], .core⟩
  | cons layer layers ih =>
    cases k with
    | zero => exact absurd trivial (hsurvives _ _ rfl)
    | succ k =>
      have hguarded := survives_guarded (ofFuel k) hsurvives
      have hleaves := executeTry_leaves (ofFuel k) h hm hsignal hsurvives
      have hcomes := comesOnce_guardedAround (ofFuel k) scope hm hsignal h
      rw [← guardedAround_execute] at hguarded hleaves
      cases hcomes with
      | never ending hnever =>
        rw [hnever] at hleaves
        exact ⟨_, .missed hnever hleaves⟩
      | once scope' m' rest hm' hsignal' hfatal honce =>
        rw [honce] at hguarded hleaves
        -- What ends the whole run would not have been guarded.
        have hpassed : Ending.Survives ((ofFuel k).execute scope' (s.inside layers) m') := by
          intro e n heq he
          exact hguarded e n (heq ▸ hfatal e n he) he
        obtain ⟨runs, hruns⟩ := ih (FinallyLayer.every_inner h) hm' hsignal' hpassed
        exact ⟨_, .entered honce hruns hleaves⟩

end Engine

/-! ## Finalizers in a session -/

namespace Machine

variable {suites : Prop} {k : Nat} {scope : FrameId} {m : Machine} {s : Statement}
  {layers : List FinallyLayer}

/-- **Finalizers.**  When a statement inside of try statements with finalizers is run in a session,
and the whole run does not end with it, then each try statement that is entered runs its finalizer
exactly once, the innermost one first, however what it guards ends.  Behind a finalizer that asks for
nothing, what was asked for before is asked for as it was.  What a finalizer asks for takes its
place, and what a finalizer throws goes outwards instead.  What was thrown before it goes nowhere. -/
theorem Asked.finalizers_run
    (h : m.Asked suites Program.IsRead k (.execute scope (s.inside layers)))
    (hsurvives : Ending.Survives ((Engine.ofFuel k).execute scope (s.inside layers) m)) :
    ∃ runs, Engine.Unwinds s k scope m layers runs
        ((Engine.ofFuel k).execute scope (s.inside layers) m) ∧
      runs.map FinallyRun.finalizer =
        ((layers.take runs.length).map FinallyLayer.finalizer).reverse ∧
      (layers ≠ [] → ∃ run, runs.getLast? = some run ∧
        run.Leaves ((Engine.ofFuel k).execute scope (s.inside layers) m)) := by
  obtain ⟨c, hcode⟩ := h.kept.allowed
  obtain ⟨runs, hruns⟩ := Engine.exists_unwinds hcode h.kept.holds h.kept.signal hsurvives
  exact ⟨runs, hruns, hruns.finalizers, hruns.leaves_last⟩

/-- The try statements of which one is all that the body of the other has, and what the inner one
guards. -/
def nested? : Statement → Option (FinallyLayer × FinallyLayer × Statement)
  | .try [.try [s] handler (some finalizer)] handler' (some finalizer') =>
    some (.inBody [] [] handler' finalizer', .inBody [] [] handler finalizer, s)
  | _ => none

theorem eq_inside_of_nested? {t : Statement} {outer inner : FinallyLayer}
    (h : nested? t = some (outer, inner, s)) : t = s.inside [outer, inner] := by
  unfold nested? at h
  split at h
  · cases h
    rfl
  · cases h

/-- A program of two try statements around each other that ends with a value. -/
def endsNested (source : String) : Bool :=
  match Program.ofText {} source with
  | .error _ => false
  | .ok p =>
    match p.body, Action.hoist initial.realm.programFrame p.body initial with
    | [t], .ok _ m =>
      (nested? t).isSome &&
        match (Engine.ofFuel Engine.standardFuel).execute initial.realm.programFrame t m with
        | .ok .. => true
        | .error .. => false
    | _, _ => false

/-- A value is thrown inside of two try statements. -/
theorem Asked.finalizers_run_thrown : ∃ (m : Machine) (s : Statement) (outer inner : FinallyLayer)
    (runs : List FinallyRun),
    let scope := initial.realm.programFrame
    let ending := (Engine.ofFuel Engine.standardFuel).execute scope (s.inside [outer, inner]) m
    m.Asked False Program.IsRead Engine.standardFuel (.execute scope (s.inside [outer, inner])) ∧
      Ending.Survives ending ∧ Engine.Unwinds s Engine.standardFuel scope m [outer, inner] runs ending ∧
      ∃ run, runs.getLast? = some run ∧ run.Leaves ending := by
  let source := "try { try { throw null } finally { true } } finally { false }"
  have hends : endsNested source = true := by decide +kernel
  unfold endsNested at hends
  split at hends
  · cases hends
  next p hp =>
    split at hends
    · next t m hbody hhoist =>
      obtain ⟨hnested, hends⟩ := Bool.and_eq_true_iff.mp hends
      obtain ⟨⟨outer, inner, s⟩, hnested⟩ := Option.isSome_iff_exists.mp hnested
      rw [eq_inside_of_nested? hnested] at hbody hends
      have hasked : m.Asked False Program.IsRead Engine.standardFuel
          (.execute initial.realm.programFrame (s.inside [outer, inner])) :=
        .program .initial ⟨_, _, hp⟩ (.direct (Engine.asks_executeProgram _ hbody hhoist))
      have hsurvives : Ending.Survives ((Engine.ofFuel Engine.standardFuel).execute
          initial.realm.programFrame (s.inside [outer, inner]) m) := by
        intro e m' heq
        rw [heq] at hends
        cases hends
      obtain ⟨runs, hruns, -, hlast⟩ := Asked.finalizers_run hasked hsurvives
      exact ⟨m, s, outer, inner, runs, hasked, hsurvives, hruns, hlast (List.cons_ne_nil _ _)⟩
    · cases hends

end Machine

end EcmaEval
