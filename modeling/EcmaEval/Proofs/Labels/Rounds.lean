import EcmaEval.Proofs.Part.Basic
import EcmaEval.Proofs.Run.Statement

/-!
# Jumps in flight and the rounds of loops

A jump to a label is asked for where it stands, and is in flight until the statement that has the
label takes it out.  Everything in between ends at once: lists, conditions, switches and the loops
that do not have the label.  Only the final part of a try statement may turn a jump into something
else, by throwing or by asking for something itself.

The runs of two engines are compared that differ only in what they do when they are asked for one
statement.  Either the difference is not met, or the run ends with the jump in flight.

A loop first does what stands before its rounds, which depends neither on its labels nor on its
body.  Then it runs its rounds, in one frame.  A jump to any of its labels that leaves its body is
taken by the loop: it goes on with the next round, or ends.

## Main definitions

* `Action.Carried`: a run ends with a jump in flight
* `Action.CarriesAt`: either a difference is not met, or the run ends with the jump in flight
* `Engine.LetsPass`: a statement does not take a jump in
* `Engine.JumpPath`: the statements from one statement to another inside it, in one run
* `Statement.behind`: a statement behind labels
* `Engine.RunsRounds`: a run is that of the rounds of a loop
* `Engine.ComesToRound`: a loop comes to where another round may begin

## Main results

* `Engine.carriesAt_executeStatement`: a statement carries a jump that it lets pass
* `Engine.JumpPath.carried`: a jump is carried out of all statements that let it pass
* `Engine.executeStatement_behind`: a loop behind labels has all of them
* `Engine.executeLoop_comesToRounds`: a loop comes to its rounds, or fails before them
* `Engine.ComesToRound.continue`: a jump to the next round goes on with the next round
* `Engine.ComesToRound.break`: a jump out of the loop ends it
-/

namespace EcmaEval

open EcmaEval.Action Discipline

/-- The labels that stand right before a statement. -/
def Statement.ownLabels : Statement → List String
  | .labeled label body => label :: body.ownLabels
  | _ => []

/-- The signal is a jump to a label. -/
def Signal.JumpsTo (label : String) (j : Signal) : Prop :=
  j = .break (some label) ∨ j = .continue (some label)

variable {α β : Type} {j : Signal} {label : String}

namespace Action

/-- The run ends with a value and with the signal in flight. -/
def Carried (j : Signal) (result : EStateM.Result Abrupt Machine α) : Prop :=
  ∃ x m, result = .ok x m ∧ m.signal = some j

/-- From a machine, either two actions end alike, or the first one ends with the signal in flight. -/
def CarriesAt (j : Signal) (a a' : Action α) (m : Machine) : Prop :=
  a' m = a m ∨ Carried j (a m)

/-- From every machine, either two actions end alike, or the first one ends with the signal in
flight. -/
def Carries (j : Signal) (a a' : Action α) : Prop := ∀ m, CarriesAt j a a' m

/-- With the signal in flight the action ends at once. -/
def Keeps (j : Signal) (a : Action α) : Prop := ∀ m, m.signal = some j → Carried j (a m)

variable {a a' : Action α} {f f' : α → Action β} {m : Machine}

theorem Carries.refl (a : Action α) : Carries j a a := fun _ => .inl rfl

theorem CarriesAt.bind (ha : CarriesAt j a a' m)
    (hf : ∀ x m', a m = .ok x m' → CarriesAt j (f x) (f' x) m')
    (hkeeps : ∀ x, Keeps j (f x)) : CarriesAt j (a >>= f) (a' >>= f') m := by
  unfold CarriesAt
  rw [bind_apply, bind_apply]
  rcases ha with heq | ⟨x, m', heq, hsignal⟩
  · rw [heq]
    cases hresult : a m with
    | error e m' => exact .inl rfl
    | ok x m' => exact hf x m' hresult
  · rw [heq]
    exact .inr (hkeeps x m' hsignal)

theorem Carries.bind (ha : Carries j a a') (hf : ∀ x, Carries j (f x) (f' x))
    (hkeeps : ∀ x, Keeps j (f x)) : Carries j (a >>= f) (a' >>= f') :=
  fun m => (ha m).bind (fun x m' _ => hf x m') hkeeps

/-- Behind an action that meets no difference. -/
theorem Carries.next (hf : ∀ x, Carries j (f x) (f' x)) : Carries j (a >>= f) (a >>= f') := by
  intro m
  unfold CarriesAt
  rw [bind_apply, bind_apply]
  cases a m with
  | error e m' => exact .inl rfl
  | ok x m' => exact hf x m'

theorem Keeps.pure (x : α) : Keeps j (pure x : Action α) := fun m hm => ⟨x, m, rfl, hm⟩

theorem Keeps.bind (ha : Keeps j a) (hf : ∀ x, Keeps j (f x)) : Keeps j (a >>= f) := by
  intro m hm
  obtain ⟨x, m', heq, hsignal⟩ := ha m hm
  rw [bind_apply, heq]
  exact hf x m' hsignal

/-- With something asked for an action may end at once. -/
theorem Keeps.ended (x : α) (a : Action α) :
    Keeps j (isSignaled >>= fun signaled => if signaled = true then Pure.pure x else a) := by
  intro m hm
  refine ⟨x, m, ?_, hm⟩
  have hsignaled : isSignaled m = .ok true m := by
    unfold isSignaled
    rw [hm]
    rfl
  rw [bind_apply, hsignaled]
  rfl

/-- A jump that is not aimed here stays in flight. -/
theorem Keeps.absorb {aimed : Signal → Bool} (haimed : aimed j = false) :
    Keeps j (absorb aimed) := by
  refine fun m hm => ⟨(), { m with signal := m.signal.filter fun s => !aimed s }, rfl, ?_⟩
  simp [hm, haimed]

/-- What is caught or not is what is thrown, so a signal in flight stays. -/
theorem Carries.attempt (ha : Carries j a a') : Carries j (attempt a) (attempt a') := by
  intro m
  unfold CarriesAt Action.attempt
  rcases ha m with heq | ⟨x, m', heq, hsignal⟩
  · exact .inl (by rw [heq])
  · exact .inr ⟨.ok x, m', by rw [heq], hsignal⟩

theorem haltingAt_false (m : Machine) (h : Halt) (a : Action α) : a.haltingAt False m h = a := by
  funext m'
  exact if_neg fun hboth => hboth.1

end Action

/-! ## Statements -/

namespace Engine

/-- The engine with another way to execute statements. -/
def withExecute (engine : Engine) (execute : FrameId → Statement → Action Value) : Engine :=
  { engine with execute }

/-- In the run of a try statement from a machine its final part, if there is one, ends with a value
and asks for nothing, or for the jump itself. -/
def FinalPartSilent (engine : Engine) (j : Signal) (scope : FrameId) (body : List Statement)
    (handler : Option CatchClause) (finalizer : Option (List Statement)) (m : Machine) : Prop :=
  ∀ final, finalizer = some final →
    ∀ x m₁, attempt (engine.executeGuarded scope body handler) m = .ok x m₁ →
      ∃ v m₂, engine.executeBlock scope final { m₁ with signal := none } = .ok v m₂ ∧
        (m₂.signal = none ∨ m₂.signal = some j)

/-- In a run from a machine the statement does not stop a jump to a label: the label is not right
before it, and it has no final part that does something else.  Out of a class no jump leads. -/
def LetsPass (engine : Engine) (label : String) (j : Signal) (scope : FrameId) :
    Statement → Machine → Prop
  | .try body handler finalizer, m => engine.FinalPartSilent j scope body handler finalizer m
  | .class _, _ => False
  | s, _ => label ∉ s.ownLabels

/-- What a loop does with what follows a round: it tells whether it goes on. -/
def afterRound : AfterRound → Action Bool
  | .next => return true
  | .stop rest => do
    reinstate rest
    return false

theorem loopContinues_apply (labels : List String) (m : Machine) :
    loopContinues labels m = afterRound (.ofSignal labels m.signal) { m with signal := none } :=
  rfl

theorem loopContinues_of_next {labels : List String} {m : Machine}
    (h : AfterRound.ofSignal labels m.signal = .next) :
    loopContinues labels m = .ok true { m with signal := none } := by
  rw [loopContinues_apply, h]
  rfl

theorem loopContinues_of_stop {labels : List String} {m : Machine} {rest : Option Signal}
    (h : AfterRound.ofSignal labels m.signal = .stop rest) :
    loopContinues labels m = .ok false { m with signal := rest } := by
  rw [loopContinues_apply, h]
  change EStateM.Result.ok false { m with signal := Option.or none rest } = _
  rw [Option.none_or]

section

variable {engine : Engine} {execute : FrameId → Statement → Action Value}
  (hexecute : ∀ scope s, Carries j (engine.execute scope s) (execute scope s))
include hexecute

theorem carries_executeFrom (scope : FrameId) (last : Value) (statements : List Statement) :
    Carries j (engine.executeFrom scope last statements)
      ((engine.withExecute execute).executeFrom scope last statements) := by
  induction statements generalizing last with
  | nil => exact .refl _
  | cons s rest ih =>
    refine (hexecute scope s).bind (fun value => ?_) fun value m hm => ?_
    · refine .next fun signaled => ?_
      split
      · exact .refl _
      · exact ih _
    · -- The list ends behind the statement that has asked for something.
      exact Keeps.ended _ _ m hm

theorem carries_executeList (scope : FrameId) (statements : List Statement) :
    Carries j (engine.executeList scope statements)
      ((engine.withExecute execute).executeList scope statements) :=
  carries_executeFrom hexecute scope _ statements

theorem carries_executeBody (scope : FrameId) (statements : List Statement) :
    Carries j (engine.executeBody scope statements)
      ((engine.withExecute execute).executeBody scope statements) :=
  .next fun _ => carries_executeList hexecute scope statements

theorem carries_executeBlock (scope : FrameId) (statements : List Statement) :
    Carries j (engine.executeBlock scope statements)
      ((engine.withExecute execute).executeBlock scope statements) :=
  .next fun inner => carries_executeBody hexecute inner statements

theorem carries_executeHandler (scope : FrameId) (handler : CatchClause) (thrown : Value) :
    Carries j (engine.executeHandler scope handler thrown)
      ((engine.withExecute execute).executeHandler scope handler thrown) := by
  refine .next fun inner => ?_
  dsimp only
  split
  · exact .next fun _ => carries_executeBlock hexecute inner handler.body
  · exact .next fun _ => carries_executeBlock hexecute inner handler.body
  · exact carries_executeBlock hexecute inner handler.body

theorem carries_executeGuarded (scope : FrameId) (body : List Statement)
    (handler : Option CatchClause) :
    Carries j (engine.executeGuarded scope body handler)
      ((engine.withExecute execute).executeGuarded scope body handler) := by
  unfold executeGuarded
  split
  · exact carries_executeBlock hexecute scope body
  · next handler =>
    intro m
    unfold CarriesAt
    rw [bind_apply, bind_apply]
    unfold Action.attempt
    rcases carries_executeBlock hexecute scope body m with heq | ⟨v, m', heq, hsignal⟩
    · rw [heq]
      cases engine.executeBlock scope body m with
      | ok v m' => exact .inl rfl
      | error e m' =>
        cases e with
        | thrown v => exact carries_executeHandler hexecute scope handler v m'
        | _ => exact .inl rfl
    · -- A jump is not thrown, so no handler is run.
      rw [heq]
      exact .inr ⟨v, m', rfl, hsignal⟩

theorem carries_executeCases (scope : FrameId) (last : Value) (cases : List SwitchCase) :
    Carries j (engine.executeCases scope last cases)
      ((engine.withExecute execute).executeCases scope last cases) := by
  induction cases generalizing last with
  | nil => exact .refl _
  | cons c rest ih =>
    refine (carries_executeList hexecute scope c.body).bind (fun value => ?_) fun value =>
      .ended _ _
    refine .next fun signaled => ?_
    split
    · exact .refl _
    · exact ih _

omit hexecute in
theorem matchingCases_withExecute (scope : FrameId) (value : Value) (cases : List SwitchCase) :
    (engine.withExecute execute).matchingCases scope value cases =
      engine.matchingCases scope value cases := by
  induction cases with
  | nil => rfl
  | cons c rest ih =>
    unfold matchingCases
    rw [ih]
    rfl

theorem carries_executeSwitch (hj : j.JumpsTo label) (scope : FrameId) (discriminant : Expression)
    (cases : List SwitchCase) :
    Carries j (engine.executeSwitch scope discriminant cases)
      ((engine.withExecute execute).executeSwitch scope discriminant cases) := by
  have haimed : Signal.isBreak j = false := by
    rcases hj with rfl | rfl <;> rfl
  refine .next fun value => .next fun inner => .next fun _ => ?_
  rw [matchingCases_withExecute]
  refine .next fun selected => ?_
  refine (carries_executeCases hexecute inner _ _).bind (fun result => .refl _) fun result => ?_
  exact (Keeps.absorb haimed).bind fun _ => .pure result

omit hexecute in
/-- A loop stops at a jump to a label that it does not have, which stays in flight. -/
theorem keeps_loopContinues (hj : j.JumpsTo label) {labels : List String} (hlabel : label ∉ labels)
    {m : Machine} (hm : m.signal = some j) : loopContinues labels m = .ok false m := by
  have hstop : AfterRound.ofSignal labels (some j) = .stop (some j) := by
    rcases hj with rfl | rfl <;> simp [AfterRound.ofSignal, hlabel]
  exact loopContinues_of_stop (hm ▸ hstop)

omit hexecute in
theorem carries_runRounds (hj : j.JumpsTo label) {labels : List String} (hlabel : label ∉ labels)
    {σ : Type} {enter : σ → Action (Option σ)} {body body' : Action Value}
    (hbody : Carries j body body') (fuel : Nat) (s : σ) (last : Value) :
    Carries j (runRounds labels enter body fuel s last)
      (runRounds labels enter body' fuel s last) := by
  -- Induction on the number of rounds left.
  induction fuel generalizing s last with
  | zero => exact .refl _
  | succ fuel ih =>
    refine .next fun next => ?_
    cases next with
    | none => exact .refl _
    | some s =>
      refine hbody.bind (fun value => .next fun goesOn => ?_) fun value m hm => ?_
      · cases goesOn with
        | true => exact ih s value
        | false => exact .refl _
      · refine ⟨value, m, ?_, hm⟩
        rw [bind_apply, keeps_loopContinues hj hlabel hm]
        rfl

theorem carries_executeLoop (hj : j.JumpsTo label) {labels : List String}
    (hlabel : label ∉ labels) (scope : FrameId) (loop : Statement) :
    Carries j (engine.executeLoop labels scope loop)
      ((engine.withExecute execute).executeLoop labels scope loop) := by
  have hrun {σ : Type} (inner : FrameId) (body : Statement) (start : σ)
      (enter : σ → Action (Option σ)) :
      Carries j (engine.runLoop labels inner body start enter)
        ((engine.withExecute execute).runLoop labels inner body start enter) :=
    carries_runRounds hj hlabel (hexecute inner body) _ start _
  refine .next fun inner => ?_
  split
  · exact hrun inner _ _ _
  · exact hrun inner _ _ _
  · exact .next fun _ => hrun inner _ _ _
  · refine .next fun value => .next fun keys => ?_
    exact hrun inner _ _ _
  · refine .next fun source => .next fun isArray => ?_
    split
    · exact hrun inner _ _ _
    · exact .next fun values => hrun inner _ _ _
  · exact .refl _

theorem carries_executeLabeled (hj : j.JumpsTo label) (scope : FrameId) {labels : List String}
    {s : Statement} (hlabels : label ∉ labels) (hs : label ∉ s.ownLabels) :
    Carries j (engine.executeLabeled scope labels s)
      ((engine.withExecute execute).executeLabeled scope labels s) := by
  have hkeeps {labels : List String} (hlabels : label ∉ labels) :
      Keeps j (absorb (Signal.breaksTo labels)) := by
    refine .absorb ?_
    rcases hj with rfl | rfl <;> simp [Signal.breaksTo, hlabels]
  fun_induction engine.executeLabeled scope labels s with
  | case1 labels l body ih =>
    rw [Statement.ownLabels, List.mem_cons, not_or] at hs
    rw [executeLabeled]
    refine ih ?_ hs.2
    simp [hlabels, hs.1]
  | case2 labels loop hbody _ hloop =>
    rw [executeLabeled.eq_2 _ _ _ _ hbody, if_pos hloop]
    exact (carries_executeLoop hexecute hj hlabels scope loop).bind (fun _ => .refl _)
      fun value => (hkeeps hlabels).bind fun _ => .pure value
  | case3 labels body hbody _ hloop =>
    rw [executeLabeled.eq_2 _ _ _ _ hbody, if_neg hloop]
    exact (hexecute scope body).bind (fun _ => .refl _)
      fun value => (hkeeps hlabels).bind fun _ => .pure value

theorem carriesAt_executeTry (scope : FrameId) (body : List Statement)
    (handler : Option CatchClause) (finalizer : Option (List Statement)) {m : Machine}
    (hfinal : engine.FinalPartSilent j scope body handler finalizer m) :
    CarriesAt j (engine.executeTry scope body handler finalizer)
      ((engine.withExecute execute).executeTry scope body handler finalizer) m := by
  have hguarded := carries_executeGuarded hexecute scope body handler
  cases finalizer with
  | none => exact hguarded m
  | some final =>
    unfold executeTry CarriesAt
    dsimp only
    rw [bind_apply, bind_apply]
    rcases hguarded.attempt m with heq | ⟨x, m₁, heq, hsignal⟩
    · rw [heq]
      cases attempt (engine.executeGuarded scope body handler) m with
      | error e m₁ => exact .inl rfl
      | ok x m₁ =>
        -- The difference may be met in the final part, whose jump has the last word.
        refine Carries.next (fun pending => ?_) m₁
        refine (carries_executeBlock hexecute scope final).bind (fun _ => .refl _) fun value => ?_
        refine Keeps.bind (fun m hm => ⟨(), _, rfl, ?_⟩) fun _ => .pure value
        rw [hm, Option.some_or]
    · obtain ⟨v, m₂, hrun, hafter⟩ := hfinal final rfl x m₁ heq
      refine .inr ⟨v, { m₂ with signal := some j }, ?_, rfl⟩
      rw [heq]
      change (do
        let value ← engine.executeBlock scope final
        reinstate m₁.signal
        return value : Action Value) { m₁ with signal := none } = _
      rw [bind_apply, hrun]
      change EStateM.Result.ok v { m₂ with signal := m₂.signal.or m₁.signal } = _
      rw [hsignal]
      rcases hafter with hnone | hsame
      · rw [hnone, Option.none_or]
      · rw [hsame, Option.some_or]

/-- **A statement carries a jump that it lets pass.**  If an engine that is asked for statements
answers as another one does, or with the jump in flight, so it is with the statement. -/
theorem carriesAt_executeStatement (hj : j.JumpsTo label) (scope : FrameId) (s : Statement)
    {m : Machine} (hpass : engine.LetsPass label j scope s m) :
    CarriesAt j (engine.executeStatement scope s)
      ((engine.withExecute execute).executeStatement scope s) m := by
  have hloop (loop : Statement) := carries_executeLoop hexecute hj List.not_mem_nil scope loop m
  cases s with
  | block body => exact carries_executeBlock hexecute scope body m
  | «if» test consequent alternate =>
    refine Carries.next (fun value => ?_) m
    split
    · exact hexecute scope consequent
    · cases alternate with
      | none => exact .refl _
      | some alternate => exact hexecute scope alternate
  | «while» test body => exact hloop (.while test body)
  | doWhile body test => exact hloop (.doWhile body test)
  | «for» init test update body => exact hloop (.for init test update body)
  | forIn head object body => exact hloop (.forIn head object body)
  | forOf head iterable body => exact hloop (.forOf head iterable body)
  | «try» body handler finalizer =>
    exact carriesAt_executeTry hexecute scope body handler finalizer hpass
  | switch discriminant cases => exact carries_executeSwitch hexecute hj scope discriminant cases m
  | labeled l body => exact carries_executeLabeled hexecute hj scope List.not_mem_nil hpass m
  | «class» node => exact hpass.elim
  | empty | debugger | expression _ | declaration _ _ | «return» _ | «break» _ | «continue» _
  | throw _ | function _ | «with» _ _ => exact .inl rfl

end

/-! ## Statements inside statements -/

/-- An engine that breaks down at one statement is an engine with another way to execute
statements. -/
theorem haltingAt_execute (engine : Engine) (scope : FrameId) (s : Statement) (m : Machine)
    (h : Halt) :
    engine.haltingAt (.execute scope s) m h = engine.withExecute fun scope' s' =>
      (engine.execute scope' s').haltingAt (Query.execute scope s = .execute scope' s') m h := by
  simp [haltingAt, withExecute, haltingAt_false]

/-- A statement that lets a jump pass ends with it when a statement that it asks for does. -/
theorem carried_executeStatement (hj : j.JumpsTo label) {engine : Engine} {scope scope' : FrameId}
    {s t : Statement} {m m' : Machine} (hpass : engine.LetsPass label j scope s m)
    (hasks : engine.Asks (·.executeStatement scope s) m (.execute scope' t) m')
    (hpart : Carried j (engine.execute scope' t m')) :
    Carried j (engine.executeStatement scope s m) := by
  refine Classical.byContradiction fun hnot => ?_
  -- Else it would not matter how the statement inside breaks down.
  have hsame (h : Halt) : (engine.haltingAt (.execute scope' t) m' h).executeStatement scope s m =
      engine.executeStatement scope s m := by
    rw [haltingAt_execute]
    refine (carriesAt_executeStatement (fun scope'' u m'' => ?_) hj scope s hpass).resolve_right
      hnot
    unfold CarriesAt Action.haltingAt
    split
    · next hpoint =>
      obtain ⟨hquery, rfl⟩ := hpoint
      cases hquery
      exact .inr hpart
    · exact .inl rfl
  obtain ⟨h, h', hne⟩ := hasks
  exact hne ((hsame h).trans (hsame h').symm)

/-- The statements from one statement in, down to another one: in the run of each from a machine,
the engine is asked for the next one, and all but the last let a jump to a label pass. -/
inductive JumpPath (label : String) (j : Signal) :
    (fuel : Nat) → FrameId → Statement → Machine → (k : Nat) → FrameId → Statement → Machine → Prop
    where
  | here {fuel : Nat} {scope : FrameId} {s : Statement} {m : Machine} :
    JumpPath label j fuel scope s m fuel scope s m
  | inside {fuel k : Nat} {scope scope' scope'' : FrameId} {s t u : Statement} {m m' m'' : Machine}
    (hpass : (ofFuel (fuel + 1)).LetsPass label j scope s m)
    (hasks : (ofFuel (fuel + 1)).Asks (·.executeStatement scope s) m (.execute scope' t) m')
    (hpath : JumpPath label j fuel scope' t m' k scope'' u m'') :
    JumpPath label j (fuel + 1) scope s m k scope'' u m''

/-- **A jump is carried out of all statements that let it pass.** -/
theorem JumpPath.carried (hj : j.JumpsTo label) {fuel k : Nat} {scope scope' : FrameId}
    {s t : Statement} {m m' : Machine} (hpath : JumpPath label j fuel scope s m k scope' t m')
    (hjump : Carried j ((ofFuel k).executeStatement scope' t m')) :
    Carried j ((ofFuel fuel).executeStatement scope s m) := by
  induction hpath with
  | here => exact hjump
  | inside hpass hasks _ ih => exact carried_executeStatement hj hpass hasks (ih hjump)

theorem carried_break (engine : Engine) (scope : FrameId) (m : Machine) :
    Carried (.break (some label)) (engine.executeStatement scope (.break (some label)) m) :=
  ⟨.undefined, _, rfl, rfl⟩

theorem carried_continue (engine : Engine) (scope : FrameId) (m : Machine) :
    Carried (.continue (some label)) (engine.executeStatement scope (.continue (some label)) m) :=
  ⟨.undefined, _, rfl, rfl⟩

end Engine

end EcmaEval

/-! # Rounds of loops with labels -/

namespace EcmaEval

open EcmaEval.Action Discipline

namespace Statement

/-- The statement behind labels. -/
def behind (labels : List String) (s : Statement) : Statement :=
  labels.foldr .labeled s

/-- The body of a loop. -/
def loopBody? : Statement → Option Statement
  | .while _ body | .doWhile body _ | .for _ _ _ body | .forIn _ _ body | .forOf _ _ body =>
    some body
  | _ => none

theorem isLoop_of_loopBody? {loop body : Statement} (hbody : loop.loopBody? = some body) :
    loop.isLoop = true := by
  cases loop <;> first | rfl | cases hbody

end Statement

namespace Engine

variable {engine : Engine} {labels : List String} {scope : FrameId} {loop body : Statement}

/-! ## Labels -/

theorem executeLabeled_behind (before : List String) (s : Statement) :
    engine.executeLabeled scope before (s.behind labels) =
      engine.executeLabeled scope (before ++ labels) s := by
  induction labels generalizing before with
  | nil => rw [List.append_nil]; rfl
  | cons label labels ih =>
    rw [List.append_cons]
    exact ih (before ++ [label])

/-- A loop behind labels is executed with all of them. -/
theorem executeStatement_behind (hbody : loop.loopBody? = some body) (hlabels : labels ≠ []) :
    engine.executeStatement scope (loop.behind labels) = (do
      let value ← engine.executeLoop labels scope loop
      absorb (Signal.breaksTo labels)
      return value) := by
  have hchain : engine.executeStatement scope (loop.behind labels) =
      engine.executeLabeled scope [] (loop.behind labels) := by
    cases labels with
    | nil => exact absurd rfl hlabels
    | cons label labels => rfl
  rw [hchain, executeLabeled_behind, List.nil_append]
  cases loop <;> first | rfl | cases hbody

/-! ## Rounds -/

/-- From a machine a run, which depends on labels and on how statements are executed, comes to the
rounds of a loop with a frame, a state and a machine that depend on neither. -/
def RunsRounds {σ : Type} (fuel : Nat) (body : Statement)
    (run : List String → (FrameId → Statement → Action Value) → Action Value) (m : Machine)
    (inner : FrameId) (enter : σ → Action (Option σ)) (start : σ) (m' : Machine) : Prop :=
  ∀ labels execute, run labels execute m =
    runRounds labels enter (execute inner body) fuel start .undefined m'

/-- From a machine a run comes to the rounds of a loop, or fails before them. -/
inductive ComesToRounds (fuel : Nat) (body : Statement)
    (run : List String → (FrameId → Statement → Action Value) → Action Value) (m : Machine) : Prop
    where
  | fails {e : Abrupt} {m' : Machine} (h : ∀ labels execute, run labels execute m = .error e m')
  | rounds {σ : Type} (inner : FrameId) (enter : σ → Action (Option σ)) (start : σ) (m' : Machine)
    (h : RunsRounds fuel body run m inner enter start m')

/-- Behind an action that asks for no statement. -/
theorem ComesToRounds.bind {α : Type} {a : Action α} {fuel : Nat}
    {f : α → List String → (FrameId → Statement → Action Value) → Action Value} {m : Machine}
    (hf : ∀ x m', ComesToRounds fuel body (f x) m') :
    ComesToRounds fuel body (fun labels execute => a >>= fun x => f x labels execute) m := by
  cases ha : a m with
  | error e m' => exact .fails fun labels execute => by rw [bind_apply, ha]
  | ok x m' =>
    have hbind (labels : List String) (execute : FrameId → Statement → Action Value) :
        (a >>= fun x => f x labels execute) m = f x labels execute m' := by rw [bind_apply, ha]
    cases hf x m' with
    | fails h => exact .fails fun labels execute => (hbind labels execute).trans (h labels execute)
    | rounds inner enter start m'' h =>
      exact .rounds inner enter start m'' fun labels execute =>
        (hbind labels execute).trans (h labels execute)

/-- What a `while` loop does before each round. -/
def enterWhile (engine : Engine) (inner : FrameId) (test : Expression) :
    Unit → Action (Option Unit) := fun _ =>
  return if ← engine.loopTest inner (some test) then some () else none

/-- What a `do` loop does before each round: the first is not tested. -/
def enterDoWhile (engine : Engine) (inner : FrameId) (test : Expression) :
    Bool → Action (Option Bool) := fun started => do
  if started then return if ← engine.loopTest inner (some test) then some true else none
  else return some true

/-- What a `for` loop with a test does before each round: it does not update before the first. -/
def enterFor (engine : Engine) (inner : FrameId) (test update : Option Expression) :
    Bool → Action (Option Bool) := fun started => do
  if started then
    if let some e := update then
      let _ ← engine.evaluate inner e
  return if ← engine.loopTest inner test then some true else none

/-- A loop comes to its rounds, or fails before them. -/
theorem executeLoop_comesToRounds (hbody : loop.loopBody? = some body) (engine : Engine)
    (scope : FrameId) (m : Machine) :
    ComesToRounds engine.fuel body
      (fun labels execute => (engine.withExecute execute).executeLoop labels scope loop) m := by
  refine .bind fun inner m => ?_
  cases loop with
  | «while» test body =>
    cases hbody
    exact .rounds inner (engine.enterWhile inner test) () m fun _ _ => rfl
  | doWhile body test =>
    cases hbody
    exact .rounds inner (engine.enterDoWhile inner test) false m fun _ _ => rfl
  | «for» init test update body =>
    cases hbody
    refine .bind (a := engine.executeInit inner init) fun _ m => ?_
    exact .rounds inner (engine.enterFor inner test update) false m fun _ _ => rfl
  | forIn head object body =>
    cases hbody
    refine .bind (a := engine.evaluate inner object) fun value m => .bind fun keys m => ?_
    exact .rounds inner (engine.enterListed inner head) (keys.map .ofText) m fun _ _ => rfl
  | forOf head iterable body =>
    cases hbody
    refine .bind (a := engine.evaluate inner iterable) fun source m => .bind fun isArray m => ?_
    have hlisted : ComesToRounds engine.fuel body (fun labels execute => do
        let values ← iterate source
        (engine.withExecute execute).runLoop labels inner body values.toList
          ((engine.withExecute execute).enterListed inner head)) m :=
      .bind fun values m => .rounds inner (engine.enterListed inner head) values.toList m
        fun _ _ => rfl
    -- Only an array is read round by round.
    cases source with
    | object id =>
      cases isArray with
      | true => exact .rounds inner (engine.enterElement inner head id) 0 m fun _ _ => rfl
      | false => exact hlisted
    | _ => exact hlisted
  | _ => cases hbody

/-- A loop that begins its first round asks for its body. -/
theorem RunsRounds.asks {σ : Type} (hbody : loop.loopBody? = some body) {m m₁ m₂ : Machine}
    {inner : FrameId} {enter : σ → Action (Option σ)} {start s : σ} {k : Nat}
    (hrounds : RunsRounds engine.fuel body (fun labels execute =>
      (engine.withExecute execute).executeLoop labels scope loop) m inner enter start m₁)
    (hfuel : engine.fuel = k + 1) (henter : enter start m₁ = .ok (some s) m₂) :
    engine.Asks (·.executeStatement scope loop) m (.execute inner body) m₂ := by
  have hhalts (h : Halt) :
      (engine.haltingAt (.execute inner body) m₂ h).executeStatement scope loop m =
        .error (.broken h.cause) h.machine := by
    rw [haltingAt_execute]
    have hloop (engine : Engine) :
        engine.executeStatement scope loop = engine.executeLoop [] scope loop := by
      cases loop <;> first | rfl | cases hbody
    rw [hloop]
    refine (hrounds [] _).trans ?_
    rw [hfuel, runRounds, bind_apply, henter]
    dsimp only
    rw [bind_apply, Action.haltingAt, if_pos ⟨rfl, rfl⟩]
  refine ⟨⟨.unsupported "", m⟩, ⟨.malformed "" "", m⟩, fun heq => ?_⟩
  cases (hhalts _).symm.trans (heq.trans (hhalts _))

/-- From a machine the loop with its labels comes to where another round may begin, with at most
`k` rounds left, a state, the value so far and a machine. -/
inductive ComesToRound {σ : Type} (engine : Engine) (labels : List String) (scope : FrameId)
    (loop body : Statement) (m : Machine) (inner : FrameId) (enter : σ → Action (Option σ)) :
    (k : Nat) → σ → Value → Machine → Prop where
  | first {start : σ} {m' : Machine}
    (hopens : RunsRounds engine.fuel body
      (fun labels execute => (engine.withExecute execute).executeLoop labels scope loop) m
      inner enter start m') :
    ComesToRound engine labels scope loop body m inner enter engine.fuel start .undefined m'
  | next {k : Nat} {s s' : σ} {last value : Value} {m₁ m₂ m₃ m₄ : Machine}
    (hround : ComesToRound engine labels scope loop body m inner enter (k + 1) s last m₁)
    (henter : enter s m₁ = .ok (some s') m₂)
    (hexecute : engine.execute inner body m₂ = .ok value m₃)
    (hgoesOn : loopContinues labels m₃ = .ok true m₄) :
    ComesToRound engine labels scope loop body m inner enter k s' value m₄

namespace ComesToRound

variable {σ : Type} {m m₁ m₂ : Machine} {inner : FrameId} {enter : σ → Action (Option σ)}
  {k : Nat} {s s' : σ} {last : Value}

/-- The run of the loop goes on with its rounds. -/
theorem executeLoop_eq
    (h : ComesToRound engine labels scope loop body m inner enter k s last m₁) :
    engine.executeLoop labels scope loop m =
      runRounds labels enter (engine.execute inner body) k s last m₁ := by
  induction h with
  | first hopens => exact hopens labels engine.execute
  | next hround henter hexecute hgoesOn ih =>
    rw [ih, runRounds, bind_apply, henter]
    dsimp only
    rw [bind_apply, hexecute]
    dsimp only
    rw [bind_apply, hgoesOn]
    rfl

variable {label : String}

/-- **A jump to the next round.**  When the body is left by a `continue` to one of the labels, the
loop goes on with its next round. -/
theorem «continue» (hlabel : label ∈ labels)
    (hround : ComesToRound engine labels scope loop body m inner enter (k + 1) s last m₁)
    (henter : enter s m₁ = .ok (some s') m₂)
    (hbody : Carried (.continue (some label)) (engine.execute inner body m₂)) :
    ∃ value m₃, engine.execute inner body m₂ = .ok value m₃ ∧
      ComesToRound engine labels scope loop body m inner enter k s' value
        { m₃ with signal := none } := by
  obtain ⟨value, m₃, hexecute, hsignal⟩ := hbody
  refine ⟨value, m₃, hexecute, hround.next henter hexecute (loopContinues_of_next ?_)⟩
  simp [hsignal, AfterRound.ofSignal, hlabel]

/-- **A jump out of the loop.**  When the body is left by a `break` to one of the labels, the loop
ends. -/
theorem «break» (hlabel : label ∈ labels)
    (hround : ComesToRound engine labels scope loop body m inner enter (k + 1) s last m₁)
    (henter : enter s m₁ = .ok (some s') m₂)
    (hbody : Carried (.break (some label)) (engine.execute inner body m₂)) :
    ∃ value m₃, engine.execute inner body m₂ = .ok value m₃ ∧
      engine.executeLoop labels scope loop m = .ok value { m₃ with signal := none } := by
  obtain ⟨value, m₃, hexecute, hsignal⟩ := hbody
  refine ⟨value, m₃, hexecute, ?_⟩
  have hstop : AfterRound.ofSignal labels m₃.signal = .stop none := by
    simp [hsignal, AfterRound.ofSignal, hlabel]
  rw [hround.executeLoop_eq, runRounds, bind_apply, henter]
  dsimp only
  rw [bind_apply, hexecute]
  dsimp only
  rw [bind_apply, loopContinues_of_stop hstop]
  rfl

end ComesToRound

end Engine

end EcmaEval
