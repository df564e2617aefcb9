import EcmaEval.Proofs.Conduct.Promises

/-!
# Asynchronous functions in a session

An asynchronous function runs to its end when it is called.  Whatever its parameters and its body
throw, the caller gets a promise, unless the whole run ends.  No one else has that promise yet, so
nothing waits for it, and it is not what the body returned: it takes up the outcome of the body, and
an `await` of it gives that outcome back.  There is one exception.  If the body returned a promise
that is pending, then the new promise waits for it, and an `await` at once is refused.

## Main definitions

* `Engine.bodyOfCall`: what a call of a function of the program runs
* `Machine.HandsOn`: an `await` ends as the body did

## Main results

* `Engine.resolvePromise_withPromise`: how a new promise takes up a value
* `Engine.promiseOfAction_handsOn`: the promise of an action hands on how the action ends
* `Machine.Asked.await_call_async`: in a session a call of an asynchronous function hands on how its
  body ends
-/

namespace EcmaEval

open EcmaEval.Action Engine Discipline

variable {m m₁ m' : Machine} {engine : Engine} {outcome : Settlement} {id : ObjectId}

/-! ## The body of a call -/

/-- What a call of a function of the program runs: its parameters are bound in a new frame, and its
body runs there. -/
def Engine.bodyOfCall (engine : Engine) (node : FunctionNode) (scope : FrameId)
    (home : Option ObjectId) (this : Value) (args : List Value) : Action Value := do
  let frame ← callFrame node scope home this args
  engine.runBody node frame args

theorem Engine.exists_callFrame (node : FunctionNode) (scope : FrameId) (home : Option ObjectId)
    (this : Value) (args : List Value) (m : Machine) :
    ∃ frame m', callFrame node scope home this args m = .ok frame m' := by
  unfold callFrame
  cases node.isArrow with
  | true => exact ⟨_, _, rfl⟩
  | false => exact ⟨_, _, rfl⟩

/-- An asynchronous function gives the promise of its body.  A frame is always there. -/
theorem Engine.callFunction_of_isAsync {f : ObjectId} {node : FunctionNode} {scope : FrameId}
    {home : Option ObjectId} (hf : (m.heap.get f).callable? = some (.closure node scope home))
    (hasync : node.isAsync = true) (this : Value) (args : List Value) :
    engine.callFunction f this args m =
      engine.promiseOfAction (engine.bodyOfCall node scope home this args) m := by
  obtain ⟨frame, m₁, hframe⟩ := exists_callFrame node scope home this args m
  unfold callFunction
  rw [readHeap_bind, hf]
  dsimp only
  rw [callClosure, bind_apply, hframe]
  dsimp only
  rw [runFunction, if_pos hasync, promiseOfAction, promiseOfAction, bind_apply, bind_apply, attempt,
    attempt, bodyOfCall, bind_apply, hframe]

/-! ## New promises -/

namespace Machine

/-- A new promise is pending, and nothing waits for it. -/
theorem stateOf_withPromise_new (m : Machine) :
    m.withPromise.heap.stateOf ⟨m.heap.size⟩ = some (.pending false []) := by
  rw [Heap.stateOf, withPromise, Heap.get_allocate_self]
  rfl

/-- Only the new object differs. -/
theorem stateOf_withPromise_of_ne (hne : id ≠ ⟨m.heap.size⟩) :
    m.withPromise.heap.stateOf id = m.heap.stateOf id := by
  rw [Heap.stateOf, withPromise, Heap.get_allocate, if_neg, Heap.stateOf]
  exact fun heq => hne (congrArg ObjectId.mk heq)

theorem stateOf_withState_of_ne {id' : ObjectId} (hne : id' ≠ id) (state : PromiseState) :
    (m.withState id state).heap.stateOf id' = m.heap.stateOf id' := by
  rw [Heap.stateOf, withState, Heap.get_modify_of_ne _ hne, Heap.stateOf]

end Machine

namespace Engine

/-- The machine with a new promise, which waits for the pending promise `source`. -/
def waiting (m : Machine) (source : ObjectId) (decided : Bool) (reactions : List Reaction) : Machine :=
  m.withPromise.withState source
    (.pending decided (reactions ++ [⟨.undefined, .undefined, ⟨m.heap.size⟩⟩]))

theorem promiseOf?_of_stateOf_eq_none {v : Value}
    (hv : ∀ id, v = .object id → m.heap.stateOf id = none) : promiseOf? v m = .ok none m := by
  cases v with
  | object id =>
    have hread : (m.heap.get id).promiseState? = none := hv id rfl
    simp [promiseOf?, readHeap, Value.object?, hread]
  | _ => rfl

/-- A new promise takes up a value: it is settled as a settled promise is, or with the value if that
is no promise; and it waits for a pending promise.  What was there before is no cycle. -/
theorem resolvePromise_withPromise (engine : Engine) {v : Value}
    (hv : ∀ id, v = .object id → id ≠ ⟨m.heap.size⟩) :
    ((∀ id, v = .object id → m.heap.stateOf id = none) →
      engine.resolvePromise ⟨m.heap.size⟩ v m.withPromise =
        engine.settle ⟨m.heap.size⟩ (.fulfilled v) m.withPromise) ∧
    (∀ id outcome, v = .object id → m.heap.stateOf id = some (.settled outcome) →
      engine.resolvePromise ⟨m.heap.size⟩ v m.withPromise =
        engine.settle ⟨m.heap.size⟩ outcome m.withPromise) ∧
    ∀ id decided reactions, v = .object id →
      m.heap.stateOf id = some (.pending decided reactions) →
      engine.resolvePromise ⟨m.heap.size⟩ v m.withPromise =
        .ok () (waiting m id decided reactions) := by
  have hsame (id : ObjectId) (heq : v = .object id) :
      m.withPromise.heap.stateOf id = m.heap.stateOf id :=
    Machine.stateOf_withPromise_of_ne (hv id heq)
  refine ⟨fun hnone => ?_, fun id outcome heq hstate => ?_,
    fun id decided reactions heq hstate => ?_⟩
  · have hread : promiseOf? v m.withPromise = .ok none m.withPromise :=
      promiseOf?_of_stateOf_eq_none fun id heq => (hsame id heq).trans (hnone id heq)
    rw [resolvePromise, bind_apply, hread]
  · subst heq
    rw [resolvePromise, bind_apply, promiseOf?_of_stateOf ((hsame id rfl).trans hstate)]
    dsimp only
    rw [if_neg (hv id rfl)]
  · subst heq
    have hpending := (hsame id rfl).trans hstate
    rw [resolvePromise, bind_apply, promiseOf?_of_stateOf hpending]
    dsimp only
    rw [if_neg (hv id rfl), addReaction, promiseState?, readHeap_bind, ← Heap.stateOf, hpending]
    rfl

end Engine

/-! ## What an `await` gives -/

/-- What was fulfilled is a value, and what was rejected is thrown. -/
def Settlement.givenBack : Settlement → Action Value
  | .fulfilled v => pure v
  | .rejected reason => throwValue reason

namespace Engine

/-- A promise that is settled gives its outcome back. -/
theorem await_of_settled (hstate : m.heap.stateOf id = some (.settled outcome)) :
    await (.object id) m = outcome.givenBack m.clearSignal := by
  have hawait : await (.object id) m = resume (.object id) m.clearSignal := rfl
  rw [hawait, resume, bind_apply, promiseOf?_of_stateOf (m := m.clearSignal) hstate]
  cases outcome <;> rfl

/-- A promise that is pending is refused. -/
theorem await_of_pending {decided : Bool} {reactions : List Reaction}
    (hstate : m.heap.stateOf id = some (.pending decided reactions)) :
    await (.object id) m =
      .error (.thrown (.object ⟨m.heap.size⟩)) (m.clearSignal.afterFault .awaitPending) := by
  have hawait : await (.object id) m = resume (.object id) m.clearSignal := rfl
  rw [hawait, resume, bind_apply, promiseOf?_of_stateOf (m := m.clearSignal) hstate]
  rfl

end Engine

/-- A body has ended in the first way, and an `await` on the machine `m` ends in the second way: it
gives what the body returned, or throws what the body threw.  Where the body returned a promise, that
is the outcome of that promise; and only if that promise is pending, the `await` is refused. -/
inductive Machine.HandsOn (m : Machine) :
    EStateM.Result Abrupt Machine Value → EStateM.Result Abrupt Machine Value → Prop where
  | value {v : Value} {m₁ : Machine} (hv : ∀ id, v = .object id → m₁.heap.stateOf id = none) :
    HandsOn m (.ok v m₁) (.ok v m.clearSignal)
  | thrown {reason : Value} {m₁ : Machine} :
    HandsOn m (.error (.thrown reason) m₁) (.error (.thrown reason) m.clearSignal)
  | fulfilled {id : ObjectId} {v : Value} {m₁ : Machine}
    (hstate : m₁.heap.stateOf id = some (.settled (.fulfilled v))) :
    HandsOn m (.ok (.object id) m₁) (.ok v m.clearSignal)
  | rejected {id : ObjectId} {reason : Value} {m₁ : Machine}
    (hstate : m₁.heap.stateOf id = some (.settled (.rejected reason))) :
    HandsOn m (.ok (.object id) m₁) (.error (.thrown reason) m.clearSignal)
  | pending {id : ObjectId} {decided : Bool} {reactions : List Reaction} {m₁ : Machine}
    (hstate : m₁.heap.stateOf id = some (.pending decided reactions)) :
    HandsOn m (.ok (.object id) m₁)
      (.error (.thrown (.object ⟨m.heap.size⟩)) (m.clearSignal.afterFault .awaitPending))

/-! ## Promises of actions -/

namespace Engine

variable {a : Action Value} {v reason : Value}

theorem newSettledPromise_apply (settle : ObjectId → Action Unit) (m : Machine) :
    newSettledPromise settle m =
      (settle ⟨m.heap.size⟩ >>= fun _ => pure (.object ⟨m.heap.size⟩)) m.withPromise := rfl

theorem promiseOfAction_of_ok (ha : a m = .ok v m₁) :
    engine.promiseOfAction a m = newSettledPromise (engine.resolvePromise · v) m₁ := by
  rw [promiseOfAction, bind_apply, attempt, ha]

theorem promiseOfAction_of_thrown (ha : a m = .error (.thrown reason) m₁) :
    engine.promiseOfAction a m = newSettledPromise (engine.settle · (.rejected reason)) m₁ := by
  rw [promiseOfAction, bind_apply, attempt, ha]

theorem promiseOfAction_of_fatal {e : Abrupt} (he : e.Fatal) (ha : a m = .error e m₁) :
    engine.promiseOfAction a m = .error e m₁ := by
  rw [promiseOfAction, bind_apply, attempt, ha]
  cases e with
  | thrown => exact he.elim
  | _ => rfl

/-- The promise of an action throws nothing. -/
instance [engine.Quiet] : (engine.promiseOfAction a).Quiet := by
  have hattempt : (attempt a).Quiet := by
    refine ⟨fun m v m' h => ?_⟩
    rw [attempt] at h
    generalize a m = result at h
    cases result with
    | ok x m₁ => cases h
    | error e m₁ => cases e <;> cases h
  have hnew (settle : ObjectId → Action Unit) [∀ id, (settle id).Quiet] :
      (newSettledPromise settle).Quiet := by
    have : newPromise.Quiet := ⟨fun _ _ _ => nofun⟩
    unfold newSettledPromise
    infer_instance
  unfold promiseOfAction
  refine .bind fun result => ?_
  cases result with
  | ok v => exact hnew _
  | error reason => exact hnew _

/-- A new promise that is settled at once, if there is a step left for that, is awaited with its
outcome. -/
theorem newSettledPromise_handsOn {k : Nat} {settle : ObjectId → Action Unit}
    {result : EStateM.Result Abrupt Machine Value}
    (hsettle : settle ⟨m.heap.size⟩ m.withPromise =
      (ofFuel k).settle ⟨m.heap.size⟩ outcome m.withPromise)
    (hresult : ∀ m' : Machine, m'.HandsOn result (outcome.givenBack m'.clearSignal)) :
    (k = 0 ∧ ∃ m', newSettledPromise settle m = .error .exhausted m') ∨
      ∃ promise m', newSettledPromise settle m = .ok (.object promise) m' ∧
        m'.HandsOn result (await (.object promise) m') := by
  rw [newSettledPromise_apply, bind_apply, hsettle]
  cases k with
  | zero => exact .inl ⟨rfl, _, rfl⟩
  | succ k =>
    have hrun : (ofFuel (k + 1)).settle ⟨m.heap.size⟩ outcome m.withPromise =
        .ok () (m.withPromise.withState ⟨m.heap.size⟩ (.settled outcome)) :=
      settlePromise_eq m.stateOf_withPromise_new outcome
    rw [hrun]
    refine .inr ⟨_, _, rfl, ?_⟩
    rw [await_of_settled (Machine.stateOf_withState m.stateOf_withPromise_new (.settled outcome))]
    exact hresult _

/-- The promise of an action that ends in no fatal way is new, and an `await` of it gives what the
action gave, as long as that is not the new promise itself. -/
theorem promiseOfAction_handsOn (k : Nat) (hnot : ∀ e m₁, a m = .error e m₁ → ¬ e.Fatal)
    (hold : ∀ id m₁, a m = .ok (.object id) m₁ → id ≠ ⟨m₁.heap.size⟩) :
    (k = 0 ∧ ∃ m', (ofFuel k).promiseOfAction a m = .error .exhausted m') ∨
      ∃ promise m', (ofFuel k).promiseOfAction a m = .ok (.object promise) m' ∧
        m'.HandsOn (a m) (await (.object promise) m') := by
  cases ha : a m with
  | error e m₁ =>
    cases e with
    | thrown reason =>
      rw [promiseOfAction_of_thrown ha]
      exact newSettledPromise_handsOn rfl fun m' => .thrown
    | broken cause => exact absurd trivial (hnot _ _ ha)
    | exhausted => exact absurd trivial (hnot _ _ ha)
  | ok v m₁ =>
    rw [promiseOfAction_of_ok ha]
    have hnew (id : ObjectId) (heq : v = .object id) : id ≠ ⟨m₁.heap.size⟩ := hold id m₁ (heq ▸ ha)
    obtain ⟨hvalue, hlent, hwaits⟩ := resolvePromise_withPromise (ofFuel k) hnew
    by_cases hv : ∀ id, v = .object id → m₁.heap.stateOf id = none
    · exact newSettledPromise_handsOn (hvalue hv) fun m' => .value hv
    -- Else it is a promise, and its state decides.
    · obtain ⟨id, rfl, hstate⟩ : ∃ id, v = .object id ∧ m₁.heap.stateOf id ≠ none := by
        simpa using hv
      obtain ⟨state, hstate⟩ := Option.ne_none_iff_exists'.mp hstate
      cases state with
      | settled outcome =>
        refine newSettledPromise_handsOn (hlent id outcome rfl hstate) fun m' => ?_
        cases outcome with
        | fulfilled v => exact .fulfilled hstate
        | rejected reason => exact .rejected hstate
      | pending decided reactions =>
        refine .inr ⟨⟨m₁.heap.size⟩, waiting m₁ id decided reactions, ?_, ?_⟩
        · rw [newSettledPromise_apply, bind_apply, hwaits id decided reactions rfl hstate]
          rfl
        · have hpending : (waiting m₁ id decided reactions).heap.stateOf ⟨m₁.heap.size⟩ =
              some (.pending false []) :=
            (Machine.stateOf_withState_of_ne (hnew id rfl).symm _).trans m₁.stateOf_withPromise_new
          rw [await_of_pending hpending]
          exact .pending hstate

end Engine

/-! ## Sessions -/

namespace Machine

variable {suites : Prop} {accepted : Program → Prop} {k : Nat} {f : ObjectId} {receiver : Value}
  {args : List Value} {node : FunctionNode} {scope : FrameId} {home : Option ObjectId}

/-- What the body of a call returns was there when the body ended. -/
theorem Asked.returned_lt (h : m.Asked suites accepted (k + 1) (.call f receiver args))
    (hf : (m.heap.get f).callable? = some (.closure node scope home))
    (hbody : (ofFuel k).bodyOfCall node scope home receiver args m = .ok (.object id) m₁) :
    id.index < m₁.heap.size := by
  obtain ⟨hidden, hm, hq⟩ := h.fits
  have := behaves_ofFuel (Law.records_lax suites) k
  let K := m.knowledge (.lax suites) hidden
  have hobject : Shown K (m.heap.get f) := ⟨hm.objects f⟩
  have hcallable : Shown K (m.heap.get f).callable? := inferInstance
  rw [hf] at hcallable
  have hclosure : Shown K (Callable.closure node scope home) := ⟨hcallable.facts_subset⟩
  have : Shown K scope := .covered (Callable.closure node scope home)
  have : Placed K home := .covered node scope home
  have : Shown K (Framed.mk (if node.isArrow then some scope else none) node) := hclosure.part
  have : Shown K receiver := ⟨fun _ hfact => hq (.inl (.inr hfact))⟩
  have : Shown K args := ⟨fun _ hfact => hq (.inr hfact)⟩
  have hconducts : (Law.lax suites).Conducts K
      ((ofFuel k).bodyOfCall node scope home receiver args) :=
    (Law.Conducts.leaves_callFrame scope node home receiver args).andThen fun frame =>
      Law.Conducts.runBody_codeFacts frame node args
  have hend := hconducts.ends hm.meets
  rw [hbody] at hend
  cases hend with
  | ok _ hreturned =>
    have hobject : m₁.Grants (.lax suites) hidden (.object id) := hreturned (.inl rfl)
    exact hobject.1

/-- **A call of an asynchronous function hands on how its body ends.**  In a session it never throws,
whatever its parameters and its body throw.  Where its body ends the whole run, so does the call.
Where the body returns or throws, the call gives a promise, unless no step is left to settle it;
and an `await` of that promise, at once, gives what the body returned or throws what the body threw.
If the body returned a promise, then it gives the value or throws the reason that this was settled
with; and if that promise is pending, and in no other case, it throws the `TypeError` that says
so.  The expression `await` does this with the value of its operand. -/
theorem Asked.await_call_async (h : m.Asked suites accepted (k + 1) (.call f receiver args))
    (hf : (m.heap.get f).callable? = some (.closure node scope home))
    (hasync : node.isAsync = true) :
    (∀ reason m', (ofFuel (k + 1)).call f receiver args m ≠ .error (.thrown reason) m') ∧
    (∀ e m₁, (ofFuel k).bodyOfCall node scope home receiver args m = .error e m₁ → e.Fatal →
      (ofFuel (k + 1)).call f receiver args m = .error e m₁) ∧
    ((∀ e m₁, (ofFuel k).bodyOfCall node scope home receiver args m = .error e m₁ → ¬ e.Fatal) →
      (k = 0 ∧ ∃ m', (ofFuel (k + 1)).call f receiver args m = .error .exhausted m') ∨
        ∃ promise m', (ofFuel (k + 1)).call f receiver args m = .ok (.object promise) m' ∧
          m'.HandsOn ((ofFuel k).bodyOfCall node scope home receiver args m)
            (await (.object promise) m')) ∧
    (∀ (engine : Engine) name inner operand v n n', engine.evaluate inner operand n = .ok v n' →
      engine.evaluateExpression name inner (.await operand) n = await v n') ∧
    ∀ n : Machine, n.errorOf .awaitPending =
      (Object.new n.realm.typeErrorPrototype .error).insertHidden "message"
        (.ofText "await on a promise that is still pending") := by
  have := quiet_ofFuel k
  have hcall : (ofFuel (k + 1)).call f receiver args m =
      (ofFuel k).promiseOfAction ((ofFuel k).bodyOfCall node scope home receiver args) m :=
    callFunction_of_isAsync hf hasync receiver args
  rw [hcall]
  refine ⟨fun reason m' => ?_, fun e m₁ hbody he => promiseOfAction_of_fatal he hbody,
    fun hnot => ?_,
    fun engine name inner operand v n n' hrun => ?_, fun n => rfl⟩
  · have hquiet : ((ofFuel k).promiseOfAction
        ((ofFuel k).bodyOfCall node scope home receiver args)).Quiet := inferInstance
    exact hquiet.ne_thrown m reason m'
  · refine promiseOfAction_handsOn k hnot fun id m₁ hbody heq => ?_
    have hlt := h.returned_lt hf hbody
    rw [heq] at hlt
    exact hlt.false
  · rw [evaluateExpression, bind_apply, hrun]

/-- The object is an asynchronous function, and is there. -/
def holdsAsync (m : Machine) (f : ObjectId) : Bool :=
  decide (f.index < m.heap.size) &&
    match (m.heap.get f).callable? with
    | some (.closure node _ _) => node.isAsync
    | _ => false

theorem exists_of_holdsAsync (h : m.holdsAsync f = true) :
    f.index < m.heap.size ∧ ∃ node scope home,
      (m.heap.get f).callable? = some (.closure node scope home) ∧ node.isAsync = true := by
  obtain ⟨hsize, hasync⟩ := Bool.and_eq_true_iff.mp h
  refine ⟨of_decide_eq_true hsize, ?_⟩
  split at hasync
  · next node scope home hf => exact ⟨node, scope, home, hf, hasync⟩
  · cases hasync

/-- The host runs `async x => x`, and calls the function that it gets. -/
theorem Asked.await_call_async_identity : ∃ k f node scope home,
    let m := (initial.evaluate "async x => x").machine
    m.Asked False (fun _ => True) (k + 1) (.call f .undefined [.null]) ∧
      (m.heap.get f).callable? = some (.closure node scope home) ∧ node.isAsync = true ∧
      ∀ reason m', (ofFuel (k + 1)).call f .undefined [.null] m ≠ .error (.thrown reason) m' := by
  obtain ⟨k, hk⟩ : ∃ k, standardFuel = k + 1 := ⟨standardFuel - 1, rfl⟩
  have hholds : (initial.evaluate "async x => x").machine.holdsAsync ⟨122⟩ = true := by
    decide +kernel
  have hhosted : (initial.evaluate "async x => x").machine.Hosted False fun _ => True :=
    Hosted.initial.evaluate fun _ _ => trivial
  generalize (initial.evaluate "async x => x").machine = m at hholds hhosted
  obtain ⟨hsize, node, scope, home, hf, hasync⟩ := exists_of_holdsAsync hholds
  have hcallable : m.heap.isCallable (.object ⟨122⟩) = true := by
    simp [Heap.isCallable, Object.isCallable, hf]
  have hasks : (ofFuel standardFuel).Asks (·.callValue (.object ⟨122⟩) .undefined [.null]) m
      (.call ⟨122⟩ .undefined [.null]) m := by
    refine asks_of_halts fun h => ?_
    simp [callValue, bind_apply, readHeap, hcallable, Engine.haltingAt, Action.haltingAt]
  have hasked : m.Asked False (fun _ => True) (k + 1) (.call ⟨122⟩ .undefined [.null]) := by
    refine hk ▸ .call hhosted (fun v hv => ?_) (.direct hasks)
    obtain rfl | rfl | rfl : v = .object ⟨122⟩ ∨ v = .undefined ∨ v = .null := by simpa using hv
    · exact hsize
    · trivial
    · trivial
  exact ⟨k, ⟨122⟩, node, scope, home, hasked, hf, hasync, (hasked.await_call_async hf hasync).1⟩

end Machine

end EcmaEval
