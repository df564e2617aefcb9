import EcmaEval.Proofs.Conduct.Part
import EcmaEval.Proofs.Conduct.Names

/-!
# Promises in a session

A promise is settled once.  The settlement sets its state, and then runs what waited for it, each
reaction once and in the order in which they came; what the reactions run may look at the promise,
attach other reactions and use its resolvers again, and finds it settled.

A reaction never throws: what its handler throws goes on to the promise that is derived.  And a
reaction asks for nothing but its own handler and the settlement of that promise.

## Main definitions

* `Machine.withState`: a machine with another state of a promise
* `Heap.Decided`: the resolvers of a promise are used up
* `Machine.recording`: the law that records settlements
* `Machine.SettledBetween`: promises are settled by settlements that run all their reactions

## Main results

* `Engine.asks_runReaction`: what a reaction asks for
* `Machine.Asked.promises_settle_once`: in a session promises are settled once
-/

namespace EcmaEval

open EcmaEval.Action Engine Discipline

variable {m m' : Machine} {q : Query} {engine : Engine}

/-! ## States of promises -/

/-- The machine with another state of a promise. -/
def Machine.withState (m : Machine) (id : ObjectId) (state : PromiseState) : Machine :=
  { m with heap := m.heap.modify id ({ · with kind := .promise state }) }

namespace Heap

variable {h h' : Heap} {id : ObjectId} {state : PromiseState}

/-- A promise is in the heap. -/
theorem lt_size_of_stateOf (hstate : h.stateOf id = some state) : id.index < h.size := by
  by_contra hid
  rw [stateOf, h.get_of_size_le (Nat.le_of_not_lt hid)] at hstate
  cases hstate

/-- The resolvers of a promise are used up: one of them was called, or the promise is settled. -/
def Decided (h : Heap) (id : ObjectId) : Prop :=
  ∃ state, h.stateOf id = some state ∧ ∀ reactions, state ≠ .pending false reactions

/-- Resolvers that are used up stay so. -/
theorem Decided.leads (hdecided : h.Decided id) (hleads : h.Leads h') : h'.Decided id := by
  obtain ⟨state, hstate, hne⟩ := hdecided
  have hlead := hleads id
  rw [hstate] at hlead
  generalize hstate' : h'.stateOf id = state' at hlead
  cases hlead with
  | @wait decided decided' reactions more hmore =>
    cases decided with
    | false => exact absurd rfl (hne reactions)
    | true =>
      refine ⟨_, hstate', fun reactions' heq => ?_⟩
      have htrue := hmore rfl
      rw [PromiseState.pending.inj heq |>.1] at htrue
      cases htrue
  | settle => exact ⟨_, hstate', fun _ => nofun⟩
  | stay => exact ⟨_, hstate', fun _ => nofun⟩

end Heap

theorem Machine.stateOf_withState {id : ObjectId} {before : PromiseState}
    (hstate : m.heap.stateOf id = some before) (state : PromiseState) :
    (m.withState id state).heap.stateOf id = some state := by
  have hget := m.heap.get_modify_self (Heap.lt_size_of_stateOf hstate)
    ({ · with kind := .promise state })
  rw [Heap.stateOf, Machine.withState, hget]
  rfl

/-! ## What a reaction asks for -/

theorem Action.haltingAt_of_not {α : Type} {condition : Prop} (hnot : ¬ condition) (m : Machine)
    (h : Halt) (a : Action α) : a.haltingAt condition m h = a := by
  funext m'
  exact if_neg fun hpoint => hnot hpoint.1

namespace Engine

variable {outcome : Settlement} {reaction : Reaction} {h : Halt}

theorem callValue_haltingAt {v this : Value} {args : List Value}
    (hnot : ∀ id, v = .object id → q ≠ .call id this args) :
    (engine.haltingAt q m h).callValue v this args = engine.callValue v this args := by
  unfold callValue
  cases v with
  | object id =>
    have heq : (engine.haltingAt q m h).call id this args = engine.call id this args :=
      haltingAt_of_not (hnot id rfl) m h _
    refine congrArg (readHeap _ >>= ·) (funext fun callable => ?_)
    cases callable with
    | false => rfl
    | true => exact heq
  | _ => rfl

theorem resolvePromise_haltingAt {id : ObjectId} (hnot : ∀ outcome, q ≠ .settle id outcome)
    (v : Value) : (engine.haltingAt q m h).resolvePromise id v = engine.resolvePromise id v := by
  have heq (outcome : Settlement) :
      (engine.haltingAt q m h).settle id outcome = engine.settle id outcome :=
    haltingAt_of_not (hnot outcome) m h _
  unfold resolvePromise
  simp only [heq]

/-- A reaction asks for its handler of the outcome, called with the value of the outcome, and for
the settlement of the derived promise; and for nothing else. -/
theorem asks_runReaction (hasks : engine.Asks (·.runReaction outcome reaction) m q m') :
    (∃ id, reaction.handler outcome = .object id ∧ q = .call id .undefined [outcome.value]) ∨
      ∃ outcome', q = .settle reaction.derived outcome' := by
  by_contra hnot
  simp only [not_or, not_exists, not_and] at hnot
  obtain ⟨hcall, hsettle⟩ := hnot
  -- At any other query it makes no difference how the engine breaks down.
  have hsame (h : Halt) :
      (engine.haltingAt q m' h).runReaction outcome reaction = engine.runReaction outcome reaction := by
    have heq (outcome' : Settlement) : (engine.haltingAt q m' h).settle reaction.derived outcome' =
        engine.settle reaction.derived outcome' :=
      haltingAt_of_not (hsettle outcome') m' h _
    unfold runReaction
    simp only [callValue_haltingAt hcall, resolvePromise_haltingAt hsettle, heq]
  obtain ⟨h, h', hne⟩ := hasks
  exact hne ((congrFun (hsame h) m).trans (congrFun (hsame h') m).symm)

/-- Where the handler of the outcome is a function, it is called. -/
theorem asks_handler (hcallable : m.heap.isCallable (reaction.handler outcome) = true) :
    ∃ id, reaction.handler outcome = .object id ∧
      engine.Asks (·.runReaction outcome reaction) m (.call id .undefined [outcome.value]) m := by
  cases hhandler : reaction.handler outcome with
  | object id =>
    refine ⟨id, rfl, asks_of_halts fun h => ?_⟩
    rw [hhandler] at hcallable
    simp [runReaction, hhandler, callValue, bind_apply, readHeap, hcallable, attempt,
      Engine.haltingAt, Action.haltingAt]
  | _ =>
    rw [hhandler] at hcallable
    cases hcallable

end Engine

/-! ## Settlements -/

/-- A settlement ends where its reactions end. -/
theorem Engine.settlePromise_eq {id : ObjectId} {decided : Bool} {reactions : List Reaction}
    (hstate : m.heap.stateOf id = some (.pending decided reactions)) (outcome : Settlement) :
    engine.settlePromise id outcome m =
      reactions.forM (engine.runReaction outcome) (m.withState id (.settled outcome)) :=
  Law.settlePromise_of_pending hstate outcome

namespace Machine

variable {L : Law} {hidden : Set ObjectId} {suites : Prop} {accepted : Program → Prop} {k : Nat}

/-- The law that records settlements. -/
def recording (suites : Prop) : Law where
  suites := suites
  free _ _ := True
  completes id outcome m m' := ∃ j, (ofFuel j).settlePromise id outcome m = .ok () m'
  stops id outcome m m' := ∃ j e, (ofFuel j).settlePromise id outcome m = .error e m'

theorem records_recording (suites : Prop) : (recording suites).Records :=
  ⟨fun h => ⟨_, h⟩, fun h => ⟨_, _, h⟩⟩

/-- What fits may be recorded. -/
theorem Asked.fits_recording (h : m.Asked suites accepted k q) : q.Fits (recording suites) m := by
  obtain ⟨hidden, hm, hq⟩ := h.fits
  have hgranted : m.granted (recording suites) hidden = m.granted (.lax suites) hidden := by
    ext fact
    cases fact <;> exact Iff.rfl
  refine ⟨hidden, hm.under id id fun _ _ _ => trivial, hgranted ▸ hq⟩

/-- A promise that was pending and is settled was settled in between.  The settlement began at a
machine that came to be from the first one; all that waited then, first of all what waits in the
first machine, ran from there in order, each once; and the second machine came to be from where the
last of them ended.  Only where suites may be there, the settlement may have been stopped. -/
def SettledBetween (suites : Prop) (m m' : Machine) : Prop :=
  ∀ id decided reactions outcome, m.heap.stateOf id = some (.pending decided reactions) →
    m'.heap.stateOf id = some (.settled outcome) →
    ∃ (j : Nat) (m₁ m₂ : Machine) (decided' : Bool) (more : List Reaction),
      m.heap.Leads m₁.heap ∧
      m₁.heap.stateOf id = some (.pending decided' (reactions ++ more)) ∧
      ((reactions ++ more).forM ((ofFuel j).runReaction outcome)
          (m₁.withState id (.settled outcome)) = .ok () m₂ ∨
        suites ∧ ∃ e, (reactions ++ more).forM ((ofFuel j).runReaction outcome)
          (m₁.withState id (.settled outcome)) = .error e m₂) ∧
      m₂.heap.Leads m'.heap

theorem settledBetween_of_settles (h : (recording suites).Settles suites m m') :
    m.SettledBetween suites m' := by
  intro id decided reactions outcome hpending hsettled
  rcases h id outcome hsettled with
    hbefore | ⟨m₁, m₂, decided', reactions', hbefore, hwaits, hran, hafter⟩
  · rw [hpending] at hbefore
    cases hbefore
  -- What waits when the settlement begins is what waited before, and more behind it.
  · have hlead := hbefore id
    rw [hpending, hwaits] at hlead
    obtain ⟨more, rfl⟩ : ∃ more, reactions' = reactions ++ more := by
      generalize hstate : some (PromiseState.pending decided' reactions') = state at hlead
      cases hlead with
      | wait more _ =>
        cases hstate
        exact ⟨more, rfl⟩
      | settle => cases hstate
    rcases hran with ⟨j, hrun⟩ | ⟨hsuites, j, e, hrun⟩
    · rw [settlePromise_eq hwaits] at hrun
      exact ⟨j, m₁, m₂, decided', more, hbefore, hwaits, .inl hrun, hafter⟩
    · rw [settlePromise_eq hwaits] at hrun
      exact ⟨j, m₁, m₂, decided', more, hbefore, hwaits, .inr ⟨hsuites, e, hrun⟩, hafter⟩

/-- Where a run ends in no fatal way, promises are settled by settlements. -/
theorem settledBetween_of_ends {α : Type} {post : α → Set Fact}
    {result : EStateM.Result Abrupt Machine α} (h : (recording suites).Ends hidden m post result)
    (hend : (∃ x, result = .ok x m') ∨ ∃ v, result = .error (.thrown v) m') :
    m.SettledBetween suites m' := by
  rcases hend with ⟨x, rfl⟩ | ⟨v, rfl⟩
  · cases h with
    | ok hstep _ => exact settledBetween_of_settles hstep.settles
  · cases h with
    | error hstep _ =>
      exact settledBetween_of_settles (hstep.settles.mono (·.elim id False.elim))

theorem Asked.settledBetween (h : m.Asked suites accepted k q)
    (hend : (∃ x, (ofFuel k).answer q m = .ok x m') ∨
      ∃ v, (ofFuel k).answer q m = .error (.thrown v) m') : m.SettledBetween suites m' := by
  obtain ⟨hidden, hm, hq⟩ := h.fits_recording
  have := behaves_ofFuel (records_recording suites) k
  have hanswer : (recording suites).Ends hidden m _ ((ofFuel k).answer q m) := ends_answer hm hq
  exact settledBetween_of_ends hanswer hend

theorem Hosted.settledBetween (h : m.Hosted suites accepted) (p : Program)
    (hend : (∃ x, standard.executeProgram m.realm.programFrame p m = .ok x m') ∨
      ∃ v, standard.executeProgram m.realm.programFrame p m = .error (.thrown v) m') :
    m.SettledBetween suites m' := by
  have hfree (id : FrameId) (name : String) : (recording suites).free id name := trivial
  have : standard.Behaves (recording suites) := behaves_ofFuel (records_recording suites) _
  have hadmits (p : Program) : (recording suites).Admits p := False.elim
  have hm := h.sound (records_recording suites) hfree id fun p _ => hadmits p
  exact settledBetween_of_ends (hm.ends_program hfree standard (hadmits p)) hend

/-- While the reactions to a promise run, it is settled. -/
theorem Asked.stateOf_during {id : ObjectId} {outcome : Settlement} {j : Nat}
    (h : m.Asked suites accepted (j + 1) (.settle id outcome)) {decided : Bool}
    {before after : List Reaction}
    (hstate : m.heap.stateOf id = some (.pending decided (before ++ after)))
    (hran : before.forM ((ofFuel j).runReaction outcome) (m.withState id (.settled outcome)) =
      .ok () m') : m'.heap.stateOf id = some (.settled outcome) := by
  obtain ⟨hidden, hm, hq⟩ := h.fits
  have hbehaves := behaves_ofFuel (Law.records_lax suites) j
  let L := Law.lax suites
  have hfacts : facts (before ++ after) ⊆ m.granted L hidden := by
    have hfacts := hm.state id
    rw [hstate] at hfacts
    exact hfacts
  have houtcome : facts (ObjectKind.promise (.settled outcome)) ⊆ m.granted L hidden :=
    fun _ hf => hq (.inr hf)
  obtain ⟨hsound, hgrows⟩ := hm.setKind id houtcome (fun _ => rfl) (fun _ => rfl) (fun _ => rfl)
    (hstate ▸ .settle ..) (Heap.fillable_of_stateOf hstate)
  have hmono := granted_mono hm hgrows
  let K := (m.withState id (.settled outcome)).knowledge L hidden
  have hshown : Shown K (before ++ after) := ⟨hfacts.trans hmono⟩
  have : Shown K before := .sublist fun _ => List.mem_append_left after
  have : Shown K outcome := ⟨fun _ hf => hmono (hq (.inr hf))⟩
  have hend : L.Ends hidden _ facts
      (before.forM ((ofFuel j).runReaction outcome) (m.withState id (.settled outcome))) :=
    Law.Conducts.ends (K := K) inferInstance hsound.meets
  rw [hran] at hend
  cases hend with
  | ok hstep _ =>
    have hlead := hstep.grows.leads id
    rw [stateOf_withState hstate] at hlead
    generalize m'.heap.stateOf id = state at hlead
    cases hlead
    rfl

end Machine

/-! ## Reactions that are attached -/

/-- The machine with a new promise. -/
def Machine.withPromise (m : Machine) : Machine :=
  { m with heap :=
      (m.heap.allocate (.new m.realm.promisePrototype (.promise (.pending false [])))).2 }

theorem Machine.stateOf_withPromise {id : ObjectId} {state : PromiseState}
    (hstate : m.heap.stateOf id = some state) : m.withPromise.heap.stateOf id = some state := by
  rw [← hstate, Heap.stateOf, withPromise,
    m.heap.get_allocate_of_lt _ (Heap.lt_size_of_stateOf hstate), Heap.stateOf]

theorem Engine.promiseOf?_of_stateOf {id : ObjectId} {state : PromiseState}
    (hstate : m.heap.stateOf id = some state) :
    promiseOf? (.object id) m = .ok (some (id, state)) m := by
  have hread : (m.heap.get id).promiseState? = some state := hstate
  simp [promiseOf?, readHeap, Value.object?, hread]

/-- What is attached to a pending promise waits behind what waits already; nothing runs. -/
theorem Engine.attachReaction_of_pending {id : ObjectId} {decided : Bool}
    {reactions : List Reaction} (hstate : m.heap.stateOf id = some (.pending decided reactions))
    (onFulfilled onRejected : Value) :
    engine.attachReaction (.object id) onFulfilled onRejected m =
      .ok (.object ⟨m.heap.size⟩) (m.withPromise.withState id
        (.pending decided (reactions ++ [⟨onFulfilled, onRejected, ⟨m.heap.size⟩⟩]))) := by
  have hnew : newPromise m = .ok ⟨m.heap.size⟩ m.withPromise := rfl
  have hread : promiseState? id m.withPromise = .ok (some (.pending decided reactions)) m.withPromise :=
    congrArg (EStateM.Result.ok · _) (Machine.stateOf_withPromise hstate)
  unfold attachReaction
  simp only [bind_apply, promiseOf?_of_stateOf hstate, hnew, addReaction, hread]
  rfl

/-- What is attached to a settled promise runs at once. -/
theorem Engine.attachReaction_of_settled {id : ObjectId} {outcome : Settlement}
    (hstate : m.heap.stateOf id = some (.settled outcome)) (onFulfilled onRejected : Value) :
    engine.attachReaction (.object id) onFulfilled onRejected m =
      (do
        engine.runReaction outcome ⟨onFulfilled, onRejected, ⟨m.heap.size⟩⟩
        return Value.object ⟨m.heap.size⟩) m.withPromise := by
  have hnew : newPromise m = .ok ⟨m.heap.size⟩ m.withPromise := rfl
  unfold attachReaction
  simp only [bind_apply, promiseOf?_of_stateOf hstate, hnew]

/-! ## Resolvers -/

/-- The function object is one of the two resolvers of a promise. -/
def Machine.Resolves (m : Machine) (f id : ObjectId) : Prop :=
  ∃ fulfills, (m.heap.get f).callable? = some (.native (.resolver id fulfills))

namespace Engine

variable {id : ObjectId}

/-- What the first use of a resolver does, when the promise is marked. -/
def resolveOnce (engine : Engine) (id : ObjectId) (fulfills : Bool) (v : Value) : Action Value := do
  if fulfills then engine.resolvePromise id v else engine.settle id (.rejected v)
  return .undefined

theorem callFunction_of_native {f : ObjectId} {g : Native}
    (hf : (m.heap.get f).callable? = some (.native g)) (this : Value) (args : List Value) :
    engine.callFunction f this args m = underTarget none (engine.callNative g this args) m := by
  unfold callFunction
  rw [readHeap_bind, hf]

/-- Where the resolvers are used up, a call of one has no effect. -/
theorem callResolver_of_decided (hdecided : m.heap.Decided id) (fulfills : Bool) (v : Value) :
    engine.callResolver id fulfills v m = .ok .undefined m := by
  obtain ⟨state, hstate, hne⟩ := hdecided
  unfold callResolver promiseState?
  rw [readHeap_bind, ← Heap.stateOf, hstate]
  cases state with
  | settled outcome => rfl
  | pending decided reactions =>
    cases decided with
    | false => exact absurd rfl (hne reactions)
    | true => rfl

/-- The first use of a resolver marks the promise first. -/
theorem callResolver_of_first {reactions : List Reaction}
    (hstate : m.heap.stateOf id = some (.pending false reactions)) (fulfills : Bool) (v : Value) :
    engine.callResolver id fulfills v m =
      engine.resolveOnce id fulfills v (m.withState id (.pending true reactions)) := by
  unfold callResolver promiseState?
  rw [readHeap_bind, ← Heap.stateOf, hstate]
  rfl

instance {h h' : Halt} {engine engine' : Engine} [Engine.Alike h h' engine engine'] (fulfills : Bool)
    (v : Value) :
    EcmaEval.Alike h h' (engine.resolveOnce id fulfills v) (engine'.resolveOnce id fulfills v) := by
  unfold resolveOnce
  infer_instance

instance {L : Law} {K : Knowledge} [engine.Behaves L] (fulfills : Bool) (v : Value) [Shown K id]
    [Shown K v] : L.Conducts K (engine.resolveOnce id fulfills v) := by
  unfold resolveOnce
  infer_instance

end Engine

/-- Where a part ends is where its answer has grown to. -/
theorem Engine.EndsIn.grows_of_ends {L : Law} {hidden : Set ObjectId} {n : Machine}
    {post : q.Answer → Set Fact} (hend : engine.EndsIn q m m')
    (h : L.Ends hidden n post (engine.answer q m)) : L.Grows n m' := by
  cases hend with
  | ok hend =>
    rw [hend] at h
    cases h with
    | ok hstep _ => exact hstep.grows
  | error hend =>
    rw [hend] at h
    cases h with
    | error hstep _ => exact hstep.grows

namespace Machine

variable {suites : Prop} {accepted : Program → Prop} {k : Nat} {f id : ObjectId} {this : Value}
  {args : List Value}

/-- Where the resolvers are used up, a call of one has no effect. -/
theorem Resolves.callFunction_of_decided (hf : m.Resolves f id) (hdecided : m.heap.Decided id)
    (engine : Engine) (this : Value) (args : List Value) :
    engine.callFunction f this args m = .ok .undefined m := by
  obtain ⟨fulfills, hf⟩ := hf
  rw [callFunction_of_native hf]
  unfold underTarget callNative
  dsimp only
  rw [callResolver_of_decided (m := { m with newTarget := none }) hdecided]

/-- The first use of a resolver, from where the promise is marked. -/
theorem Sound.ends_resolveOnce {L : Law} {hidden : Set ObjectId} (hm : m.Sound L hidden)
    (hargs : facts args ⊆ m.granted L hidden) {fulfills : Bool}
    (hf : (m.heap.get f).callable? = some (.native (.resolver id fulfills)))
    {reactions : List Reaction} (hstate : m.heap.stateOf id = some (.pending false reactions))
    (engine : Engine) [engine.Behaves L] :
    L.Ends hidden (m.withState id (.pending true reactions)) facts
      (underTarget none (engine.resolveOnce id fulfills (.argument args 0))
        (m.withState id (.pending true reactions))) := by
  have hmark : facts (ObjectKind.promise (.pending true reactions)) ⊆ m.granted L hidden := by
    have hfacts := hm.state id
    rw [hstate] at hfacts
    exact hfacts
  obtain ⟨hsound, hgrows⟩ := hm.setKind id hmark (fun _ => rfl) (fun _ => rfl) (fun _ => rfl)
    (hstate ▸ .keep reactions fun _ => rfl) (Heap.fillable_of_stateOf hstate)
  have hmono := granted_mono hm hgrows
  let K := (m.withState id (.pending true reactions)).knowledge L hidden
  -- The resolver names its promise.
  have hid : Shown (m.knowledge L hidden) id := by
    have hobject : Shown (m.knowledge L hidden) (m.heap.get f) := ⟨hm.objects f⟩
    have hcallable : Shown (m.knowledge L hidden) (m.heap.get f).callable? := inferInstance
    rw [hf] at hcallable
    exact ⟨hcallable.facts_subset⟩
  have : Shown K id := ⟨hid.facts_subset.trans hmono⟩
  have : Shown K args := ⟨hargs.trans hmono⟩
  have hconducts : L.Conducts K (engine.resolveOnce id fulfills (.argument args 0)) := inferInstance
  refine .underTarget hsound (hconducts.ends ⟨?_, Set.Subset.rfl⟩)
  exact hsound.withRegisters rfl rfl hsound.realm hsound.signal (Set.empty_subset _)

/-- Until the first call of a resolver ends, and until any part of it starts, the resolvers are used
up. -/
theorem Asked.decided (h : m.Asked suites accepted (k + 1) (.call f this args))
    (hf : m.Resolves f id) {state : PromiseState} (hstate : m.heap.stateOf id = some state) :
    (∀ m', (ofFuel (k + 1)).EndsIn (.call f this args) m m' → m'.heap.Decided id) ∧
    ∀ q m', (ofFuel k).Asks (·.phrase (.call f this args)) m q m' → m'.heap.Decided id := by
  by_cases hdecided : m.heap.Decided id
  -- A call without an effect asks for nothing, and leaves the machine as it is.
  · have hcall (engine : Engine) := hf.callFunction_of_decided hdecided engine this args
    refine ⟨fun m' hend => ?_, fun q m' hasks => ?_⟩
    · cases hend with
      | ok hend =>
        cases (hcall (ofFuel k)).symm.trans hend
        exact hdecided
      | error hend => cases (hcall (ofFuel k)).symm.trans hend
    · obtain ⟨h, h', hne⟩ := hasks
      exact absurd ((hcall _).trans (hcall _).symm) hne
  -- The first use marks the promise, and what it does starts there.
  · obtain ⟨reactions, rfl⟩ : ∃ reactions, state = .pending false reactions := by
      by_contra hne
      exact hdecided ⟨state, hstate, not_exists.mp hne⟩
    obtain ⟨fulfills, hf⟩ := hf
    obtain ⟨hidden, hm, hq⟩ := h.fits
    let marked := m.withState id (.pending true reactions)
    have hmarked : marked.heap.Decided id := ⟨_, stateOf_withState hstate _, fun _ => nofun⟩
    have hcall (engine : Engine) : engine.callFunction f this args m =
        underTarget none (engine.resolveOnce id fulfills (.argument args 0)) marked := by
      rw [callFunction_of_native hf]
      unfold underTarget callNative
      dsimp only
      rw [callResolver_of_first (m := { m with newTarget := none }) hstate]
      rfl
    have hends (engine : Engine) [engine.Behaves (.lax suites)] :=
      hm.ends_resolveOnce (fun _ hf => hq (.inr hf)) hf hstate engine
    have := behaves_ofFuel (Law.records_lax suites) k
    have := quiet_ofFuel k
    refine ⟨fun m' hend => hmarked.leads ?_, fun q m' hasks => hmarked.leads ?_⟩
    · have hended := hends (ofFuel k)
      rw [← hcall] at hended
      exact (hend.grows_of_ends hended).leads
    · have hasks' : (ofFuel k).Asks
          (fun engine => underTarget none (engine.resolveOnce id fulfills (.argument args 0)))
          marked q m' := by
        obtain ⟨h, h', hne⟩ := hasks
        exact ⟨h, h', fun heq => hne ((hcall _).trans (heq.trans (hcall _).symm))⟩
      exact (hasks'.grows (fun engine => hends engine) fun _ => Alike.ends _).leads

/-- **Promises are settled once.**  From one machine of a session to a later one a promise goes at
most from pending to settled: while it is pending, reactions come behind those that wait, and when it
is settled its outcome stays; and resolvers that are used up stay so.  A run that ends in no fatal way
settles a promise by a settlement that runs all that waited, each reaction once and in order.  While
these run the promise is settled; and what is attached to a promise runs only if that is settled.  A
reaction calls its handler of the outcome, with the value of the outcome, and no other function.
From the first call of a resolver on, the resolvers of the promise are used up, and a call of one has
no effect.  No settlement throws. -/
theorem Asked.promises_settle_once (h : m.Asked suites accepted k q) :
    (∀ m₁ m₂, Precedes suites accepted m₁ m₂ → m₁.heap.Leads m₂.heap ∧
      ∀ id, m₁.heap.Decided id → m₂.heap.Decided id) ∧
    (∀ m', ((∃ x, (ofFuel k).answer q m = .ok x m') ∨
        ∃ v, (ofFuel k).answer q m = .error (.thrown v) m') → m.SettledBetween suites m') ∧
    (∀ m₁ m₂ p, m₁.Hosted suites accepted →
      ((∃ x, standard.executeProgram m₁.realm.programFrame p m₁ = .ok x m₂) ∨
        ∃ v, standard.executeProgram m₁.realm.programFrame p m₁ = .error (.thrown v) m₂) →
      m₁.SettledBetween suites m₂) ∧
    (∀ j id outcome, k = j + 1 → q = .settle id outcome →
      ((∀ decided reactions, m.heap.stateOf id ≠ some (.pending decided reactions)) →
        (ofFuel k).settle id outcome m = .ok () m) ∧
      ∀ decided before after,
        m.heap.stateOf id = some (.pending decided (before ++ after)) →
          (ofFuel k).settle id outcome m = (before ++ after).forM ((ofFuel j).runReaction outcome)
            (m.withState id (.settled outcome)) ∧
          ∀ m', before.forM ((ofFuel j).runReaction outcome) (m.withState id (.settled outcome)) =
            .ok () m' → m'.heap.stateOf id = some (.settled outcome)) ∧
    (∀ (engine : Engine) m₁ id onFulfilled onRejected,
      let derived : ObjectId := ⟨m₁.heap.size⟩
      (∀ decided reactions, m₁.heap.stateOf id = some (.pending decided reactions) →
        engine.attachReaction (.object id) onFulfilled onRejected m₁ =
          .ok (.object derived) (m₁.withPromise.withState id
            (.pending decided (reactions ++ [⟨onFulfilled, onRejected, derived⟩])))) ∧
      ∀ outcome, m₁.heap.stateOf id = some (.settled outcome) →
        engine.attachReaction (.object id) onFulfilled onRejected m₁ =
          (do engine.runReaction outcome ⟨onFulfilled, onRejected, derived⟩
              return Value.object derived) m₁.withPromise) ∧
    (∀ (engine : Engine) outcome reaction m₁,
      (m₁.heap.isCallable (reaction.handler outcome) = true → ∃ f,
        reaction.handler outcome = .object f ∧ engine.Asks (·.runReaction outcome reaction) m₁
          (.call f .undefined [outcome.value]) m₁) ∧
      ∀ q' m₂, engine.Asks (·.runReaction outcome reaction) m₁ q' m₂ →
        (∃ f, reaction.handler outcome = .object f ∧
          q' = .call f .undefined [outcome.value]) ∨
        ∃ outcome', q' = .settle reaction.derived outcome') ∧
    (∀ j f this args id state, k = j + 1 → q = .call f this args → m.Resolves f id →
      m.heap.stateOf id = some state →
        (m.heap.Decided id → ∀ engine : Engine, engine.callFunction f this args m =
          .ok .undefined m) ∧
        (∀ m', (ofFuel k).EndsIn q m m' → m'.heap.Decided id) ∧
        ∀ q' m', (ofFuel j).Asks (·.phrase q) m q' m' → m'.heap.Decided id) ∧
    (∀ id outcome v reason m₁ m₂,
      (ofFuel k).settle id outcome m₁ ≠ .error (.thrown reason) m₂ ∧
      (ofFuel k).settlePromise id outcome m₁ ≠ .error (.thrown reason) m₂ ∧
      (ofFuel k).resolvePromise id v m₁ ≠ .error (.thrown reason) m₂) := by
  refine ⟨fun m₁ m₂ hprecedes => ⟨hprecedes.grows.leads, fun id hdecided =>
      hdecided.leads hprecedes.grows.leads⟩, fun m' => h.settledBetween,
    fun m₁ m₂ p hhosted => hhosted.settledBetween p, ?_, ?_, ?_, ?_, ?_⟩
  · rintro j id outcome rfl rfl
    refine ⟨fun hnot => Law.settlePromise_of_not_pending hnot outcome,
      fun decided before after hstate => ⟨settlePromise_eq hstate outcome, fun m' hran => ?_⟩⟩
    exact h.stateOf_during hstate hran
  · exact fun engine m₁ id onFulfilled onRejected =>
      ⟨fun decided reactions hstate => attachReaction_of_pending hstate _ _,
        fun outcome hstate => attachReaction_of_settled hstate _ _⟩
  · exact fun engine outcome reaction m₁ => ⟨asks_handler, fun q' m₂ => asks_runReaction⟩
  · rintro j f this args id state rfl rfl hf hstate
    obtain ⟨hend, hinside⟩ := h.decided hf hstate
    exact ⟨fun hdecided engine => hf.callFunction_of_decided hdecided engine this args, hend,
      hinside⟩
  · have := quiet_ofFuel k
    have hsettle (id : ObjectId) (outcome : Settlement) :
        ((ofFuel k).settle id outcome).Quiet := inferInstance
    have hrun (id : ObjectId) (outcome : Settlement) :
        ((ofFuel k).settlePromise id outcome).Quiet := inferInstance
    have hresolve (id : ObjectId) (v : Value) : ((ofFuel k).resolvePromise id v).Quiet :=
      inferInstance
    exact fun id outcome v reason m₁ m₂ => ⟨(hsettle id outcome).ne_thrown m₁ reason m₂,
      (hrun id outcome).ne_thrown m₁ reason m₂, (hresolve id v).ne_thrown m₁ reason m₂⟩

/-- The run of the block `{ new Promise(f => f(1)); }` changes no settled promise, and no settlement
in it throws. -/
theorem Asked.promises_settle_once_block : ∃ p s m,
    Program.ofText {} "{ new Promise(f => f(1)); }" = .ok p ∧ p.body = [s] ∧
      m.Asked False Program.IsRead standardFuel (.execute initial.realm.programFrame s) ∧
      (∀ m', (ofFuel standardFuel).EndsIn (.execute initial.realm.programFrame s) m m' →
        m.heap.Leads m'.heap) ∧
      ∀ id outcome reason m₁ m₂,
        (ofFuel standardFuel).settle id outcome m₁ ≠ .error (.thrown reason) m₂ := by
  have hkinds : ((Program.ofText {} "{ new Promise(f => f(1)); }").toOption.map fun p =>
      p.body.map Statement.kindName) = some ["BlockStatement"] := by decide +kernel
  obtain ⟨p, hread⟩ : ∃ p, Program.ofText {} "{ new Promise(f => f(1)); }" = .ok p :=
    exists_of_isOk (by decide +kernel)
  rw [hread] at hkinds
  obtain ⟨body, m, hbody, hasked⟩ :=
    Hosted.asked_block (.initial : initial.Hosted False Program.IsRead) ⟨{}, _, hread⟩
      (Option.some.inj hkinds)
  have honce := hasked.promises_settle_once
  exact ⟨p, .block body, m, hread, hbody, hasked, fun m' hend => (honce.1 m m' (.answer hasked hend)).1,
    fun id outcome reason m₁ m₂ => (honce.2.2.2.2.2.2.2 id outcome .undefined reason m₁ m₂).1⟩

end Machine

end EcmaEval
