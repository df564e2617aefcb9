import EcmaEval.Eval.Function
import EcmaEval.Proofs.Conduct.Library

/-!
# Promises of sound machines

The state of a promise is written in four places, and each of them keeps to how a state may change:
a reaction is added behind the others, a use of a resolver leaves the reactions, a settlement takes
the place of a pending state, and a new promise had no state before.

A settlement never throws: what a reaction throws goes on to the promise that is derived from it.

## Main definitions

* `Action.Quiet`: an action that throws nothing

## Main results

* `Machine.Sound.setKind`: another kind of an object
* `Law.conducts_settlePromise`: a settlement with all its reactions
-/

namespace EcmaEval

/-! ## Actions that throw nothing -/

/-- The action throws nothing. -/
class Action.Quiet {α : Type} (a : Action α) : Prop where
  ne_thrown : ∀ m v m', a m ≠ .error (.thrown v) m'

/-- The settlements of the engine throw nothing. -/
class Engine.Quiet (engine : Engine) : Prop where
  settle : ∀ id outcome, (engine.settle id outcome).Quiet

namespace Action.Quiet

variable {α β : Type} {a b : Action α}

theorem bind {f : α → Action β} [ha : a.Quiet] (hf : ∀ x, (f x).Quiet) : (a >>= f).Quiet := by
  refine ⟨fun m v m' h => ?_⟩
  rw [Discipline.bind_apply] at h
  cases hresult : a m with
  | ok x m₁ =>
    rw [hresult] at h
    exact (hf x).ne_thrown m₁ v m' h
  | error e m₁ =>
    rw [hresult] at h
    cases h
    exact ha.ne_thrown m v m' hresult

instance (x : α) : (pure x : Action α).Quiet := ⟨fun _ _ _ => nofun⟩

instance {f : α → Action β} [a.Quiet] [∀ x, (f x).Quiet] : (a >>= f).Quiet := bind inferInstance

instance (f : Heap → α) : (readHeap f).Quiet := ⟨fun _ _ _ => nofun⟩

instance (f : Realm → α) : (readRealm f).Quiet := ⟨fun _ _ _ => nofun⟩

instance (id : ObjectId) (change : Object → Object) : (modifyObject id change).Quiet :=
  ⟨fun _ _ _ => nofun⟩

instance (o : Object) : (allocate o).Quiet := ⟨fun _ _ _ => nofun⟩

instance (a : Action α) : (attempt a).Quiet := by
  refine ⟨fun m v m' h => ?_⟩
  unfold attempt at h
  split at h
  · cases h
  · cases h
  · next e _ hne _ =>
    cases h
    exact hne v rfl

instance {γ : Type} (xs : List γ) (f : γ → Action PUnit) [hf : ∀ x, (f x).Quiet] :
    (xs.forM f).Quiet := by
  induction xs with
  | nil => exact inferInstanceAs (Quiet (pure _))
  | cons x xs ih => exact inferInstanceAs (Quiet (f x >>= fun _ => xs.forM f))

instance (f : Fault) : (newFault f).Quiet := by
  unfold newFault newError
  infer_instance

/-! ### Settlements -/

section Settlements

open Engine

variable {engine : Engine} [hengine : engine.Quiet]

instance (id : ObjectId) (outcome : Settlement) : (engine.settle id outcome).Quiet :=
  hengine.settle id outcome

instance (id : ObjectId) (reaction : Reaction) : (addReaction id reaction).Quiet := by
  unfold addReaction promiseState? setPromiseState
  refine bind fun state => ?_
  split <;> infer_instance

instance (id : ObjectId) (v : Value) : (engine.resolvePromise id v).Quiet := by
  unfold resolvePromise promiseOf?
  refine bind fun source => ?_
  split
  · infer_instance
  · split
    · infer_instance
    · split <;> infer_instance

instance (outcome : Settlement) (reaction : Reaction) :
    (engine.runReaction outcome reaction).Quiet := by
  unfold runReaction
  refine bind fun callable => ?_
  split
  · refine bind fun result => ?_
    split <;> infer_instance
  · split <;> infer_instance

instance (id : ObjectId) (outcome : Settlement) : (engine.settlePromise id outcome).Quiet := by
  unfold settlePromise promiseState? setPromiseState
  refine bind fun state => ?_
  split <;> infer_instance

end Settlements

end Action.Quiet

/-- No settlement throws, however deep it runs. -/
theorem Engine.quiet_ofFuel (fuel : Nat) : (ofFuel fuel).Quiet := by
  induction fuel with
  | zero => exact ⟨fun id outcome => ⟨fun _ _ _ => nofun⟩⟩
  | succ fuel ih =>
    exact ⟨fun id outcome => inferInstanceAs ((ofFuel fuel).settlePromise id outcome).Quiet⟩

/-! ## States -/

variable {L : Law} {hidden : Set ObjectId} {m : Machine}

/-- Only the object itself gets another state. -/
theorem Heap.stateOf_setKind (h : Heap) (id : ObjectId) (kind : ObjectKind)
    {state : Option PromiseState} (hstate : ∀ o : Object, { o with kind }.promiseState? = state)
    (id' : ObjectId) :
    (h.modify id ({ · with kind })).stateOf id' = h.stateOf id' ∨
      id' = id ∧ (h.modify id ({ · with kind })).stateOf id' = state := by
  by_cases heq : id' = id
  · refine (h.get_modify id ({ · with kind }) id').imp (congrArg Object.promiseState?) fun hget => ?_
    exact ⟨heq, by rw [stateOf, hget, hstate]⟩
  · exact .inl (by rw [stateOf, h.get_modify_of_ne heq, stateOf])

/-- The object is no array and no function. -/
structure Heap.Fillable (h : Heap) (id : ObjectId) : Prop where
  array : (h.get id).isArray = false
  function : (h.get id).callable? = none

/-- A promise is no array and no function. -/
theorem Heap.fillable_of_stateOf {h : Heap} {id : ObjectId} {state : PromiseState}
    (hstate : h.stateOf id = some state) : h.Fillable id := by
  unfold stateOf Object.promiseState? at hstate
  split at hstate
  · next hkind =>
    exact ⟨by simp [Object.isArray, Object.elements?, hkind], by simp [Object.callable?, hkind]⟩
  · cases hstate

theorem Machine.Sound.state (hm : m.Sound L hidden) (id : ObjectId) :
    facts (m.heap.stateOf id) ⊆ m.granted L hidden :=
  have : Shown ⟨m.granted L hidden, hidden⟩ (m.heap.get id) := ⟨hm.objects id⟩
  have hstate : Shown ⟨m.granted L hidden, hidden⟩ (m.heap.get id).promiseState? := inferInstance
  hstate.facts_subset

/-- Another kind of an object, which calls nothing. -/
theorem Machine.Sound.setKind (hm : m.Sound L hidden) (id : ObjectId) {kind : ObjectKind}
    {state : Option PromiseState} (hfacts : facts kind ⊆ m.granted L hidden)
    (hcall : ∀ o : Object, { o with kind }.callable? = none)
    (helements : ∀ o : Object, { o with kind }.elements? = none)
    (hstate : ∀ o : Object, { o with kind }.promiseState? = state)
    (hleads : PromiseState.Leads (m.heap.stateOf id) state)
    (hplain : m.heap.Fillable id) :
    ({ m with heap := m.heap.modify id ({ · with kind }) } : Machine).Sound L hidden ∧
      L.Grows m { m with heap := m.heap.modify id ({ · with kind }) } := by
  have hgrows : L.Grows m { m with heap := m.heap.modify id ({ · with kind }) } := by
    refine ⟨⟨(m.heap.size_modify id _).ge, .refl _, fun id' => ?_⟩, fun _ => .refl _, rfl,
      .of_modify fun o hlong => absurd hlong (Object.not_overlong (helements o)),
      fun id' harray => ?_, fun id' body hbody => ?_⟩
    · rcases m.heap.stateOf_setKind id kind hstate id' with heq | ⟨rfl, heq⟩ <;> rw [heq]
      · exact .refl _
      · exact hleads
    · have hne : id' ≠ id := fun heq => nomatch (heq ▸ harray).symm.trans hplain.array
      rwa [m.heap.get_modify_of_ne hne]
    · have hne : id' ≠ id := fun heq => nomatch (heq ▸ hbody).symm.trans hplain.function
      rwa [m.heap.get_modify_of_ne hne]
  refine ⟨hm.withHeap hgrows.toExtends (fun id' => ?_) (hm.grounded.congr fun id' => ?_)
    fun id' target hbinds => ?_, hgrows⟩
  · rcases m.heap.get_modify id ({ · with kind }) id' with heq | heq <;> rw [heq]
    · exact hm.objects id'
    · exact Set.union_subset
        (Set.union_subset hfacts fun _ hf => hm.objects id' (.inl (.inr hf)))
        fun _ hf => hm.objects id' (.inr hf)
  · rcases m.heap.get_modify id ({ · with kind }) id' with heq | heq <;> rw [heq]
  · obtain ⟨receiver, args, hbound⟩ := hbinds
    rcases m.heap.get_modify id ({ · with kind }) id' with heq | heq <;> rw [heq] at hbound
    · exact hm.anchored id' target ⟨receiver, args, hbound⟩
    · exact nomatch (hcall _).symm.trans hbound

/-- Another kind of an object, which is no settled promise. -/
theorem Law.Step.setKind {mayStop : Prop} (hm : m.Sound L hidden) {id : ObjectId}
    {kind : ObjectKind} {state : Option PromiseState} (hfacts : facts kind ⊆ m.granted L hidden)
    (hcall : ∀ o : Object, { o with kind }.callable? = none)
    (helements : ∀ o : Object, { o with kind }.elements? = none)
    (hstate : ∀ o : Object, { o with kind }.promiseState? = state)
    (hleads : PromiseState.Leads (m.heap.stateOf id) state)
    (hplain : m.heap.Fillable id)
    (hsettled : ∀ outcome, state ≠ some (.settled outcome)) :
    L.Step hidden mayStop m { m with heap := m.heap.modify id ({ · with kind }) } := by
  obtain ⟨hsound, hgrows⟩ := hm.setKind id hfacts hcall helements hstate hleads hplain
  refine ⟨hsound, hgrows, .of_forall fun id' outcome h => ?_⟩
  rcases m.heap.stateOf_setKind id kind hstate id' with heq | ⟨-, heq⟩
  · exact heq.symm.trans h
  · exact absurd (heq.symm.trans h) (hsettled outcome)

namespace Law

open EcmaEval.Action EcmaEval.Engine

variable {K : Knowledge} {engine : Engine} [hengine : engine.Behaves L]

namespace Conducts

instance (h : Heap) (v : Value) [Shown K h] [hv : Shown K v] : Shown K (do
    let id ← v.object?
    let state ← (h.get id).promiseState?
    return (id, state) : Option (ObjectId × PromiseState)) := by
  cases v with
  | object id =>
    have hstate : Shown K (h.get id).promiseState? := inferInstance
    change Shown K ((h.get id).promiseState?.bind fun state => some (id, state))
    cases hget : (h.get id).promiseState? with
    | none => exact .of_empty rfl
    | some state =>
      have : Shown K state := ⟨(hget ▸ hstate).facts_subset⟩
      exact inferInstanceAs (Shown K (some (id, state)))
  | _ => exact .of_empty rfl

instance (v : Value) [Shown K v] : L.Conducts K (promiseOf? v) := by
  unfold promiseOf?
  infer_instance

/-- A reaction is added behind those that are there. -/
instance (id : ObjectId) (reaction : Reaction) [Shown K reaction] :
    L.Conducts K (addReaction id reaction) := by
  refine ⟨fun m hm => ?_⟩
  unfold addReaction promiseState?
  rw [readHeap_bind, ← Heap.stateOf]
  cases hstate : m.heap.stateOf id with
  | none => exact .ok (.refl hm.sound) (subset_of_plain _ _)
  | some state =>
    cases state with
    | settled outcome => exact .ok (.refl hm.sound) (subset_of_plain _ _)
    | pending decided reactions =>
      have hreactions : facts reactions ⊆ m.granted L K.hidden := by
        have hfacts := hm.sound.state id
        rw [hstate] at hfacts
        exact hfacts
      have hall : Shown ⟨m.granted L K.hidden, ∅⟩ (reactions ++ [reaction]) :=
        have : Shown ⟨m.granted L K.hidden, ∅⟩ reactions := ⟨hreactions⟩
        have : Shown ⟨m.granted L K.hidden, ∅⟩ reaction := ⟨hm.facts_subset reaction⟩
        inferInstance
      exact .ok (.setKind hm.sound hall.facts_subset (fun _ => rfl) (fun _ => rfl) (fun _ => rfl)
        (hstate ▸ .wait [reaction] fun h => h) (Heap.fillable_of_stateOf hstate) fun _ => nofun)
        (subset_of_plain _ _)

instance (id : ObjectId) (v : Value) [Shown K id] [Shown K v] :
    L.Conducts K (engine.resolvePromise id v) := by
  unfold resolvePromise
  refine .bind fun source => ?_
  cases source with
  | none => infer_instance
  | some source =>
    obtain ⟨source, state⟩ := source
    cases state <;> infer_instance

instance (outcome : Settlement) (reaction : Reaction) [Shown K outcome] [Shown K reaction] :
    L.Conducts K (engine.runReaction outcome reaction) := by
  unfold runReaction
  refine .bind fun callable => ?_
  split
  · refine .bind fun result => ?_
    cases result <;> infer_instance
  · cases outcome with
    | fulfilled v =>
      have : Shown K v := .covered (Settlement.fulfilled v)
      infer_instance
    | rejected v => infer_instance

/-- A use of a resolver leaves the reactions, and decides the promise. -/
instance (id : ObjectId) (fulfills : Bool) (v : Value) [Shown K id] [Shown K v] :
    L.Conducts K (engine.callResolver id fulfills v) := by
  refine ⟨fun m hm => ?_⟩
  have hnone : L.Ends K.hidden m facts ((Pure.pure Value.undefined : Action Value) m) :=
    Conducts.ends inferInstance hm
  unfold callResolver promiseState?
  rw [readHeap_bind, ← Heap.stateOf]
  cases hstate : m.heap.stateOf id with
  | none => exact hnone
  | some state =>
    cases state with
    | settled outcome => exact hnone
    | pending decided reactions =>
      cases decided with
      | true => exact hnone
      | false =>
        have hreactions : facts reactions ⊆ m.granted L K.hidden := by
          have hfacts := hm.sound.state id
          rw [hstate] at hfacts
          exact hfacts
        have hstep : L.Step K.hidden L.suites m
            { m with heap := m.heap.modify id ({ · with kind := .promise (.pending true reactions) }) } :=
          .setKind hm.sound hreactions (fun _ => rfl) (fun _ => rfl) (fun _ => rfl)
            (hstate ▸ .keep reactions fun _ => rfl) (Heap.fillable_of_stateOf hstate) fun _ => nofun
        exact .of_step hstep (Conducts.ends (a := do
          if fulfills then engine.resolvePromise id v else engine.settle id (.rejected v)
          return Value.undefined) inferInstance (hm.step hstep))

/-! ### Functions of the library -/

instance (settle : ObjectId → Action Unit) [∀ id, L.Conducts (K.and id) (settle id)] :
    L.Conducts K (newSettledPromise settle) := by
  unfold newSettledPromise
  infer_instance

instance (this onFulfilled onRejected : Value) [Shown K this] [Shown K onFulfilled]
    [Shown K onRejected] : L.Conducts K (engine.attachReaction this onFulfilled onRejected) := by
  unfold attachReaction
  refine .bind fun source => ?_
  cases source with
  | none => infer_instance
  | some source =>
    obtain ⟨source, state⟩ := source
    cases state <;> infer_instance

instance (callback : Value) (fulfills : Bool) (v : Value) [Shown K callback] [Shown K v] :
    L.Conducts K (engine.callAfterwards callback fulfills v) := by
  unfold callAfterwards
  infer_instance

end Conducts

/-! ## Settlements -/

/-- A settlement sets the state first.  What runs from there on settles other promises, and the
settlement itself accounts for the promise. -/
theorem Step.settle {mayStop : Prop} {m₁ m' : Machine} {id : ObjectId} {outcome : Settlement}
    {decided : Bool} {reactions : List Reaction}
    (hpending : m.heap.stateOf id = some (.pending decided reactions)) (hgrows : L.Grows m m₁)
    (honly : ∀ id' outcome', m₁.heap.stateOf id' = some (.settled outcome') →
      m.heap.stateOf id' = some (.settled outcome') ∨ id' = id ∧ outcome' = outcome)
    (hstep : L.Step hidden mayStop m₁ m')
    (hran : L.completes id outcome m m' ∨ mayStop ∧ L.stops id outcome m m') :
    L.Step hidden mayStop m m' := by
  refine ⟨hstep.sound, hgrows.trans hstep.grows, fun id' outcome' hsettled => ?_⟩
  rcases hstep.settles id' outcome' hsettled with
    hbefore | ⟨m₂, m₃, decided', reactions', hbefore, hwaits, hran', hafter⟩
  · refine (honly id' outcome' hbefore).imp_right ?_
    rintro ⟨rfl, rfl⟩
    exact ⟨m, m', decided, reactions, .refl _, hpending, hran, .refl _⟩
  · exact .inr ⟨m₂, m₃, decided', reactions', hgrows.leads.trans hbefore, hwaits, hran', hafter⟩

/-- A promise that is pending is set first, and its reactions run from there. -/
theorem settlePromise_of_pending {engine : Engine} {id : ObjectId} {decided : Bool}
    {reactions : List Reaction} (h : m.heap.stateOf id = some (.pending decided reactions))
    (outcome : Settlement) : engine.settlePromise id outcome m =
      reactions.forM (engine.runReaction outcome)
        { m with heap := m.heap.modify id ({ · with kind := .promise (.settled outcome) }) } := by
  unfold settlePromise promiseState?
  rw [readHeap_bind, ← Heap.stateOf, h]
  rfl

/-- Nothing happens to what is not pending. -/
theorem settlePromise_of_not_pending {engine : Engine} {id : ObjectId}
    (h : ∀ decided reactions, m.heap.stateOf id ≠ some (.pending decided reactions))
    (outcome : Settlement) : engine.settlePromise id outcome m = .ok () m := by
  unfold settlePromise promiseState?
  rw [readHeap_bind, ← Heap.stateOf]
  cases hstate : m.heap.stateOf id with
  | none => rfl
  | some state =>
    cases state with
    | pending decided reactions => exact absurd hstate (h decided reactions)
    | settled outcome => rfl

/-- A settlement conducts itself well, if all settlements that end like it are recorded. -/
theorem conducts_settlePromise [hquiet : engine.Quiet] (id : ObjectId) (outcome : Settlement)
    [Shown K outcome]
    (hcompletes : ∀ m m', engine.settlePromise id outcome m = .ok () m' →
      L.completes id outcome m m')
    (hstops : ∀ e m m', engine.settlePromise id outcome m = .error e m' →
      L.stops id outcome m m') :
    L.Conducts K (engine.settlePromise id outcome) := by
  refine ⟨fun m hm => ?_⟩
  by_cases hpending : ∃ decided reactions, m.heap.stateOf id = some (.pending decided reactions)
  · obtain ⟨decided, reactions, hstate⟩ := hpending
    let m₁ : Machine :=
      { m with heap := m.heap.modify id ({ · with kind := .promise (.settled outcome) }) }
    have hreactions : facts reactions ⊆ m.granted L K.hidden := by
      have hfacts := hm.sound.state id
      rw [hstate] at hfacts
      exact hfacts
    obtain ⟨hsound, hgrows⟩ := hm.sound.setKind id (hm.facts_subset (.promise (.settled outcome) : ObjectKind))
      (fun _ => rfl) (fun _ => rfl) (fun _ => rfl)
      (hstate ▸ .settle decided reactions outcome) (Heap.fillable_of_stateOf hstate)
    have hmono : m.granted L K.hidden ⊆ m₁.granted L K.hidden :=
      Machine.granted_mono hm.sound hgrows
    have hm₁ : m₁.Meets L (K.and reactions) :=
      ⟨hsound, (hm.and_subset hreactions).trans hmono⟩
    have hend : L.Ends K.hidden m₁ facts (engine.settlePromise id outcome m) := by
      rw [settlePromise_of_pending hstate]
      have hreactions : L.Conducts (K.and reactions) (reactions.forM (engine.runReaction outcome)) :=
        inferInstance
      exact hreactions.ends hm₁
    have honly (id' : ObjectId) (outcome' : Settlement)
        (h : m₁.heap.stateOf id' = some (.settled outcome')) :
        m.heap.stateOf id' = some (.settled outcome') ∨ id' = id ∧ outcome' = outcome := by
      rcases m.heap.stateOf_setKind id (.promise (.settled outcome)) (fun _ => rfl) id'
        with heq | ⟨hid, heq⟩
      · exact .inl (heq.symm.trans h)
      · cases heq.symm.trans h
        exact .inr ⟨hid, rfl⟩
    generalize hresult : engine.settlePromise id outcome m = result at hend
    cases hend with
    | ok hstep hx =>
      exact .ok (.settle hstate hgrows honly hstep (.inl (hcompletes _ _ hresult))) hx
    | @error e m' hstep he =>
      have hfatal : e.Fatal := by
        cases e with
        | thrown v => exact absurd hresult ((inferInstance :
            (engine.settlePromise id outcome).Quiet).ne_thrown m v m')
        | broken cause => trivial
        | exhausted => trivial
      exact .error (.settle hstate hgrows honly hstep
        (.inr ⟨.inr hfatal, hstops _ _ _ hresult⟩)) he
  · rw [settlePromise_of_not_pending fun decided reactions h => hpending ⟨decided, reactions, h⟩]
    exact .ok (.refl hm.sound) (Conducts.subset_of_plain _ _)

end Law

/-! ## Constructors that fill in an object -/

/-- The object is no promise, no array and no function. -/
structure Heap.Unfilled (h : Heap) (id : ObjectId) : Prop where
  state : h.stateOf id = none
  plain : h.Fillable id

/-- A constructor may fill in the object that it is called on: there is no target of `new`, or the
object is nothing yet that it should not be. -/
def Machine.Receives (m : Machine) (this : Value) : Prop :=
  m.newTarget = none ∨ ∀ id, this = .object id → m.heap.Unfilled id

namespace Law

open EcmaEval.Action EcmaEval.Engine

variable {K : Knowledge} {engine : Engine} [hengine : engine.Behaves L]

/-- The executor of a promise runs when the object is one. -/
theorem ends_constructPromise (hm : m.Meets L K) {this : Value} (hthis : m.Receives this)
    (executor : Value) [Shown K this] [Shown K executor] :
    L.Ends K.hidden m facts (engine.constructPromise this executor m) := by
  have hrefused : L.Ends K.hidden m facts ((throwFault .promiseWithoutNew : Action Value) m) :=
    Conducts.ends inferInstance hm
  unfold constructPromise
  rw [readTarget_bind]
  cases htarget : m.newTarget with
  | none => exact hrefused
  | some target =>
    cases this with
    | object id =>
      have hunfilled : m.heap.Unfilled id :=
        hthis.elim (fun h => nomatch htarget.symm.trans h) fun h => h id rfl
      simp only [readHeap_bind]
      split
      · simp only [setPromiseState, modifyObject_bind]
        have hstep : L.Step K.hidden L.suites m
            { m with heap := m.heap.modify id ({ · with kind := .promise (.pending false []) }) } :=
          .setKind hm.sound (facts_nil.subset.trans (Set.empty_subset _)) (fun _ => rfl) (fun _ => rfl)
            (fun _ => rfl) (hunfilled.state ▸ .start _) hunfilled.plain fun _ => nofun
        refine .of_step hstep ?_
        refine Conducts.ends (K := K) ?_ (hm.step hstep)
        refine .bind fun resolve => .bind fun reject => .bind fun result => ?_
        cases result <;> infer_instance
      · simp only [throwFault_bind]
        exact Conducts.ends inferInstance hm
    | _ => exact hrefused

/-- The object of an error is the one that the constructor is called on, or a new one. -/
theorem ends_errorInstance (hm : m.Meets L K) {this : Value} (hthis : m.Receives this)
    (kind : ErrorKind) [Shown K this] :
    L.Ends K.hidden m facts (errorInstance kind this m) := by
  have hnew : L.Ends K.hidden m facts (newError kind "" m) := Conducts.ends inferInstance hm
  unfold errorInstance
  rw [readTarget_bind]
  cases htarget : m.newTarget with
  | none => exact hnew
  | some target =>
    cases this with
    | object id =>
      have hunfilled : m.heap.Unfilled id :=
        hthis.elim (fun h => nomatch htarget.symm.trans h) fun h => h id rfl
      have hstep : L.Step K.hidden L.suites m
          { m with heap := m.heap.modify id ({ · with kind := .error }) } :=
        .setKind hm.sound (Set.empty_subset _) (fun _ => rfl) (fun _ => rfl) (fun _ => rfl)
          (hunfilled.state ▸ .start _) hunfilled.plain fun _ => nofun
      exact .ok hstep ((hm.step hstep).facts_subset id)
    | _ => exact hnew

theorem ends_callError (hm : m.Meets L K) {this : Value} (hthis : m.Receives this)
    (kind : ErrorKind) (args : List Value) [Shown K this] [Shown K args] :
    L.Ends K.hidden m facts (engine.callError kind this args m) := by
  unfold callError
  refine (ends_errorInstance hm hthis kind).bind hm fun id m' hm' _ => ?_
  have hoptions : Shown (K.and id) (Value.argument args 1) := inferInstance
  generalize Value.argument args 1 = options at hoptions ⊢
  refine Conducts.ends (K := K.and id) ?_ hm'
  cases options <;> dsimp only <;> split <;> infer_instance

theorem ends_callPromise (hm : m.Meets L K) {this : Value} (hthis : m.Receives this)
    (f : PromiseFunction) (args : List Value) [Shown K this] [Shown K args] :
    L.Ends K.hidden m facts (engine.callPromise f this args m) := by
  unfold callPromise
  cases f with
  | construct => exact ends_constructPromise hm hthis _
  | _ =>
    dsimp only
    exact Conducts.ends inferInstance hm

end Law

end EcmaEval
