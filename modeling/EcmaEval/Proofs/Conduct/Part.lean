import EcmaEval.Proofs.Conduct.Session
import EcmaEval.Proofs.Part.Breakdown

/-!
# Parts of runs on sound machines

What a run asks its engine for fits the machine that it is run on: the machine is sound, and the
query mentions only what is there.  For suppose that it does not.  Then an engine may do anything
at that point and still conduct itself well; so it may break down there and leave a machine without
objects.  But no run that conducts itself well ends in such a machine, so the run does not come to
that point.

A run comes from the machine at its start to the machine at its end, and in between to the machines
at which its parts start.  From each of these to the next, what a machine holds changes only in the
ways in which the law lets it grow.  What stands between the start of a run and the start of a part
of it is no run.  But an engine may break down just where the part starts, and leave the machine as
it is there; this is a way to conduct itself well, and then the run ends where the part starts.

## Main definitions

* `Query.Fits`: a query that may be run on a machine
* `Machine.Asked`: what the runs of a session ask engines for
* `Machine.Passed`: the machines that a session passes through
* `Machine.Precedes`: in a session one machine comes before another

## Main results

* `Engine.Asks.fits`, `PartOf.fits`: the parts of a run fit
* `Machine.Passed.sound`: a session passes through sound machines only
* `Engine.Asks.grows`, `PartOf.grows`: what a run changes until a part of it starts
* `Machine.Precedes.grows`: what a session changes
-/

namespace EcmaEval

open Engine

variable {L : Law} {hidden : Set ObjectId} {m m' : Machine} {q : Query}

/-! ## Queries that fit -/

/-- The machine is sound, and the query mentions only what is true of it. -/
def Query.Fits (L : Law) (m : Machine) (q : Query) : Prop :=
  ∃ hidden, m.Sound L hidden ∧ facts q ⊆ m.granted L hidden

/-- The answer to the query ends in a machine, with a value or with an error. -/
inductive Engine.EndsIn (engine : Engine) (q : Query) (m m' : Machine) : Prop where
  | ok {x : q.Answer} (h : engine.answer q m = .ok x m') : EndsIn engine q m m'
  | error {e : Abrupt} (h : engine.answer q m = .error e m') : EndsIn engine q m m'

/-- What is known of the value is left aside. -/
theorem Law.Ends.forget {α : Type} {post : α → Set Fact} {result : EStateM.Result Abrupt Machine α}
    (h : L.Ends hidden m post result) : L.Ends hidden m (fun _ => ∅) result := by
  cases h with
  | ok hstep _ => exact .ok hstep (Set.empty_subset _)
  | error hstep he => exact .error hstep he

section Fits

variable {engine : Engine} [hengine : engine.Behaves L] (hm : m.Sound L hidden)
  (hq : facts q ⊆ m.granted L hidden)

include hm hq

/-- The answer to a query that fits leaves a sound machine. -/
theorem Engine.ends_answer : L.Ends hidden m (fun _ => ∅) (engine.answer q m) := by
  cases q with
  | evaluate name scope e =>
    have : Shown (m.knowledge L hidden) (Query.evaluate name scope e) := ⟨hq⟩
    exact ((hengine.evaluateAs name scope e).ends hm.meets).forget
  | execute scope s =>
    have : Shown (m.knowledge L hidden) (Query.execute scope s) := ⟨hq⟩
    exact ((hengine.execute scope s).ends hm.meets).forget
  | call id receiver args =>
    have : Shown (m.knowledge L hidden) id := ⟨fun _ hf => hq (.inl (.inl hf))⟩
    have : Shown (m.knowledge L hidden) receiver := ⟨fun _ hf => hq (.inl (.inr hf))⟩
    have : Shown (m.knowledge L hidden) args := ⟨fun _ hf => hq (.inr hf)⟩
    exact ((hengine.call id receiver args).ends hm.meets).forget
  | construct id args newTarget =>
    have : Shown (m.knowledge L hidden) id := ⟨fun _ hf => hq (.inl (.inl hf))⟩
    have : Shown (m.knowledge L hidden) args := ⟨fun _ hf => hq (.inl (.inr hf))⟩
    have : Shown (m.knowledge L hidden) newTarget := ⟨fun _ hf => hq (.inr hf)⟩
    exact ((hengine.construct id args newTarget).ends hm.meets).forget
  | settle id outcome =>
    have : Shown (m.knowledge L hidden) id := ⟨fun _ hf => hq (.inl hf)⟩
    have : Shown (m.knowledge L hidden) outcome := ⟨fun _ hf => hq (.inr hf)⟩
    exact ((hengine.settle id outcome).ends hm.meets).forget

/-- The step from the machine of a query that fits to the one that its answer ends in. -/
theorem Engine.EndsIn.step (h : engine.EndsIn q m m') :
    ∃ mayStop, L.Step hidden mayStop m m' := by
  have hend : L.Ends hidden m _ (engine.answer q m) := ends_answer hm hq
  cases h with
  | ok hanswer =>
    rw [hanswer] at hend
    cases hend with
    | ok hstep _ => exact ⟨_, hstep⟩
  | error hanswer =>
    rw [hanswer] at hend
    cases hend with
    | error hstep _ => exact ⟨_, hstep⟩

/-- The run of a phrase that fits leaves a sound machine. -/
theorem Engine.ends_phrase [engine.Quiet]
    (hcompletes : ∀ id outcome m m', L.completes id outcome m m')
    (hstops : ∀ id outcome m m', L.stops id outcome m m') :
    L.Ends hidden m (fun _ => ∅) (engine.phrase q m) := by
  have : engine.above.Behaves L :=
    behaves_above (fun _ _ _ _ _ => hcompletes _ _ _ _) fun _ _ _ _ _ _ => hstops _ _ _ _
  have habove : engine.above.answer q = engine.phrase q := by cases q <;> rfl
  exact habove ▸ ends_answer hm hq

end Fits

/-! ## Engines that break down at one point -/

theorem Law.Conducts.haltingAt {α : Type} [HasFacts α] {K : Knowledge} {condition : Prop} {h : Halt}
    {a : Action α} [ha : L.Conducts K a] (hnot : m.Meets L K → ¬ condition) :
    L.Conducts K (a.haltingAt condition m h) := by
  refine ⟨fun m' hm' => ?_⟩
  unfold Action.haltingAt
  split
  · next hpoint =>
    obtain ⟨hcondition, rfl⟩ := hpoint
    exact absurd hcondition (hnot hm')
  · exact ha.ends hm'

/-- Where a query does not fit, an engine may break down in any way. -/
theorem Engine.behaves_haltingAt {engine : Engine} [hengine : engine.Behaves L]
    (hunfit : ¬ q.Fits L m) (h : Halt) : (engine.haltingAt q m h).Behaves L := by
  have hnot {K : Knowledge} {q' : Query} (hq' : facts q' ⊆ K.known) (hm : m.Meets L K) :
      ¬ q = q' := by
    rintro rfl
    exact hunfit ⟨K.hidden, hm.sound, hq'.trans hm.known⟩
  constructor
  case evaluateAs =>
    intro K name scope e he
    exact .haltingAt (hnot he.facts_subset)
  case execute =>
    intro K scope s hs
    exact .haltingAt (hnot hs.facts_subset)
  case call =>
    intro K id this args hid hthis hargs
    exact .haltingAt (hnot (Set.union_subset (Set.union_subset hid.facts_subset hthis.facts_subset)
      hargs.facts_subset))
  case construct =>
    intro K id args newTarget hid hargs htarget
    exact .haltingAt (hnot (Set.union_subset (Set.union_subset hid.facts_subset hargs.facts_subset)
      htarget.facts_subset))
  case settle =>
    intro K id outcome hid houtcome
    exact .haltingAt (hnot (Set.union_subset hid.facts_subset houtcome.facts_subset))

instance {α : Type} {condition : Prop} {h : Halt} {a : Action α} [ha : a.Quiet] :
    (a.haltingAt condition m h).Quiet := by
  refine ⟨fun m' v m'' heq => ?_⟩
  unfold Action.haltingAt at heq
  split at heq
  · cases heq
  · exact ha.ne_thrown m' v m'' heq

instance {engine : Engine} [hengine : engine.Quiet] (h : Halt) : (engine.haltingAt q m h).Quiet :=
  ⟨fun id outcome => inferInstanceAs
    ((engine.settle id outcome).haltingAt (q = .settle id outcome) m h).Quiet⟩

/-! ## Parts -/

/-- A sound machine has what it shows. -/
theorem Machine.Sound.lt_of_shown (hm : m.Sound L hidden) {id : ObjectId}
    (hid : Shown (m.knowledge L hidden) m.realm → Shown (m.knowledge L hidden) id) :
    id.index < m.heap.size :=
  have hgranted : m.Grants L hidden (.place id) := (hid ⟨hm.realm⟩).facts_subset (.inr rfl)
  hgranted

/-- A sound machine has the objects of its realm. -/
theorem Machine.Sound.objectPrototype_lt (hm : m.Sound L hidden) :
    m.realm.objectPrototype.index < m.heap.size :=
  hm.lt_of_shown fun _ => inferInstance

theorem Machine.Sound.arrayPrototype_lt (hm : m.Sound L hidden) :
    m.realm.arrayPrototype.index < m.heap.size :=
  hm.lt_of_shown fun _ => inferInstance

theorem Machine.Sound.size_pos (hm : m.Sound L hidden) : 0 < m.heap.size :=
  Nat.zero_lt_of_lt hm.objectPrototype_lt

/-- What a run asks its engine for fits the machine that it is run on. -/
theorem Engine.Asks.fits {α : Type} {run : Engine → Action α} {engine : Engine} {post : α → Set Fact}
    [engine.Behaves L] [engine.Quiet] (hasks : engine.Asks run m q m') (hm : m.Sound L hidden)
    (hends : ∀ (engine : Engine) [engine.Behaves L] [engine.Quiet],
      L.Ends hidden m post (run engine m))
    (halike : ∀ {h h' : Halt} {engine engine' : Engine}, Engine.Alike h h' engine engine' →
      run engine m = run engine' m ∨ h.Ends (run engine m) ∧ h'.Ends (run engine' m)) :
    q.Fits L m' := by
  by_contra hunfit
  -- One way to break down leaves no object, and no run ends so.
  let void : Halt := ⟨.malformed "" "", Machine.empty⟩
  have : (engine.haltingAt q m' void).Behaves L := behaves_haltingAt hunfit void
  obtain ⟨n, hn, hsame⟩ := hasks.ends_haltingAt halike void
  have hend := hends (engine.haltingAt q m' void)
  rw [hn] at hend
  cases hend with
  | error hstep _ =>
    have hsize : n.heap.size = 0 := by
      rw [hsame]
      rfl
    have hle := hstep.grows.size_le
    have hpos := hm.size_pos
    omega

/-- The law of runs that are asked nothing but what they hold. -/
def Law.lax (suites : Prop) : Law where
  suites := suites
  free _ _ := True
  completes _ _ _ _ := True
  stops _ _ _ _ := True

/-- Any name may be added to any frame, and any settlement may run or be stopped. -/
structure Law.IsLax (L : Law) : Prop where
  free : ∀ id name, L.free id name
  completes : ∀ id outcome m m', L.completes id outcome m m'
  stops : ∀ id outcome m m', L.stops id outcome m m'

theorem Law.isLax_lax (suites : Prop) : (Law.lax suites).IsLax :=
  ⟨fun _ _ => trivial, fun _ _ _ _ => trivial, fun _ _ _ _ => trivial⟩

theorem Law.IsLax.records (hL : L.IsLax) : L.Records :=
  ⟨fun _ => hL.completes _ _ _ _, fun _ => hL.stops _ _ _ _⟩

/-- Calls of the parent constructor may stand anywhere. -/
theorem Law.admits_lax (suites : Prop) (p : Program) : (Law.lax suites).Admits p := False.elim

theorem Law.records_lax (suites : Prop) : (Law.lax suites).Records := (isLax_lax suites).records

/-- The parts of a run fit, and so do their parts. -/
theorem PartOf.fits {α : Type} {run : Engine → Action α} {fuel k : Nat} {post : α → Set Fact}
    (hpart : PartOf run fuel m k q m') (hL : L.IsLax) (hm : m.Sound L hidden)
    (hends : ∀ (engine : Engine) [engine.Behaves L] [engine.Quiet],
      L.Ends hidden m post (run engine m))
    (halike : ∀ {h h' : Halt} {engine engine' : Engine}, Engine.Alike h h' engine engine' →
      run engine m = run engine' m ∨ h.Ends (run engine m) ∧ h'.Ends (run engine' m)) :
    q.Fits L m' := by
  have hbehaves := behaves_ofFuel hL.records
  have hquiet := quiet_ofFuel
  -- Induction on how the part is reached: each phrase fits, and so do its parts.
  induction hpart with
  | direct hasks => exact hasks.fits hm hends halike
  | @nested k q q' m' m'' hpart hown hasks ih =>
    obtain ⟨hidden', hm', hq⟩ := ih
    exact hasks.fits hm' (fun _ => ends_phrase hm' hq hL.completes hL.stops)
      fun _ => Alike.ends_phrase hown

/-! ## Sessions -/

/-- What the runs of a session ask engines for: the engine of `k` is asked for a query on a machine.
What a check runs in a realm of its own is a session of its own. -/
inductive Machine.Asked (suites : Prop) (accepted : Program → Prop) (k : Nat) (q : Query)
    (m' : Machine) : Prop where
  | program {m : Machine} (h : m.Hosted suites accepted) {p : Program} (hp : accepted p)
    (hpart : PartOf (·.executeProgram m.realm.programFrame p) standardFuel m k q m') :
    Asked suites accepted k q m'
  | call {m : Machine} (h : m.Hosted suites accepted) {callee this : Value} {args : List Value}
    (hvalues : ∀ v ∈ callee :: this :: args, v.In m.heap)
    (hpart : PartOf (·.callValue callee this args) standardFuel m k q m') :
    Asked suites accepted k q m'

/-- The machines that a session passes through: those of the host, and those at the start and at the
end of each part of a run. -/
inductive Machine.Passed (suites : Prop) (accepted : Program → Prop) : Machine → Prop where
  | hosted {m : Machine} (h : m.Hosted suites accepted) : Passed suites accepted m
  | asked {k : Nat} {q : Query} {m : Machine} (h : m.Asked suites accepted k q) :
    Passed suites accepted m
  | answered {k : Nat} {q : Query} {m m' : Machine} {x : q.Answer} (h : m.Asked suites accepted k q)
    (hanswer : (ofFuel k).answer q m = .ok x m') : Passed suites accepted m'
  | failed {k : Nat} {q : Query} {m m' : Machine} {e : Abrupt} (h : m.Asked suites accepted k q)
    (hanswer : (ofFuel k).answer q m = .error e m') : Passed suites accepted m'

namespace Machine

variable {suites : Prop} {accepted : Program → Prop}

/-- What the runs of a session ask for fits, under each law that allows for what they do. -/
theorem Asked.fits_of_isLax {k : Nat} (h : m.Asked suites accepted k q) (hL : L.IsLax)
    (hsuites : suites → L.suites) (hadmits : ∀ p, accepted p → L.Admits p) : q.Fits L m := by
  cases h with
  | program h hp hpart =>
    have hm := h.sound hL.records hL.free hsuites hadmits
    exact hpart.fits hL hm (fun engine => hm.ends_program hL.free engine (hadmits _ hp))
      fun _ => (Alike.alike_executeProgram _ _).ends _
  | call h hvalues hpart =>
    have hm := h.sound hL.records hL.free hsuites hadmits
    exact hpart.fits hL hm (fun engine => hm.ends_callValue engine hvalues) fun _ => Alike.ends _

theorem Hosted.sound_lax (h : m.Hosted suites accepted) : m.Sound (.lax suites) ∅ :=
  h.sound (Law.records_lax suites) (fun _ _ => trivial) id fun p _ => Law.admits_lax suites p

/-- What the runs of a session ask for fits. -/
theorem Asked.fits {k : Nat} (h : m.Asked suites accepted k q) : q.Fits (.lax suites) m :=
  h.fits_of_isLax (Law.isLax_lax suites) id fun p _ => Law.admits_lax suites p

/-- A session passes through sound machines only. -/
theorem Passed.sound (h : m.Passed suites accepted) : ∃ hidden, m.Sound (.lax suites) hidden := by
  have hbehaves := behaves_ofFuel (Law.records_lax suites)
  cases h with
  | hosted h => exact ⟨∅, h.sound_lax⟩
  | asked h =>
    obtain ⟨hidden, hm, -⟩ := h.fits
    exact ⟨hidden, hm⟩
  | @answered k q m₀ _ _ h hanswer =>
    obtain ⟨hidden, hm, hq⟩ := h.fits
    have hend : (Law.lax suites).Ends hidden m₀ _ ((ofFuel k).answer q m₀) := ends_answer hm hq
    rw [hanswer] at hend
    cases hend with
    | ok hstep _ => exact ⟨hidden, hstep.sound⟩
  | @failed k q m₀ _ _ h hanswer =>
    obtain ⟨hidden, hm, hq⟩ := h.fits
    have hend : (Law.lax suites).Ends hidden m₀ _ ((ofFuel k).answer q m₀) := ends_answer hm hq
    rw [hanswer] at hend
    cases hend with
    | error hstep _ => exact ⟨hidden, hstep.sound⟩

end Machine

/-! ## Programs of one block -/

/-- The first statement of a program is asked for behind what is bound before it. -/
theorem Engine.asks_executeProgram (engine : Engine) {m m' : Machine} {scope : FrameId} {p : Program}
    {s : Statement} {rest : List Statement} (hbody : p.body = s :: rest)
    (hhoist : Action.hoist scope p.body m = .ok () m') :
    engine.Asks (·.executeProgram scope p) m (.execute scope s) m' := by
  refine asks_of_halts fun h => ?_
  simp only [executeProgram, executeBody, Discipline.bind_apply, hhoist]
  simp [hbody, executeList, executeFrom, Discipline.bind_apply, Engine.haltingAt, Action.haltingAt]

theorem Action.exists_hoist_block (scope : FrameId) (body : List Statement) (m : Machine) :
    ∃ m', Action.hoist scope [.block body] m = .ok () m' := by
  unfold Action.hoist
  dsimp only
  split
  · exact ⟨_, rfl⟩
  · exact ⟨_, rfl⟩

theorem Statement.exists_block_of_kindName {s : Statement} (h : s.kindName = "BlockStatement") :
    ∃ body, s = .block body := by
  cases s with
  | block body => exact ⟨body, rfl⟩
  | _ => simp [Statement.kindName] at h

/-- The block of a program of one block is asked for. -/
theorem Machine.Hosted.asked_block {suites : Prop} {accepted : Program → Prop} {m : Machine}
    (h : m.Hosted suites accepted) {p : Program} (hp : accepted p)
    (hkinds : p.body.map Statement.kindName = ["BlockStatement"]) :
    ∃ (body : List Statement) (m' : Machine), p.body = [.block body] ∧
      m'.Asked suites accepted standardFuel (.execute m.realm.programFrame (.block body)) := by
  obtain ⟨s, hbody, hs⟩ := List.map_eq_singleton_iff.mp hkinds
  obtain ⟨body, rfl⟩ := Statement.exists_block_of_kindName hs
  obtain ⟨m', hhoist⟩ := Action.exists_hoist_block m.realm.programFrame body m
  have hasks := (ofFuel standardFuel).asks_executeProgram hbody (hbody ▸ hhoist)
  exact ⟨body, m', hbody, .program h hp (.direct hasks)⟩

end EcmaEval

/-! # Histories of sessions -/

namespace EcmaEval

open EcmaEval.Action Engine

variable {L : Law} {hidden : Set ObjectId} {m m' : Machine} {q : Query}

/-! ## Engines that break down where they are -/

theorem Law.Conducts.haltingHere {α : Type} [HasFacts α] {K : Knowledge} {condition : Prop}
    {cause : Breakdown} {a : Action α} [ha : L.Conducts K a] :
    L.Conducts K (a.haltingAt condition m ⟨cause, m⟩) := by
  refine ⟨fun m' hm' => ?_⟩
  unfold Action.haltingAt
  split
  · next hpoint =>
    obtain ⟨-, rfl⟩ := hpoint
    exact .error (.refl hm'.sound) (Set.empty_subset _)
  · exact ha.ends hm'

/-- An engine may break down anywhere, and leave the machine as it is. -/
instance Engine.behaves_haltingHere {engine : Engine} [hengine : engine.Behaves L]
    (cause : Breakdown) : (engine.haltingAt q m ⟨cause, m⟩).Behaves L := by
  constructor
  all_goals
    intros
    exact .haltingHere

/-! ## Parts -/

section Parts

variable {α : Type} {run : Engine → Action α} {post : α → Set Fact}

/-- Until a part of it starts, a run changes a machine as the law lets it. -/
theorem Engine.Asks.grows {engine : Engine} [engine.Behaves L] [engine.Quiet]
    (hasks : engine.Asks run m q m')
    (hends : ∀ (engine : Engine) [engine.Behaves L] [engine.Quiet],
      L.Ends hidden m post (run engine m))
    (halike : ∀ {h h' : Halt} {engine engine' : Engine}, Engine.Alike h h' engine engine' →
      run engine m = run engine' m ∨ h.Ends (run engine m) ∧ h'.Ends (run engine' m)) :
    L.Grows m m' := by
  obtain ⟨n, hn, hsame⟩ := hasks.ends_haltingAt halike ⟨.malformed "" "", m'⟩
  have hend := hends (engine.haltingAt q m' ⟨.malformed "" "", m'⟩)
  rw [hn] at hend
  cases hend with
  | error hstep _ =>
    refine hstep.grows.trans (.withRegisters ?_ ?_ ?_) <;> rw [hsame]

variable {suites : Prop}

/-- Until any part of it starts, a run changes a machine as the law lets it. -/
theorem PartOf.grows {fuel k : Nat} (hpart : PartOf run fuel m k q m')
    (hm : m.Sound (.lax suites) hidden)
    (hends : ∀ (engine : Engine) [engine.Behaves (.lax suites)] [engine.Quiet],
      (Law.lax suites).Ends hidden m post (run engine m))
    (halike : ∀ {h h' : Halt} {engine engine' : Engine}, Engine.Alike h h' engine engine' →
      run engine m = run engine' m ∨ h.Ends (run engine m) ∧ h'.Ends (run engine' m)) :
    (Law.lax suites).Grows m m' := by
  have hbehaves := behaves_ofFuel (Law.records_lax suites)
  have hquiet := quiet_ofFuel
  -- Induction on how the part is reached: each part grows from where the one around it starts.
  induction hpart with
  | direct hasks => exact hasks.grows hends halike
  | @nested k q q' m' m'' hpart hown hasks ih =>
    obtain ⟨hidden', hm', hq⟩ := hpart.fits (Law.isLax_lax suites) hm hends halike
    exact ih.trans (hasks.grows (fun _ => ends_phrase hm' hq (fun _ _ _ _ => trivial)
      fun _ _ _ _ => trivial) fun _ => Alike.ends_phrase hown)

end Parts

/-! ## Sessions -/

namespace Machine

/-- The host starts and ends what it does, and in between parts of it start and end. -/
inductive Precedes (suites : Prop) (accepted : Program → Prop) : Machine → Machine → Prop where
  | installSuite {m : Machine} (h : m.Hosted suites accepted) (hsuites : suites) :
    Precedes suites accepted m (m.after Action.installSuite)
  | run {m : Machine} (h : m.Hosted suites accepted) {p : Program} (hp : accepted p) :
    Precedes suites accepted m (m.run p).machine
  | call {m : Machine} (h : m.Hosted suites accepted) {callee this : Value} {args : List Value}
    (hvalues : ∀ v ∈ callee :: this :: args, v.In m.heap) :
    Precedes suites accepted m (m.call callee this args).machine
  | define {m : Machine} (h : m.Hosted suites accepted) (name : String) {v : Value}
    (hv : v.In m.heap) : Precedes suites accepted m (m.define name v)
  | hostFunction {m : Machine} (h : m.Hosted suites accepted) (f : HostFunction) :
    Precedes suites accepted m (m.hostFunction f).machine
  | withOptions {m : Machine} (h : m.Hosted suites accepted) (options : ParseOptions) :
    Precedes suites accepted m (m.withOptions options)
  | clearOutput {m : Machine} (h : m.Hosted suites accepted) :
    Precedes suites accepted m m.clearOutput
  /-- A part of the run of a program starts. -/
  | program {m m' : Machine} (h : m.Hosted suites accepted) {p : Program} (hp : accepted p)
    {k : Nat} {q : Query}
    (hpart : PartOf (·.executeProgram m.realm.programFrame p) standardFuel m k q m') :
    Precedes suites accepted m m'
  /-- A part of a call by the host starts. -/
  | callee {m m' : Machine} (h : m.Hosted suites accepted) {callee this : Value} {args : List Value}
    (hvalues : ∀ v ∈ callee :: this :: args, v.In m.heap) {k : Nat} {q : Query}
    (hpart : PartOf (·.callValue callee this args) standardFuel m k q m') :
    Precedes suites accepted m m'
  /-- A part of a part starts. -/
  | inside {m m' : Machine} {k : Nat} {q q' : Query} (h : m.Asked suites accepted (k + 1) q)
    (hown : ¬ m.RunsApart q) (hasks : (ofFuel k).Asks (·.phrase q) m q' m') :
    Precedes suites accepted m m'
  /-- A part ends. -/
  | answer {m m' : Machine} {k : Nat} {q : Query} (h : m.Asked suites accepted k q)
    (hend : (ofFuel k).EndsIn q m m') : Precedes suites accepted m m'
  | trans {m m' m'' : Machine} (h : Precedes suites accepted m m')
    (h' : Precedes suites accepted m' m'') : Precedes suites accepted m m''

theorem grows_after {a : Action Unit} {post : Unit → Set Fact} (h : L.Ends hidden m post (a m)) :
    L.Grows m (m.after a) := by
  unfold after
  generalize a m = result at h
  cases h with
  | ok hstep _ => exact hstep.grows
  | error hstep _ => exact hstep.grows

theorem grows_perform {a : Action Value} {post : Value → Set Fact} (h : L.Ends hidden m post (a m)) :
    L.Grows m (m.perform a).machine := by
  have hclear (m' : Machine) : L.Grows m' m'.clearSignal := .withRegisters rfl rfl rfl
  unfold perform
  generalize a m = result at h
  cases h with
  | ok hstep _ => exact hstep.grows.trans (hclear _)
  | @error e _ hstep _ => cases e <;> exact hstep.grows.trans (hclear _)

variable {suites : Prop} {accepted : Program → Prop}

/-- What comes later in a session has grown from what was there. -/
theorem Precedes.grows (h : Precedes suites accepted m m') : (Law.lax suites).Grows m m' := by
  have hbehaves := behaves_ofFuel (Law.records_lax suites)
  have hquiet := quiet_ofFuel
  have : Engine.standard.Behaves (.lax suites) := hbehaves _
  have hfree (id : FrameId) (name : String) : (Law.lax suites).free id name := trivial
  -- Induction on the steps from one machine to the other.
  induction h with
  | installSuite h hsuites => exact grows_after (h.sound_lax.ends_installSuite hfree hsuites)
  | run h _ => exact grows_perform (h.sound_lax.ends_program hfree _ (Law.admits_lax suites _))
  | call h hvalues => exact grows_perform (h.sound_lax.ends_callValue _ hvalues)
  | define h name hv => exact grows_after (h.sound_lax.ends_define hfree name hv)
  | hostFunction h f => exact grows_perform (h.sound_lax.ends_hostFunction f)
  | withOptions _ _ => exact .withRegisters rfl rfl rfl
  | clearOutput _ => exact .withRegisters rfl rfl rfl
  | program h _ hpart =>
    exact hpart.grows h.sound_lax (fun engine =>
      h.sound_lax.ends_program hfree engine (Law.admits_lax suites _))
      fun _ => (Alike.alike_executeProgram _ _).ends _
  | callee h hvalues hpart =>
    exact hpart.grows h.sound_lax (fun engine => h.sound_lax.ends_callValue engine hvalues)
      fun _ => Alike.ends _
  | inside h hown hasks =>
    obtain ⟨hidden, hm, hq⟩ := h.fits
    exact hasks.grows (fun _ => ends_phrase hm hq (fun _ _ _ _ => trivial) fun _ _ _ _ => trivial)
      fun _ => Alike.ends_phrase hown
  | answer h hend =>
    obtain ⟨hidden, hm, hq⟩ := h.fits
    obtain ⟨mayStop, hstep⟩ := hend.step hm hq
    exact hstep.grows
  | trans _ _ ih ih' => exact ih.trans ih'

end Machine

end EcmaEval
