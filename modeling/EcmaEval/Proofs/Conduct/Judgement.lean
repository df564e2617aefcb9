import EcmaEval.Library.Promise
import EcmaEval.Proofs.Conduct.Ancestry
import EcmaEval.Proofs.Conduct.Fact
import EcmaEval.Proofs.Conduct.Limit
import EcmaEval.Proofs.Conduct.Scope
import EcmaEval.Suite.Check

/-!
# Runs on sound machines

A machine is sound when everything that it holds mentions facts that are true of it, and its chains
of prototypes, of bound functions and of frames end.  An action conducts itself well when from every
sound machine, of which what is known is true, it leaves a sound one, whatever way it ends; what it
gives or throws mentions only what is true; and between the two machines nothing was done that a run
may not do: frames keep their names, and promises only go from pending to settled.

## Main definitions

* `PromiseState.Leads`: how the state of a promise may change
* `Machine.granted`: the facts that are true of a machine
* `Machine.Sound`: a machine that holds nothing but what is there
* `Law.Grows`: how a run may change a machine
* `Law.Settles`: promises are settled by nothing but a settlement that ran
* `Law.Conducts`: an action conducts itself well

## Main results

* `Machine.granted_mono`: what is true of a machine stays true
* `Law.Conducts.bind`: two actions in sequence
-/

namespace EcmaEval

/-! ## States of promises -/

/-- How the state of a promise may change.  While it is pending reactions are added behind those that
are there; when it is settled it stays as it is. -/
inductive PromiseState.Leads : Option PromiseState → Option PromiseState → Prop where
  /-- What is no promise may become one. -/
  | start (state : Option PromiseState) : Leads none state
  | wait {decided decided' : Bool} {reactions : List Reaction} (more : List Reaction)
    (hdecided : decided = true → decided' = true) :
    Leads (some (.pending decided reactions)) (some (.pending decided' (reactions ++ more)))
  | settle (decided : Bool) (reactions : List Reaction) (outcome : Settlement) :
    Leads (some (.pending decided reactions)) (some (.settled outcome))
  | stay (outcome : Settlement) : Leads (some (.settled outcome)) (some (.settled outcome))

namespace PromiseState.Leads

theorem keep {decided decided' : Bool} (reactions : List Reaction)
    (hdecided : decided = true → decided' = true) :
    Leads (some (.pending decided reactions)) (some (.pending decided' reactions)) := by
  have hwait : Leads (some (.pending decided reactions)) (some (.pending decided' (reactions ++ []))) :=
    wait [] hdecided
  rwa [List.append_nil] at hwait

theorem refl (state : Option PromiseState) : Leads state state := by
  match state with
  | none => exact .start none
  | some (.pending decided reactions) => exact keep reactions id
  | some (.settled outcome) => exact .stay outcome

theorem trans {s s' s'' : Option PromiseState} (h : Leads s s') (h' : Leads s' s'') :
    Leads s s'' := by
  cases h with
  | start => exact .start _
  | wait more hdecided =>
    cases h' with
    | wait more' hdecided' =>
      rw [List.append_assoc]
      exact .wait _ (hdecided' ∘ hdecided)
    | settle => exact .settle ..
  | settle =>
    cases h'
    exact .settle ..
  | stay => exact h'

end PromiseState.Leads

namespace Heap

/-- The state of a promise. -/
def stateOf (h : Heap) (id : ObjectId) : Option PromiseState := (h.get id).promiseState?

/-- What is an array stays one. -/
def KeepsArrays (h h' : Heap) : Prop :=
  ∀ id, (h.get id).isArray = true → (h'.get id).isArray = true

theorem KeepsArrays.refl (h : Heap) : h.KeepsArrays h := fun _ harray => harray

theorem KeepsArrays.trans {h h' h'' : Heap} (hk : h.KeepsArrays h') (hk' : h'.KeepsArrays h'') :
    h.KeepsArrays h'' := fun id harray => hk' id (hk id harray)

/-- What is a function stays one, and keeps what it runs. -/
def KeepsFunctions (h h' : Heap) : Prop :=
  ∀ id body, (h.get id).callable? = some body → (h'.get id).callable? = some body

theorem KeepsFunctions.refl (h : Heap) : h.KeepsFunctions h := fun _ _ hbody => hbody

theorem KeepsFunctions.trans {h h' h'' : Heap} (hk : h.KeepsFunctions h')
    (hk' : h'.KeepsFunctions h'') : h.KeepsFunctions h'' :=
  fun id body hbody => hk' id body (hk id body hbody)

/-- The states of all promises change as they may. -/
def Leads (h h' : Heap) : Prop := ∀ id, PromiseState.Leads (h.stateOf id) (h'.stateOf id)

theorem Leads.refl (h : Heap) : h.Leads h := fun _ => .refl _

theorem Leads.trans {h h' h'' : Heap} (hl : h.Leads h') (hl' : h'.Leads h'') : h.Leads h'' :=
  fun id => (hl id).trans (hl' id)

end Heap

/-! ## Laws -/

/-- What is fixed for a whole run. -/
structure Law where
  /-- The functions of suites may be there. -/
  suites : Prop
  /-- The names that may be added to a frame. -/
  free : FrameId → String → Prop
  /-- A settlement of a promise ran to its end, between two machines. -/
  completes : ObjectId → Settlement → Machine → Machine → Prop
  /-- A settlement of a promise was stopped. -/
  stops : ObjectId → Settlement → Machine → Machine → Prop
  /-- Calls of the parent constructor belong to the constructor around them. -/
  lexical : Prop := False

namespace Machine

/-- A fact is true of a machine.  The objects in `hidden` are not to be named. -/
def Grants (L : Law) (hidden : Set ObjectId) (m : Machine) : Fact → Prop
  | .object id => id.index < m.heap.size ∧ id ∉ hidden
  | .place id => id.index < m.heap.size
  | .frame id => id.index < m.frames.size
  | .root id => id.index < m.frames.size ∧ (m.frames.get id).kind ≠ .block
  | .owns scope name =>
    scope.index < m.frames.size ∧ (m.frames.get (m.frames.variableScope scope)).binds name = true
  | .free id name => L.free id name
  | .suites => L.suites
  | .calls scope args => L.lexical → m.frames.CallsFrom scope args

/-- The facts that are true of a machine. -/
def granted (L : Law) (hidden : Set ObjectId) (m : Machine) : Set Fact :=
  {f | m.Grants L hidden f}

/-- Everything that the machine holds is there, and what is hidden is held by nothing. -/
structure Sound (L : Law) (hidden : Set ObjectId) (m : Machine) : Prop where
  objects : ∀ id, facts (m.heap.get id) ⊆ m.granted L hidden
  frames : ∀ id, facts (m.frames.get id) ⊆ m.granted L hidden
  realm : facts m.realm ⊆ m.granted L hidden
  signal : facts m.signal ⊆ m.granted L hidden
  newTarget : facts m.newTarget ⊆ m.granted L hidden
  grounded : m.heap.Grounded
  anchored : m.heap.Anchored
  nested : m.frames.Nested
  concealed : ∀ id ∈ hidden, id.index < m.heap.size
  /-- New frames may be given any name. -/
  fresh : ∀ (id : FrameId) (name : String), m.frames.size ≤ id.index → L.free id name

/-- The machine is sound, and what is known is true of it. -/
structure Meets (L : Law) (K : Knowledge) (m : Machine) : Prop where
  sound : m.Sound L K.hidden
  known : K.known ⊆ m.granted L K.hidden

theorem Meets.facts_subset {L : Law} {K : Knowledge} {m : Machine} (h : m.Meets L K) {α : Type}
    [HasFacts α] (x : α) [hx : Shown K x] : facts x ⊆ m.granted L K.hidden :=
  hx.facts_subset.trans h.known

end Machine

namespace Law

variable (L : Law)

/-- Objects and frames are there still, with the names that they had, and promises only go on. -/
structure Extends (m m' : Machine) : Prop where
  size_le : m.heap.size ≤ m'.heap.size
  frames : Frames.Extends L.free m.frames m'.frames
  leads : m.heap.Leads m'.heap

/-- An array that is overlong in the second machine but was not in the first one became so in
between, in an operation that does not look at the limit. -/
def Lengthens (m m' : Machine) : Prop :=
  ∀ id, m'.heap.Overlong id → m.heap.Overlong id ∨
    ∃ m₁ m₂, L.Extends m m₁ ∧ m₁.Overfills id m₂ ∧ L.Extends m₂ m'

/-- How a run may change a machine. -/
structure Grows (m m' : Machine) : Prop extends L.Extends m m' where
  persists : ∀ {id}, id.index < m.frames.size → (m.frames.get id).Persists (m'.frames.get id)
  realm : m'.realm = m.realm
  lengthens : L.Lengthens m m'
  arrays : m.heap.KeepsArrays m'.heap
  functions : m.heap.KeepsFunctions m'.heap

/-- A promise that is settled in the second machine but was not in the first one was settled in
between, by a settlement that ran to its end, or was stopped if it may be. -/
def Settles (mayStop : Prop) (m m' : Machine) : Prop :=
  ∀ id outcome, m'.heap.stateOf id = some (.settled outcome) →
    m.heap.stateOf id = some (.settled outcome) ∨
    ∃ m₁ m₂ decided reactions, m.heap.Leads m₁.heap ∧
      m₁.heap.stateOf id = some (.pending decided reactions) ∧
      (L.completes id outcome m₁ m₂ ∨ mayStop ∧ L.stops id outcome m₁ m₂) ∧
      m₂.heap.Leads m'.heap

/-- What holds between the machines at the start and at the end of a run. -/
structure Step (hidden : Set ObjectId) (mayStop : Prop) (m m' : Machine) : Prop where
  sound : m'.Sound L hidden
  grows : L.Grows m m'
  settles : L.Settles mayStop m m'

end Law

variable {L : Law} {hidden : Set ObjectId}

/-! ## Steps -/

namespace Machine

/-- What is true of a machine stays true while objects and frames are added and names are bound. -/
theorem granted_mono_of_extends {m m' : Machine} (hs : m.Sound L hidden)
    (hsize : m.heap.size ≤ m'.heap.size) (hextends : Frames.Extends L.free m.frames m'.frames)
    (hupholds : ∀ {id}, id.index < m.frames.size → (m.frames.get id).Upholds (m'.frames.get id)) :
    m.granted L hidden ⊆ m'.granted L hidden := by
  intro fact hfact
  have hframes := hextends.size_le
  cases fact with
  | object id => exact ⟨hfact.1.trans_le hsize, hfact.2⟩
  | place id => exact hfact.trans_le hsize
  | frame id => exact hfact.trans_le hframes
  | root id => exact ⟨hfact.1.trans_le hframes, (hextends.stays hfact.1).kind.symm ▸ hfact.2⟩
  | owns scope name =>
    obtain ⟨hlt, hbinds⟩ := hfact
    refine ⟨hlt.trans_le hframes, ?_⟩
    rw [hextends.variableScope hs.nested hlt]
    exact (hextends.stays ((hs.nested.variableScope_le hlt).trans_lt hlt)).kept hbinds
  | free id name => exact hfact
  | suites => exact hfact
  | calls scope args => exact fun hlexical => (hfact hlexical).upheld hupholds hframes

/-- What is true of a machine stays true. -/
theorem granted_mono {m m' : Machine} (hs : m.Sound L hidden) (h : L.Grows m m') :
    m.granted L hidden ⊆ m'.granted L hidden :=
  granted_mono_of_extends hs h.size_le h.frames fun hid => (h.persists hid).upholds

/-- The facts depend on the heap and the frames alone. -/
theorem granted_eq {m m' : Machine} (hheap : m'.heap = m.heap) (hframes : m'.frames = m.frames) :
    m'.granted L hidden = m.granted L hidden := by
  ext fact
  change m'.Grants L hidden fact ↔ m.Grants L hidden fact
  unfold Grants
  rw [hheap, hframes]

/-- Where calls of the parent constructor may stand anywhere, code mentions nothing that is not
true. -/
theorem code_subset_of_not_lexical {α : Type} [HasSites α] {m : Machine} (h : ¬ L.lexical)
    (code : Framed α) : facts code ⊆ m.granted L hidden := by
  rintro _ (⟨scope, args, rfl, -⟩ | ⟨scope, args, rfl, -⟩) <;> exact fun hlexical => absurd hlexical h

/-- Registers may take in what is there. -/
theorem Sound.withRegisters {m m' : Machine} (h : m.Sound L hidden) (hheap : m'.heap = m.heap)
    (hframes : m'.frames = m.frames) (hrealm : facts m'.realm ⊆ m.granted L hidden)
    (hsignal : facts m'.signal ⊆ m.granted L hidden)
    (htarget : facts m'.newTarget ⊆ m.granted L hidden) : m'.Sound L hidden := by
  have hgranted : m'.granted L hidden = m.granted L hidden := granted_eq hheap hframes
  constructor
  · rw [hheap, hgranted]; exact h.objects
  · rw [hframes, hgranted]; exact h.frames
  · rw [hgranted]; exact hrealm
  · rw [hgranted]; exact hsignal
  · rw [hgranted]; exact htarget
  · rw [hheap]; exact h.grounded
  · rw [hheap]; exact h.anchored
  · rw [hframes]; exact h.nested
  · rw [hheap]; exact h.concealed
  · rw [hframes]; exact h.fresh

end Machine

namespace Law

variable {mayStop mayStop' : Prop} {m m' m'' : Machine}

namespace Extends

/-- Registers are no part of what is extended. -/
theorem of_eq (hheap : m'.heap = m.heap) (hframes : m'.frames = m.frames) : L.Extends m m' := by
  refine ⟨?_, ?_, ?_⟩
  · rw [hheap]
  · rw [hframes]; exact .refl _
  · rw [hheap]; exact .refl _

theorem refl (m : Machine) : L.Extends m m := of_eq rfl rfl

theorem trans (h : L.Extends m m') (h' : L.Extends m' m'') : L.Extends m m'' where
  size_le := h.size_le.trans h'.size_le
  frames := h.frames.trans h'.frames
  leads := h.leads.trans h'.leads

end Extends

namespace Lengthens

/-- Where no array is overlong that was not, nothing led it there. -/
theorem of_forall (h : ∀ id, m'.heap.Overlong id → m.heap.Overlong id) : L.Lengthens m m' :=
  fun id hlong => .inl (h id hlong)

theorem of_eq (hheap : m'.heap = m.heap) : L.Lengthens m m' :=
  of_forall fun id hlong => by rwa [hheap] at hlong

theorem of_modify {id : ObjectId} {change : Object → Object}
    (hchange : ∀ o : Object, (change o).Overlong → o.Overlong) :
    L.Lengthens m { m with heap := m.heap.modify id change } :=
  of_forall fun _ hlong => hlong.of_modify hchange

/-- What may lead an array beyond the limit does so in an operation that does not look at it. -/
theorem of_inserts {id : ObjectId} {change : Array Value → Array Value} (hchange : Inserts change) :
    L.Lengthens m { m with heap := m.heap.modify id (·.withElements change) } := by
  intro id' hlong
  refine or_iff_not_imp_left.mpr fun hshort => ?_
  obtain ⟨rfl, hlong⟩ := hlong.modify_cases.resolve_left hshort
  obtain ⟨elements, helements, hsize⟩ := hlong
  rw [Object.elements?_withElements, Option.map_eq_some_iff] at helements
  obtain ⟨before, hbefore, rfl⟩ := helements
  have hle : before.size ≤ maxArrayLength :=
    Nat.le_of_not_lt fun hlt => hshort ⟨before, hbefore, hlt⟩
  exact ⟨m, { m with heap := m.heap.modify id' (·.withElements change) }, .refl _,
    .insert hchange hbefore hle hsize, .refl _⟩

theorem trans (he : L.Extends m m') (he' : L.Extends m' m'') (h : L.Lengthens m m')
    (h' : L.Lengthens m' m'') : L.Lengthens m m'' := by
  intro id hlong
  rcases h' id hlong with hbefore | ⟨m₁, m₂, hbefore, hfills, hafter⟩
  · refine (h id hbefore).imp_right ?_
    rintro ⟨m₁, m₂, hbefore, hfills, hafter⟩
    exact ⟨m₁, m₂, hbefore, hfills, hafter.trans he'⟩
  · exact .inr ⟨m₁, m₂, he.trans hbefore, hfills, hafter⟩

end Lengthens

namespace Grows

/-- Registers are no part of what grows. -/
theorem withRegisters (hheap : m'.heap = m.heap) (hframes : m'.frames = m.frames)
    (hrealm : m'.realm = m.realm) : L.Grows m m' where
  toExtends := .of_eq hheap hframes
  persists := by rw [hframes]; exact fun _ => .refl _
  realm := hrealm
  lengthens := .of_eq hheap
  arrays := by rw [hheap]; exact .refl _
  functions := by rw [hheap]; exact .refl _

theorem trans (h : L.Grows m m') (h' : L.Grows m' m'') : L.Grows m m'' where
  toExtends := h.toExtends.trans h'.toExtends
  persists hid := (h.persists hid).trans (h'.persists (hid.trans_le h.frames.size_le))
  realm := h'.realm.trans h.realm
  lengthens := .trans h.toExtends h'.toExtends h.lengthens h'.lengthens
  arrays := h.arrays.trans h'.arrays
  functions := h.functions.trans h'.functions

end Grows

namespace Settles

/-- Where no promise is settled, none had to be. -/
theorem of_forall (h : ∀ id outcome, m'.heap.stateOf id = some (.settled outcome) →
    m.heap.stateOf id = some (.settled outcome)) : L.Settles mayStop m m' :=
  fun id outcome hsettled => .inl (h id outcome hsettled)

theorem mono (h : L.Settles mayStop m m') (himp : mayStop → mayStop') : L.Settles mayStop' m m' :=
  fun id outcome hsettled => (h id outcome hsettled).imp_right
    fun ⟨m₁, m₂, decided, reactions, hbefore, hpending, hran, hafter⟩ =>
      ⟨m₁, m₂, decided, reactions, hbefore, hpending, hran.imp_right (And.imp_left himp), hafter⟩

theorem trans (hl : m.heap.Leads m'.heap) (hl' : m'.heap.Leads m''.heap)
    (h : L.Settles mayStop m m') (h' : L.Settles mayStop m' m'') : L.Settles mayStop m m'' := by
  intro id outcome hsettled
  rcases h' id outcome hsettled with
    hbefore | ⟨m₁, m₂, decided, reactions, hbefore, hpending, hran, hafter⟩
  · refine (h id outcome hbefore).imp_right ?_
    rintro ⟨m₁, m₂, decided, reactions, hbefore, hpending, hran, hafter⟩
    exact ⟨m₁, m₂, decided, reactions, hbefore, hpending, hran, hafter.trans hl'⟩
  · exact .inr ⟨m₁, m₂, decided, reactions, hl.trans hbefore, hpending, hran, hafter⟩

end Settles

namespace Step

/-- Registers may take in what is there. -/
theorem withRegisters (hm : m.Sound L hidden) (hheap : m'.heap = m.heap)
    (hframes : m'.frames = m.frames) (hrealm : m'.realm = m.realm)
    (hsignal : facts m'.signal ⊆ m.granted L hidden)
    (htarget : facts m'.newTarget ⊆ m.granted L hidden) : L.Step hidden mayStop m m' where
  sound := hm.withRegisters hheap hframes (hrealm ▸ hm.realm) hsignal htarget
  grows := .withRegisters hheap hframes hrealm
  settles := .of_forall fun id outcome h => by rwa [hheap] at h

theorem refl (hm : m.Sound L hidden) : L.Step hidden mayStop m m :=
  .withRegisters hm rfl rfl rfl hm.signal hm.newTarget

theorem trans (h : L.Step hidden mayStop m m') (h' : L.Step hidden mayStop m' m'') :
    L.Step hidden mayStop m m'' where
  sound := h'.sound
  grows := h.grows.trans h'.grows
  settles := .trans h.grows.leads h'.grows.leads h.settles h'.settles

theorem mono (h : L.Step hidden mayStop m m') (himp : mayStop → mayStop') :
    L.Step hidden mayStop' m m' :=
  ⟨h.sound, h.grows, h.settles.mono himp⟩

/-- Registers that are changed before a run, and the realm, are put back behind it. -/
theorem putBack {inner m₁ : Machine} (hm : m.Sound L hidden) (h : L.Step hidden mayStop inner m₁)
    (hheap : inner.heap = m.heap) (hframes : inner.frames = m.frames)
    (hheap' : m'.heap = m₁.heap) (hframes' : m'.frames = m₁.frames) (hrealm : m'.realm = m.realm)
    (hsignal : facts m'.signal ⊆ m.granted L hidden ∪ m₁.granted L hidden)
    (htarget : facts m'.newTarget ⊆ m.granted L hidden ∪ m₁.granted L hidden) :
    L.Step hidden mayStop m m' := by
  have hbefore : L.Extends m inner := .of_eq hheap hframes
  have hafter : L.Extends m₁ m' := .of_eq hheap' hframes'
  have hgrows : L.Grows m m' := by
    refine ⟨(hbefore.trans h.grows.toExtends).trans hafter, ?_, hrealm, ?_, ?_, ?_⟩
    · rw [hframes', ← hframes]
      exact h.grows.persists
    · exact .trans hbefore (h.grows.toExtends.trans hafter) (.of_eq hheap)
        (.trans h.grows.toExtends hafter h.grows.lengthens (.of_eq hheap'))
    · rw [hheap', ← hheap]
      exact h.grows.arrays
    · rw [hheap', ← hheap]
      exact h.grows.functions
  have hgranted : m'.granted L hidden = m₁.granted L hidden := Machine.granted_eq hheap' hframes'
  have hmono : m.granted L hidden ∪ m₁.granted L hidden ⊆ m₁.granted L hidden :=
    Set.union_subset (hgranted ▸ Machine.granted_mono hm hgrows) Set.Subset.rfl
  refine ⟨?_, hgrows, fun id outcome hsettled => ?_⟩
  · refine h.sound.withRegisters hheap' hframes' ?_ (hsignal.trans hmono) (htarget.trans hmono)
    rw [hrealm]
    exact hm.realm.trans (Set.subset_union_left.trans hmono)
  · have hsettles := h.settles id outcome
    rw [hheap, ← hheap'] at hsettles
    exact hsettles hsettled

end Step

/-! ## Ends of runs -/

variable {α β : Type}

/-- An action that was started in the machine `m` has ended well.  If it has a value, the facts in
`post` are true then. -/
inductive Ends (L : Law) (hidden : Set ObjectId) (m : Machine) (post : α → Set Fact) :
    EStateM.Result Abrupt Machine α → Prop where
  | ok {x : α} {m' : Machine} (hstep : L.Step hidden L.suites m m')
    (hx : post x ⊆ m'.granted L hidden) : Ends L hidden m post (.ok x m')
  | error {e : Abrupt} {m' : Machine} (hstep : L.Step hidden (L.suites ∨ e.Fatal) m m')
    (he : facts e ⊆ m'.granted L hidden) : Ends L hidden m post (.error e m')

/-- The action ends well from each machine that meets what is known. -/
def Leaves (L : Law) (K : Knowledge) (a : Action α) (post : α → Set Fact) : Prop :=
  ∀ m, m.Meets L K → L.Ends K.hidden m post (a m)

/-- The action conducts itself well: it ends well, and what it gives mentions only what is true. -/
class Conducts [HasFacts α] (L : Law) (K : Knowledge) (a : Action α) : Prop where
  leaves : L.Leaves K a facts

theorem Conducts.ends [HasFacts α] {K : Knowledge} {a : Action α} (h : L.Conducts K a) {m : Machine}
    (hm : m.Meets L K) : L.Ends K.hidden m facts (a m) :=
  h.leaves m hm

theorem Ends.of_step {post : α → Set Fact} {result : EStateM.Result Abrupt Machine α}
    (hstep : L.Step hidden L.suites m m') (h : L.Ends hidden m' post result) :
    L.Ends hidden m post result := by
  cases h with
  | ok hstep' hx => exact .ok (hstep.trans hstep') hx
  | error hstep' he => exact .error ((hstep.mono .inl).trans hstep') he

end Law

/-- What is known stays true, and more may be known from then on. -/
theorem Machine.Meets.plus {K : Knowledge} {m m' : Machine} {mayStop : Prop} (hm : m.Meets L K)
    (hstep : L.Step K.hidden mayStop m m') {F : Set Fact} (hF : F ⊆ m'.granted L K.hidden) :
    m'.Meets L (K.plus F) where
  sound := hstep.sound
  known := Set.union_subset (hm.known.trans (granted_mono hm.sound hstep.grows)) hF

/-- What is known stays true. -/
theorem Machine.Meets.step {K : Knowledge} {m m' : Machine} {mayStop : Prop} (hm : m.Meets L K)
    (hstep : L.Step K.hidden mayStop m m') : m'.Meets L K :=
  ⟨hstep.sound, hm.known.trans (granted_mono hm.sound hstep.grows)⟩

namespace Law

variable {K : Knowledge} {α β : Type} {a b : Action α} {P : α → Set Fact} {Q : β → Set Fact}

/-- The second action starts where the first one has ended. -/
theorem Ends.bind {m : Machine} (hm : m.Meets L K) (ha : L.Ends K.hidden m P (a m))
    {f : α → Action β}
    (hf : ∀ x m', m'.Meets L (K.plus (P x)) → L.Step K.hidden L.suites m m' →
      L.Ends K.hidden m' Q (f x m')) :
    L.Ends K.hidden m Q ((a >>= f) m) := by
  rw [Discipline.bind_apply]
  generalize a m = result at ha
  cases ha with
  | ok hstep hx => exact .of_step hstep (hf _ _ (hm.plus hstep hx) hstep)
  | error hstep he => exact .error hstep he

/-- The target of `new` is put back, whatever it was in between. -/
theorem Ends.underTarget {target : Option ObjectId} {m : Machine} (hm : m.Sound L hidden)
    (ha : L.Ends hidden { m with newTarget := target } P (a { m with newTarget := target })) :
    L.Ends hidden m P (Action.underTarget target a m) := by
  unfold Action.underTarget
  dsimp only
  generalize a { m with newTarget := target } = result at ha
  have hback {mayStop : Prop} {m' : Machine}
      (h : L.Step hidden mayStop { m with newTarget := target } m') :
      L.Step hidden mayStop m { m' with newTarget := m.newTarget } :=
    .putBack hm h rfl rfl rfl rfl h.grows.realm (h.sound.signal.trans Set.subset_union_right)
      (hm.newTarget.trans Set.subset_union_left)
  cases ha with
  | ok hstep hx => exact .ok (hback hstep) hx
  | error hstep he => exact .error (hback hstep) he

namespace Leaves

theorem pure {x : α} (hx : P x ⊆ K.known) : L.Leaves K (pure x) P :=
  fun _ hm => .ok (.refl hm.sound) (hx.trans hm.known)

theorem bind {f : α → Action β} (ha : L.Leaves K a P) (hf : ∀ x, L.Leaves (K.plus (P x)) (f x) Q) :
    L.Leaves K (a >>= f) Q :=
  fun m hm => (ha m hm).bind hm fun x m' hm' _ => hf x m' hm'

/-- What is known may be more than what is needed. -/
theorem mono {K' : Knowledge} (h : L.Leaves K a P) (hknown : K.known ⊆ K'.known)
    (hhidden : K'.hidden = K.hidden) : L.Leaves K' a P := by
  obtain ⟨known', hidden'⟩ := K'
  cases hhidden
  exact fun m hm => h m ⟨hm.sound, hknown.trans hm.known⟩

/-- What is left known follows from what was known and what the action gives. -/
theorem imp {Q : α → Set Fact} (h : L.Leaves K a P) (hQ : ∀ x, Q x ⊆ K.known ∪ P x) :
    L.Leaves K a Q := by
  rw [← bind_pure a]
  exact h.bind fun x => .pure (hQ x)

/-- What was known is still true at the end. -/
theorem remember (h : L.Leaves K a P) {F : Set Fact} (hF : F ⊆ K.known) :
    L.Leaves K a fun _ => F := by
  intro m hm
  have hend := h m hm
  generalize a m = result at hend
  cases hend with
  | ok hstep hx => exact .ok hstep (hF.trans (hm.step hstep).known)
  | error hstep he => exact .error hstep he

/-- An action that leaves more known than what its value mentions, behind another one. -/
theorem after [HasFacts α] {f : α → Action β} (ha : L.Conducts K a)
    (hf : ∀ x, L.Leaves (K.and x) (f x) Q) : L.Leaves K (a >>= f) Q :=
  ha.leaves.bind hf

/-- Behind an action that leaves more known than what its value mentions. -/
theorem andThen [HasFacts β] {f : α → Action β} (ha : L.Leaves K a P)
    (hf : ∀ x, L.Conducts (K.plus (P x)) (f x)) : L.Conducts K (a >>= f) :=
  ⟨ha.bind fun x => (hf x).leaves⟩

end Leaves

namespace Conducts

variable [HasFacts α] [HasFacts β]

theorem bind {f : α → Action β} [ha : L.Conducts K a] (hf : ∀ x, L.Conducts (K.and x) (f x)) :
    L.Conducts K (a >>= f) :=
  ⟨ha.leaves.bind fun x => (hf x).leaves⟩

/-- What is known may be more than what is needed. -/
theorem mono {K' : Knowledge} (h : L.Conducts K a) (hknown : K.known ⊆ K'.known)
    (hhidden : K'.hidden = K.hidden) : L.Conducts K' a :=
  ⟨h.leaves.mono hknown hhidden⟩

/-- What is known already need not be named. -/
theorem of_shown {γ : Type} [HasFacts γ] (x : γ) [hx : Shown K x] (h : L.Conducts (K.and x) a) :
    L.Conducts K a :=
  h.mono (Set.union_subset Set.Subset.rfl hx.facts_subset) rfl

instance (priority := low) and_left {γ : Type} [HasFacts γ] (x : γ) [h : L.Conducts K a] :
    L.Conducts (K.and x) a :=
  h.mono Set.subset_union_left rfl

instance pure (x : α) [Shown K x] : L.Conducts K (pure x : Action α) :=
  ⟨fun _ hm => .ok (.refl hm.sound) (hm.facts_subset x)⟩

instance {f : α → Action β} [L.Conducts K a] [∀ x, L.Conducts (K.and x) (f x)] :
    L.Conducts K (a >>= f) :=
  bind inferInstance

instance {p : Prop} [Decidable p] [L.Conducts K a] [L.Conducts K b] :
    L.Conducts K (if p then a else b) := by
  split <;> infer_instance

instance (found : Option α) [Shown K found] [L.Conducts K a] :
    L.Conducts K (Action.orElseThrow found a) := by
  unfold Action.orElseThrow
  cases found with
  | none => infer_instance
  | some x =>
    have : Shown K x := .covered (some x)
    infer_instance

/-! ### Registers, texts and failures -/

section Registers

open EcmaEval.Action

variable {γ : Type} [HasFacts γ]

/-- An action that changes nothing but registers and texts. -/
theorem of_registers {x : Machine → α} {change : Machine → Machine}
    (hx : ∀ m, m.Meets L K → facts (x m) ⊆ m.granted L K.hidden)
    (hheap : ∀ m, (change m).heap = m.heap) (hframes : ∀ m, (change m).frames = m.frames)
    (hrealm : ∀ m, (change m).realm = m.realm)
    (hsignal : ∀ m, m.Meets L K → facts (change m).signal ⊆ m.granted L K.hidden)
    (htarget : ∀ m, m.Meets L K → facts (change m).newTarget ⊆ m.granted L K.hidden) :
    L.Conducts K (fun m => .ok (x m) (change m) : Action α) := by
  refine ⟨fun m hm => .ok (.withRegisters hm.sound (hheap m) (hframes m) (hrealm m) (hsignal m hm)
    (htarget m hm)) ?_⟩
  rw [Machine.granted_eq (hheap m) (hframes m)]
  exact hx m hm

/-- An action that only looks. -/
theorem of_read {x : Machine → α} (hx : ∀ m, m.Meets L K → facts (x m) ⊆ m.granted L K.hidden) :
    L.Conducts K (fun m => .ok (x m) m : Action α) :=
  ⟨fun m hm => .ok (.refl hm.sound) (hx m hm)⟩

theorem subset_of_plain [hα : Plain α] (x : α) (F : Set Fact) : facts x ⊆ F :=
  (hα.facts_eq x).subset.trans (Set.empty_subset F)

instance (f : TestLog → α) [Plain α] : L.Conducts K (readTests f) :=
  of_read fun _ _ => subset_of_plain _ _

instance : L.Conducts K readTarget := of_read fun _ hm => hm.sound.newTarget

instance (id : ObjectId) : L.Conducts K (isJoining id) := of_read fun _ _ => subset_of_plain _ _

instance : L.Conducts K isSignaled := of_read fun _ _ => subset_of_plain _ _

instance (change : TestLog → TestLog) : L.Conducts K (modifyTests change) :=
  of_registers (fun _ _ => subset_of_plain _ _) (fun _ => rfl) (fun _ => rfl) (fun _ => rfl)
    (fun _ hm => hm.sound.signal) fun _ hm => hm.sound.newTarget

instance (line : String) : L.Conducts K (writeLine line) :=
  of_registers (fun _ _ => subset_of_plain _ _) (fun _ => rfl) (fun _ => rfl) (fun _ => rfl)
    (fun _ hm => hm.sound.signal) fun _ hm => hm.sound.newTarget

instance (line : String) : L.Conducts K (writeDiagnostic line) :=
  of_registers (fun _ _ => subset_of_plain _ _) (fun _ => rfl) (fun _ => rfl) (fun _ => rfl)
    (fun _ hm => hm.sound.signal) fun _ hm => hm.sound.newTarget

instance (s : Signal) [Shown K s] : L.Conducts K (raise s) :=
  of_registers (fun _ _ => subset_of_plain _ _) (fun _ => rfl) (fun _ => rfl) (fun _ => rfl)
    (fun _ hm => hm.facts_subset s) fun _ hm => hm.sound.newTarget

instance : L.Conducts K takeSignal :=
  of_registers (fun _ hm => hm.sound.signal) (fun _ => rfl) (fun _ => rfl) (fun _ => rfl)
    (fun _ _ => Set.empty_subset _) fun _ hm => hm.sound.newTarget

instance (pending : Option Signal) [Shown K pending] : L.Conducts K (reinstate pending) := by
  refine of_registers (fun _ _ => subset_of_plain _ _) (fun _ => rfl) (fun _ => rfl)
    (fun _ => rfl) (fun m hm => ?_) fun _ hm => hm.sound.newTarget
  change facts (m.signal.or pending) ⊆ _
  have hsignal := hm.sound.signal
  generalize m.signal = signal at hsignal ⊢
  cases signal with
  | none => exact hm.facts_subset pending
  | some s => exact hsignal

instance (aimed : Signal → Bool) : L.Conducts K (absorb aimed) := by
  refine of_registers (fun _ _ => subset_of_plain _ _) (fun _ => rfl) (fun _ => rfl)
    (fun _ => rfl) (fun m hm => ?_) fun _ hm => hm.sound.newTarget
  change facts (m.signal.filter fun s => !aimed s) ⊆ _
  have hsignal := hm.sound.signal
  generalize m.signal = signal at hsignal ⊢
  cases signal with
  | none => exact hsignal
  | some s =>
    rw [Option.filter_some]
    split
    · exact hsignal
    · exact Set.empty_subset _

instance (v : Value) [Shown K v] : L.Conducts K (throwValue v : Action α) :=
  ⟨fun _ hm => .error (.refl hm.sound) (hm.facts_subset v)⟩

instance : L.Conducts K (exhausted : Action α) :=
  ⟨fun _ hm => .error (.refl hm.sound) (Set.empty_subset _)⟩

instance (cause : Breakdown) : L.Conducts K (breakDown cause : Action α) :=
  ⟨fun _ hm => .error (.refl hm.sound) (Set.empty_subset _)⟩

/-! ### Actions around actions -/

instance [ha : L.Conducts K a] : L.Conducts K (attempt a) := by
  refine ⟨fun m hm => ?_⟩
  have hend := ha.ends hm
  unfold attempt
  generalize a m = result at hend
  cases hend with
  | ok hstep hx => exact .ok hstep hx
  | @error e m' hstep he =>
    cases e with
    | thrown v => exact .ok (hstep.mono fun h => h.elim id False.elim) he
    | broken cause => exact .error hstep he
    | exhausted => exact .error hstep he

instance (id : ObjectId) [ha : L.Conducts K a] : L.Conducts K (whileJoining id a) := by
  refine ⟨fun m hm => ?_⟩
  have hend := ha.leaves { m with joining := id :: m.joining }
    ⟨hm.sound.withRegisters rfl rfl hm.sound.realm hm.sound.signal hm.sound.newTarget, hm.known⟩
  unfold whileJoining
  generalize a { m with joining := id :: m.joining } = result at hend
  have hback {mayStop : Prop} {m' : Machine}
      (h : L.Step K.hidden mayStop { m with joining := id :: m.joining } m') :
      L.Step K.hidden mayStop m { m' with joining := m'.joining.tail } :=
    .putBack hm.sound h rfl rfl rfl rfl h.grows.realm
      (h.sound.signal.trans Set.subset_union_right)
      (h.sound.newTarget.trans Set.subset_union_right)
  cases hend with
  | ok hstep hx => exact .ok (hback hstep) hx
  | error hstep he => exact .error (hback hstep) he

/-! ### Lists -/

instance {σ : Type} [HasFacts σ] (xs : List γ) (s : σ) (f : γ → σ → Action (ForInStep σ))
    [hxs : Shown K xs] [hs : Shown K s] [hf : ∀ x s, L.Conducts ((K.and x).and s) (f x s)] :
    L.Conducts K (forIn xs s f) := by
  -- Induction on the list; each step starts where the step before it has ended.
  induction xs generalizing s K with
  | nil =>
    rw [List.forIn_nil]
    infer_instance
  | cons x xs ih =>
    have hx : Shown K x := .covered (x :: xs)
    have hrest : Shown K xs := .covered (x :: xs)
    have : L.Conducts K (f x s) := .of_shown x (.of_shown s (hf x s))
    rw [List.forIn_cons]
    refine bind fun step => ?_
    cases step with
    | done s =>
      dsimp only
      infer_instance
    | yield s =>
      have (y : γ) (t : σ) : L.Conducts (((K.and (ForInStep.yield s)).and y).and t) (f y t) :=
        (hf y t).mono
          (Set.union_subset_union_left _ (Set.union_subset_union_left _ Set.subset_union_left)) rfl
      exact ih s

omit [HasFacts γ] in
theorem forM_of_mem {xs : List γ} {f : γ → Action PUnit} (h : ∀ x ∈ xs, L.Conducts K (f x)) :
    L.Conducts K (xs.forM f) := by
  induction xs with
  | nil => exact inferInstanceAs (L.Conducts K (Pure.pure _))
  | cons x xs ih =>
    have := h x List.mem_cons_self
    have := ih fun y hy => h y (List.mem_cons_of_mem x hy)
    exact inferInstanceAs (L.Conducts K (f x >>= fun _ => xs.forM f))

instance (xs : List γ) (f : γ → Action PUnit) [hxs : Shown K xs]
    [hf : ∀ x, L.Conducts (K.and x) (f x)] : L.Conducts K (xs.forM f) :=
  forM_of_mem fun x hx =>
    have := Shown.list_iff.mp hxs x hx
    of_shown x (hf x)

instance (xs : List γ) (f : γ → Action α) [hxs : Shown K xs]
    [hf : ∀ x, L.Conducts (K.and x) (f x)] : L.Conducts K (xs.mapM f) := by
  revert hxs
  induction xs with
  | nil =>
    intro _
    rw [List.mapM_nil]
    infer_instance
  | cons x xs ih =>
    intro hxs
    have hx : Shown K x := .covered (x :: xs)
    have hrest : Shown K xs := .covered (x :: xs)
    have := of_shown x (hf x)
    have := ih
    rw [List.mapM_cons]
    infer_instance

end Registers

end Conducts

end Law

end EcmaEval
