import EcmaEval.Proofs.Conduct.Judgement
import EcmaEval.Proofs.Conduct.Part
import EcmaEval.Proofs.Part.Breakdown

/-!
# What a machine holds, and the names in it

A machine holds objects, frames and registers.  They mention which objects and frames are there, but
never which names may be added to a frame: that is known in a run only.  So a machine that is sound
under one law is sound under each other one that allows for the same functions and calls, and for all
names in new frames.

Two walks over a tree have to agree: the one that binds what `var` declares before statements run,
and the run of the statements itself.  They do: when a statement runs, the frame that takes its
variables binds all of them.  So no run adds a name to a frame that is there, but for a declaration
in a list of statements, which adds what it declares to the frame of the list.

## Main definitions

* `Stored`: the things of a type do not mention which names may be added
* `Program.IsRead`: a program that was read from a text
* `Statement.lexicalNames`: the names that a declaration adds to its frame
* `Query.Declares`: a statement that adds a name to a frame

## Main results

* `Machine.Sound.under`: a sound machine is sound under another law
* `Machine.Asked.kept`: the parts of the runs of a session are code that was read
* `Machine.Asked.names_kept`: in a session frames keep their names
-/

namespace EcmaEval

/-- What a machine may hold: it does not say which names may be added to a frame. -/
def Fact.storable : Set Fact := {f | ∀ id name, f ≠ .free id name}

/-- The things of a type do not mention which names may be added to a frame. -/
class Stored (α : Type) [HasFacts α] : Prop where
  facts_subset : ∀ x : α, facts x ⊆ Fact.storable

namespace Stored

variable {α β γ : Type} [HasFacts α] [HasFacts β]

/-! ### Names of objects and frames -/

theorem place (id : ObjectId) : Fact.place id ∈ Fact.storable := fun _ _ h => by cases h

instance : Stored ObjectId := by
  refine ⟨fun id => Set.insert_subset_iff.mpr ⟨fun _ _ h => ?_, ?_⟩⟩
  · cases h
  · exact Set.singleton_subset_iff.mpr (place id)

instance : Stored FrameId :=
  ⟨fun id => Set.singleton_subset_iff.mpr fun _ _ h => by cases h⟩

theorem home (home : Option ObjectId) : homeFacts home ⊆ Fact.storable := by
  cases home with
  | none => exact Set.empty_subset _
  | some id => exact Set.singleton_subset_iff.mpr (place id)

instance : Stored Value := by
  refine ⟨fun v => ?_⟩
  cases v with
  | object id => exact facts_subset id
  | _ => exact Set.empty_subset _

/-! ### Options, pairs, lists and maps -/

instance [h : Stored α] : Stored (Option α) := by
  refine ⟨fun x => ?_⟩
  cases x with
  | none => exact Set.empty_subset _
  | some x => exact h.facts_subset x

instance [h : Stored α] : Stored (List α) :=
  ⟨fun _ => facts_subset_iff_forall_mem.mpr fun x _ => h.facts_subset x⟩

instance [Stored α] : Stored (Array α) := ⟨fun xs => facts_subset xs.toList⟩

instance [h : Stored α] : Stored (NameMap α) := by
  refine ⟨fun m => ?_⟩
  rintro f ⟨name, x, -, hf⟩
  exact h.facts_subset x hf

/-! ### Objects -/

instance : Stored Property := by
  refine ⟨fun p => ?_⟩
  cases p with
  | data v _ _ => exact facts_subset v
  | accessor getter setter _ => exact Set.union_subset (facts_subset getter) (facts_subset setter)

instance : Stored PropertyTable := ⟨fun t => facts_subset t.values⟩

instance : Stored Settlement := by
  refine ⟨fun outcome => ?_⟩
  cases outcome with
  | fulfilled v => exact facts_subset v
  | rejected v => exact facts_subset v

instance : Stored Reaction :=
  ⟨fun r => Set.union_subset (Set.union_subset (facts_subset r.onFulfilled)
    (facts_subset r.onRejected)) (facts_subset r.derived)⟩

instance : Stored PromiseState := by
  refine ⟨fun state => ?_⟩
  cases state with
  | pending _ reactions => exact facts_subset reactions
  | settled outcome => exact facts_subset outcome

theorem strays [HasSites γ] (x : γ) : strayFacts x ⊆ Fact.storable := by
  rintro _ ⟨scope, args, rfl, -⟩ id name h
  cases h

instance [HasSites γ] : Stored (Framed γ) := by
  refine ⟨fun code => Set.union_subset (strays code.phrase) ?_⟩
  rintro _ ⟨scope, args, rfl, -⟩ id name h
  cases h

instance : Stored FieldDefinition := ⟨fun field => facts_subset (Framed.mk none field.initializer)⟩

instance : Stored ClassDefinition :=
  ⟨fun d => Set.union_subset (Set.union_subset (Set.union_subset (facts_subset d.parent)
    (facts_subset d.prototype)) (facts_subset d.scope))
    (Set.union_subset (strays d.constructor?) (facts_subset d.fields))⟩

instance : Stored SuiteFunction := by
  have hsuites : ({.suites} : Set Fact) ⊆ Fact.storable :=
    Set.singleton_subset_iff.mpr fun _ _ h => by cases h
  refine ⟨fun f => ?_⟩
  cases f with
  | check _ _ actual _ => exact Set.union_subset hsuites (facts_subset actual)
  | _ => exact hsuites

instance : Stored Native := by
  refine ⟨fun f => ?_⟩
  cases f with
  | builtin _ => exact Set.empty_subset _
  | host _ => exact Set.empty_subset _
  | resolver promise _ => exact facts_subset promise
  | afterwards callback _ => exact facts_subset callback
  | suite f => exact facts_subset f

instance : Stored Callable := by
  refine ⟨fun body => ?_⟩
  cases body with
  | closure node scope h =>
    exact Set.union_subset (Set.union_subset (facts_subset scope) (home h))
      (facts_subset (Framed.mk _ node))
  | «class» d => exact facts_subset d
  | native f => exact facts_subset f
  | bound target receiver args =>
    exact Set.union_subset (Set.union_subset (facts_subset target) (facts_subset receiver))
      (facts_subset args)

instance : Stored ObjectKind := by
  refine ⟨fun kind => ?_⟩
  cases kind with
  | ordinary => exact Set.empty_subset _
  | error => exact Set.empty_subset _
  | array elements => exact facts_subset elements
  | function body => exact facts_subset body
  | promise state => exact facts_subset state

instance : Stored Object :=
  ⟨fun o => Set.union_subset (Set.union_subset (facts_subset o.kind) (facts_subset o.prototype))
    (facts_subset o.properties)⟩

/-! ### Frames and registers -/

instance : Stored Binding := ⟨fun b => facts_subset b.value⟩

instance : Stored Bindings := by
  refine ⟨fun b => ?_⟩
  rintro f ⟨name, x, -, hf⟩
  exact facts_subset x hf

instance : Stored ThisBinding := by
  refine ⟨fun this => ?_⟩
  cases this with
  | bound v => exact facts_subset v
  | uninitialized => exact Set.empty_subset _

instance : Stored SuperCall :=
  ⟨fun c => Set.union_subset (facts_subset c.definition) (facts_subset c.newTarget)⟩

instance : Stored Frame :=
  ⟨fun f => Set.union_subset (Set.union_subset (Set.union_subset (Set.union_subset
    (facts_subset f.bindings) (facts_subset f.parent)) (facts_subset f.this))
    (facts_subset f.superCall)) (home f.home)⟩

instance : Stored Realm := by
  refine ⟨fun r => Set.union_subset (Set.union_subset (facts_subset _) (facts_subset _)) ?_⟩
  rintro f (rfl | rfl) id name h <;> cases h

instance : Stored Signal := by
  refine ⟨fun s => ?_⟩
  cases s with
  | «return» v => exact facts_subset v
  | suspend v => exact facts_subset v
  | «break» _ => exact Set.empty_subset _
  | «continue» _ => exact Set.empty_subset _

end Stored

/-! ## Another law -/

namespace Machine

variable {L L' : Law} {hidden : Set ObjectId} {m : Machine}

/-- What a machine holds is true of it under another law, too. -/
theorem granted_under (hsuites : L.suites → L'.suites) (hlexical : L'.lexical → L.lexical)
    {α : Type} [HasFacts α] [hα : Stored α] {x : α} (h : facts x ⊆ m.granted L hidden) :
    facts x ⊆ m.granted L' hidden := by
  intro fact hfact
  have hstored := hα.facts_subset x hfact
  have hgrants : m.Grants L hidden fact := h hfact
  cases fact with
  | free id name => exact absurd rfl (hstored id name)
  | suites => exact hsuites hgrants
  | object id => exact hgrants
  | place id => exact hgrants
  | frame id => exact hgrants
  | root id => exact hgrants
  | owns scope name => exact hgrants
  | calls scope args => exact fun h => hgrants (hlexical h)

/-- A sound machine is sound under another law that allows for the same functions, and for all names
in new frames. -/
theorem Sound.under (hm : m.Sound L hidden) (hsuites : L.suites → L'.suites)
    (hlexical : L'.lexical → L.lexical)
    (hfresh : ∀ (id : FrameId) (name : String), m.frames.size ≤ id.index → L'.free id name) :
    m.Sound L' hidden where
  objects id := granted_under hsuites hlexical (hm.objects id)
  frames id := granted_under hsuites hlexical (hm.frames id)
  realm := granted_under hsuites hlexical hm.realm
  signal := granted_under hsuites hlexical hm.signal
  newTarget := granted_under hsuites hlexical hm.newTarget
  grounded := hm.grounded
  anchored := hm.anchored
  nested := hm.nested
  concealed := hm.concealed
  fresh := hfresh

end Machine

end EcmaEval

/-! # Names in a session -/

namespace EcmaEval

open Engine

/-! ## What declares names -/

/-- The names that a declaration adds to the frame of the list that it stands in. -/
def Statement.lexicalNames : Statement → List String
  | .declaration .lexical declarators | .declaration .constant declarators =>
    declarators.flatMap fun d => d.target.names
  | .class node => [node.name.getD ""]
  | _ => []

/-- Where statements inside a statement declare nothing, only a declaration does. -/
theorem Statement.declared_eq_lexicalNames {s : Statement} (h : ∀ t ∈ s.inner, t.declared = []) :
    s.declared = s.lexicalNames := by
  cases s with
  | declaration kind declarators => cases kind <;> rfl
  | «if» test consequent alternate =>
    have hconsequent := h consequent (.head _)
    have halternate : declaredOfOption alternate = [] := by
      cases alternate with
      | none => rfl
      | some t => exact h t (.tail _ (.head _))
    rw [declared, hconsequent, halternate]
    rfl
  | labeled label body => exact h body (.head _)
  | _ => rfl

/-- A part of a statement that stands in no list declares nothing at all. -/
theorem Statement.lexicalNames_eq_nil {s : Statement} (h : s.declared = []) :
    s.lexicalNames = [] := by
  cases s with
  | declaration kind declarators => cases kind <;> first | rfl | exact h
  | «class» node => exact h
  | _ => rfl

/-- The query runs a statement that adds the name to the frame. -/
def Query.Declares (id : FrameId) (name : String) (q : Query) : Prop :=
  ∃ s, q = .execute id s ∧ name ∈ s.lexicalNames

/-! ## Sessions that run what is read -/

/-- The program was read from a text. -/
def Program.IsRead (p : Program) : Prop := ∃ options source, Program.ofText options source = .ok p

namespace Machine

variable {suites : Prop} {m m' : Machine} {q : Query} {k : Nat}

theorem Hosted.reached (h : m.Hosted suites Program.IsRead) : m.Reached (fun _ => True) suites := by
  -- Induction on the steps of the host.
  induction h with
  | initial => exact .initial
  | installSuite _ hsuites ih => exact ih.installSuite hsuites
  | run _ hp ih =>
    obtain ⟨options, source, hread⟩ := hp
    exact ih.run hread fun s hs => (Program.read_of_ofText hread s hs).mono fun _ _ => trivial
  | call _ _ ih => exact ih.call ..
  | define _ name _ ih => exact ih.define name _
  | hostFunction _ f ih => exact ih.hostFunction f
  | withOptions _ options ih => exact ih.withOptions options
  | clearOutput _ ih => exact ih.clearOutput

theorem Hosted.rests_written (h : m.Hosted suites Program.IsRead) : Discipline.written.Rests m :=
  h.reached.rests (fun _ hs _ => hs) fun _ => trivial

/-- The parts of the runs of a session are code that was read. -/
theorem Asked.kept (h : m.Asked suites Program.IsRead k q) : q.Kept .written m := by
  cases h with
  | program h hp hpart =>
    obtain ⟨options, source, hread⟩ := hp
    refine hpart.kept (P := fun _ _ => True) Discipline.not_breakdown_written (fun engine => ?_)
      fun _ => (Alike.alike_executeProgram _ _).ends _
    exact (Discipline.steady_executeProgram engine (Program.read_of_ofText hread) _).keeps.ends
      h.rests_written.holds h.rests_written.signal
  | @call _ h callee receiver args _ hpart =>
    refine hpart.kept (P := fun _ _ => True) Discipline.not_breakdown_written
      (fun engine hobeys => ?_) fun _ => Alike.ends _
    have hsteady : Discipline.written.Steady (engine.callValue callee receiver args) := inferInstance
    exact hsteady.keeps.ends h.rests_written.holds h.rests_written.signal

/-- A statement that runs declares names only if it stands in a list. -/
theorem Asked.listed {scope : FrameId} {s : Statement}
    (h : m.Asked suites Program.IsRead k (.execute scope s)) : ∀ t ∈ s.inner, t.declared = [] := by
  obtain ⟨c, hs⟩ := h.kept.allowed
  exact hs.here.2

/-! ## Names -/

/-- The law of the answer to one query: it adds the names to the frames of a machine that the query
declares in them. -/
def naming (suites : Prop) (m : Machine) (q : Query) : Law where
  suites := suites
  free id name := m.frames.size ≤ id.index ∨ q.Declares id name
  completes _ _ _ _ := True
  stops _ _ _ _ := True

theorem records_naming (suites : Prop) (m : Machine) (q : Query) : (naming suites m q).Records :=
  ⟨fun _ => trivial, fun _ => trivial⟩

/-- What is asked for fits under the law that lets it add only what it declares. -/
theorem Asked.fits_naming (h : m.Asked suites Program.IsRead k q) :
    q.Fits (naming suites m q) m := by
  obtain ⟨hidden, hm, hq⟩ := h.fits
  refine ⟨hidden, hm.under id id fun id name hid => .inl hid, ?_⟩
  have hsuites : (Law.lax suites).suites → (naming suites m q).suites := id
  have hstored {α : Type} [HasFacts α] [Stored α] (x : α) (hx : facts x ⊆ facts q) :
      facts x ⊆ m.granted (naming suites m q) hidden :=
    granted_under hsuites id (hx.trans hq)
  cases q with
  | evaluate name scope e =>
    exact Set.union_subset (hstored scope fun _ hf => .inl hf) (hstored _ fun _ hf => .inr hf)
  | execute scope s =>
    refine Set.union_subset (Set.union_subset (Set.union_subset
      (hstored scope fun _ hf => .inl (.inl (.inl hf))) ?_) ?_) (hstored _ fun _ hf => .inr hf)
    · rintro _ ⟨name, hname, rfl⟩
      exact hq (.inl (.inl (.inr ⟨name, hname, rfl⟩)))
    · rintro _ ⟨name, hname, rfl⟩
      exact .inr ⟨s, rfl, Statement.declared_eq_lexicalNames h.listed ▸ hname⟩
  | call id receiver args =>
    exact Set.union_subset (Set.union_subset (hstored id fun _ hf => .inl (.inl hf))
      (hstored receiver fun _ hf => .inl (.inr hf))) (hstored args fun _ hf => .inr hf)
  | construct id args newTarget =>
    exact Set.union_subset (Set.union_subset (hstored id fun _ hf => .inl (.inl hf))
      (hstored args fun _ hf => .inl (.inr hf))) (hstored newTarget fun _ hf => .inr hf)
  | settle id outcome =>
    exact Set.union_subset (hstored id fun _ hf => .inl hf) (hstored outcome fun _ hf => .inr hf)

/-- The variables of a statement that runs are bound in the frame that takes them. -/
theorem Asked.owns {scope : FrameId} {s : Statement}
    (h : m.Asked suites Program.IsRead k (.execute scope s)) {name : String}
    (hname : name ∈ s.variableNames) :
    (m.frames.get (m.frames.variableScope scope)).binds name = true := by
  obtain ⟨hidden, hm, hq⟩ := h.fits
  have howns : m.Grants (.lax suites) hidden (.owns scope name) := hq (.inl (.inl (.inr ⟨name, hname, rfl⟩)))
  exact howns.2

/-- **Frames keep their names.**  When a statement runs, the frame that takes its variables binds all
that `var` declares in it, however deep, and nothing inside it that stands in no list of statements is
a declaration.  Whatever is run, a frame that was there loses no name, also when the run ends with an
error; and it gets a new one only from a declaration by `let`, `const` or `class` that is itself what
runs, in this very frame.  So the frames of variables have all their names when their first statement
runs. -/
theorem Asked.names_kept (h : m.Asked suites Program.IsRead k q) :
    (∀ scope s, q = .execute scope s →
      (∀ name ∈ s.variableNames,
        (m.frames.get (m.frames.variableScope scope)).binds name = true) ∧
      ∀ t ∈ s.inner, t.lexicalNames = []) ∧
    ∀ m', (ofFuel k).EndsIn q m m' → ∀ id, id.index < m.frames.size → ∀ name,
      ((m.frames.get id).binds name = true → (m'.frames.get id).binds name = true) ∧
      ((m'.frames.get id).binds name = true →
        (m.frames.get id).binds name = true ∨ q.Declares id name) := by
  refine ⟨?_, fun m' hend id hid name => ?_⟩
  · rintro scope s rfl
    exact ⟨fun name => h.owns, fun t ht => Statement.lexicalNames_eq_nil (h.listed t ht)⟩
  · obtain ⟨hidden, hm, hq⟩ := h.fits_naming
    have := behaves_ofFuel (records_naming suites m q) k
    obtain ⟨mayStop, hstep⟩ := hend.step hm hq
    have hframes := hstep.grows.frames
    refine ⟨(hframes.stays hid).kept, fun hbinds => (hframes.added hid hbinds).imp_right fun hfree => ?_⟩
    exact hfree.resolve_left hid.not_ge

end Machine

/-! ## A variable inside a block -/

/-- Before the block `{ var x; }` runs, the frame of variables binds `x`, and the run of the block
leaves the names of all frames as they are. -/
theorem Machine.Asked.names_kept_block : ∃ p s m,
    Program.ofText {} "{ var x; }" = .ok p ∧ p.body = [s] ∧
      m.Asked False Program.IsRead standardFuel (.execute initial.realm.programFrame s) ∧
      (m.frames.get (m.frames.variableScope initial.realm.programFrame)).binds "x" = true ∧
      ∀ m', (ofFuel standardFuel).EndsIn (.execute initial.realm.programFrame s) m m' →
        ∀ id, id.index < m.frames.size → ∀ name,
          (m'.frames.get id).binds name = true ↔ (m.frames.get id).binds name = true := by
  have hkinds : ((Program.ofText {} "{ var x; }").toOption.map fun p =>
      (p.body.map Statement.kindName, variableNamesOfList p.body)) =
      some (["BlockStatement"], ["x"]) := by decide +kernel
  obtain ⟨p, hread⟩ : ∃ p, Program.ofText {} "{ var x; }" = .ok p :=
    exists_of_isOk (by decide +kernel)
  rw [hread] at hkinds
  obtain ⟨hkind, hnames⟩ := Prod.mk.inj (Option.some.inj hkinds)
  obtain ⟨body, m, hbody, hasked⟩ :=
    Hosted.asked_block (.initial : initial.Hosted False Program.IsRead) ⟨{}, _, hread⟩ hkind
  have hkept := hasked.names_kept
  refine ⟨p, .block body, m, hread, hbody, hasked, (hkept.1 _ _ rfl).1 "x" ?_, ?_⟩
  · rw [hbody] at hnames
    have hblock : (Statement.block body).variableNames = ["x"] := by
      simpa [variableNamesOfList] using hnames
    exact hblock ▸ List.mem_singleton_self "x"
  · intro m' hend id hid name
    obtain ⟨hmono, hadded⟩ := hkept.2 m' hend id hid name
    refine ⟨fun hbinds => (hadded hbinds).resolve_right ?_, hmono⟩
    rintro ⟨t, ht, hname⟩
    obtain ⟨-, rfl⟩ := Query.execute.inj ht
    cases hname

end EcmaEval
