import EcmaEval.Proofs.Conduct.Part
import EcmaEval.Proofs.Part.Breakdown
import EcmaEval.Proofs.Run.Registers

/-!
# The keys of arrays in a session

Every array of a session was made of elements and changed from there, at any point of a run.  For a
run that keeps to a discipline keeps arrays in order until it asks for a part: an engine may break
down at that part and leave the machine as it is, and the run then ends in just that machine.  So
what is known of the keys of an array behind any changes is known of each array that a program gets
the keys of.

## Main results

* `Engine.Asks.orderly`, `PartOf.orderly`: the parts of a run start with arrays in order
* `Machine.Passed.orderly`: a session passes through machines with arrays in order only
* `Machine.Passed.array_keys`: the keys of arrays
-/

namespace EcmaEval

open Engine Discipline

/-! ## Parts -/

section Parts

variable {D : Discipline} {m m' : Machine} {q : Query} {α : Type} {run : Engine → Action α}

/-- All code is allowed, so a query keeps to the discipline if nothing is asked for. -/
theorem Query.Kept.of_permissive [D.Permissive] (hsignal : m.signal = none) : q.Kept D m where
  holds := Discipline.holds m
  signal := hsignal
  allowed := by
    cases q with
    | evaluate name scope e => exact .inl ⟨{}, every_rule _⟩
    | execute scope s => exact ⟨{}, every_rule _⟩
    | call | construct | settle => trivial

/-- The machine has its arrays in order, and nothing is asked for. -/
structure Machine.Settled (m : Machine) : Prop where
  orderly : m.heap.Orderly
  signal : m.signal = none

/-- What a run asks its engine for starts with arrays in order. -/
theorem Engine.Asks.orderly [D.Lenient] {engine : Engine} [engine.Obeys D]
    (hasks : engine.Asks run m q m') (hm : m.Settled) {cause : Breakdown}
    (hcause : D.breakdown cause)
    (hends : ∀ (engine : Engine) [engine.Obeys D], D.Ends m (fun _ _ => True) (run engine m))
    (halike : ∀ {h h' : Halt} {engine engine' : Engine}, Engine.Alike h h' engine engine' →
      run engine m = run engine' m ∨ h.Ends (run engine m) ∧ h'.Ends (run engine' m)) :
    m'.Settled := by
  have : (engine.haltingAt q m' ⟨cause, m'⟩).Obeys D :=
    obeys_haltingAt fun hkept => ⟨hkept.holds, .refl m', hkept.signal, hcause⟩
  obtain ⟨n, hn, hsame⟩ := hasks.ends_haltingAt halike ⟨cause, m'⟩
  have hend := hends (engine.haltingAt q m' ⟨cause, m'⟩)
  rw [hn] at hend
  cases hend with
  | error _ hfollows hsignal _ =>
    -- But for registers the run ends in the machine of the part.
    have hheap : n.heap = m'.heap := by rw [hsame]
    have hnone : n.signal = m'.signal := by rw [hsame]
    exact ⟨hheap ▸ hfollows.orderly hm.orderly, hnone ▸ hsignal⟩

/-- The parts of a run start with arrays in order, and so do their parts. -/
theorem PartOf.orderly [D.Lenient] [D.Permissive] {fuel k : Nat}
    (hpart : PartOf run fuel m k q m') (hm : m.Settled) {cause : Breakdown}
    (hcause : D.breakdown cause)
    (hends : ∀ (engine : Engine) [engine.Obeys D], D.Ends m (fun _ _ => True) (run engine m))
    (halike : ∀ {h h' : Halt} {engine engine' : Engine}, Engine.Alike h h' engine engine' →
      run engine m = run engine' m ∨ h.Ends (run engine m) ∧ h'.Ends (run engine' m)) :
    m'.Settled := by
  -- Induction on how the part is reached: each phrase starts so, and so do its parts.
  induction hpart with
  | direct hasks => exact hasks.orderly hm hcause hends halike
  | nested hpart hown hasks ih =>
    exact hasks.orderly ih hcause
      (fun engine => (Query.Kept.of_permissive (D := D) ih.signal).ends_phrase engine)
      fun _ => Alike.ends_phrase hown

end Parts

/-! ## Sessions -/

instance : Discipline.all.Lenient := ⟨fun _ _ _ _ _ _ => trivial⟩

namespace Machine

variable {m m' : Machine} {suites : Prop} {accepted : Program → Prop}

theorem Settled.rests (h : m.Settled) : Discipline.all.Rests m := ⟨holds m, h.signal⟩

theorem Settled.of_follows (h : m.Settled) (hfollows : m.Follows Discipline.all.judges True m')
    (hrests : Discipline.all.Rests m') : m'.Settled :=
  ⟨hfollows.orderly h.orderly, hrests.signal⟩

theorem Settled.after {a : Action Unit} [Discipline.all.Steady a] (h : m.Settled) :
    (m.after a).Settled :=
  h.of_follows (follows_after h.rests) (rests_after h.rests)

theorem Settled.perform {a : Action Value} [Discipline.all.Steady a] (h : m.Settled) :
    (m.perform a).machine.Settled :=
  h.of_follows (follows_perform h.rests) (rests_perform h.rests).1

/-- There are no arrays before the library is there. -/
theorem settled_empty : Machine.empty.Settled := ⟨fun _ => .of_not_array rfl, rfl⟩

/-- A host has machines with arrays in order only. -/
theorem Hosted.settled (h : m.Hosted suites accepted) : m.Settled := by
  have : Engine.standard.Obeys .all := obeys_ofFuel _ _
  -- Induction on the steps of the host.
  induction h with
  | initial => exact settled_empty.after
  | installSuite _ _ ih =>
    have : Discipline.all.Steady Action.installSuite := steady_installSuite trivial
    exact ih.after
  | @run m _ p _ ih =>
    have hp : p.Every {} Discipline.all.rule := fun s _ => every_rule s
    have := steady_executeProgram Engine.standard hp m.realm.programFrame
    exact ih.perform
  | call _ _ ih => exact ih.perform
  | @define m _ name v _ ih =>
    exact ih.after (a := Action.modifyFrame m.realm.programFrame (·.declareVariable name v))
  | hostFunction _ f ih =>
    have : Discipline.all.Steady (Action.newNative (.host f)) := steady_newNative trivial rfl
    exact ih.perform
  | withOptions _ _ ih => exact ⟨ih.orderly, ih.signal⟩
  | clearOutput _ ih => exact ⟨ih.orderly, ih.signal⟩

/-- What a session asks engines for starts with arrays in order. -/
theorem Asked.settled {k : Nat} {q : Query} (h : m'.Asked suites accepted k q) : m'.Settled := by
  have hcause : Discipline.all.breakdown (.malformed "" "") := trivial
  cases h with
  | @program m h p _ hpart =>
    have hp : p.Every {} Discipline.all.rule := fun s _ => every_rule s
    refine hpart.orderly h.settled hcause (fun engine _ => ?_) fun _ =>
      (Alike.alike_executeProgram _ _).ends _
    exact (steady_executeProgram engine hp m.realm.programFrame).keeps.ends (holds m)
      h.settled.signal
  | @call m h callee this args _ hpart =>
    refine hpart.orderly h.settled hcause (fun engine _ => ?_) fun _ => Alike.ends _
    have : Discipline.all.Steady (engine.callValue callee this args) := inferInstance
    exact this.keeps.ends (holds m) h.settled.signal

/-- A session passes through machines with arrays in order only. -/
theorem Passed.orderly (h : m.Passed suites accepted) : m.heap.Orderly := by
  cases h with
  | hosted h => exact h.settled.orderly
  | asked h => exact h.settled.orderly
  | @answered k q _ _ _ h hanswer =>
    have hkept : q.Kept .all _ := .of_permissive h.settled.signal
    have hend := hkept.ends_answer (ofFuel k)
    rw [hanswer] at hend
    cases hend with
    | ok _ hfollows _ => exact hfollows.orderly h.settled.orderly
  | @failed k q _ _ _ h hanswer =>
    have hkept : q.Kept .all _ := .of_permissive h.settled.signal
    have hend := hkept.ends_answer (ofFuel k)
    rw [hanswer] at hend
    cases hend with
    | error _ hfollows _ _ => exact hfollows.orderly h.settled.orderly

/-- **The keys of arrays.**  Behind any changes no index is among the names of an array, and the
length is just if a change defined it; what is listed is what the array has, each key once, but the
length twice if it was defined.  At any point of a session each array is one that was made of
elements and changed, and that is what a program gets when it lists the keys or asks for one. -/
theorem Passed.array_keys (prototype : Option ObjectId) (elements : Array Value)
    (changes : List ArrayChange) :
    ((Object.new prototype (.array elements)).rearrangeAll changes).ListsKeys
      (∃ c ∈ changes, c.DefinesLength) ∧
    ∀ {suites : Prop} {accepted : Program → Prop} {m : Machine} {id : ObjectId},
      m.Passed suites accepted → (m.heap.get id).isArray = true →
        (m.heap.get id).Arranged ∧
        (∀ (engine : Engine) (this : Value) (args : List Value),
          engine.callObject .getOwnPropertyNames this (.object id :: args) m =
            Action.newArrayOf ((m.heap.get id).listing.map .ofText) m) ∧
        ∀ key, hasOwnProperty (.object id) key m = .ok ((m.heap.get id).hasOwn key) m :=
  ⟨Object.listsKeys_rearrangeAll prototype elements changes,
    fun h harray => ⟨h.orderly _ harray, fun _ _ _ => rfl, fun _ => rfl⟩⟩

/-- A program that defines the length of an array. -/
def definedLength : String :=
  "const a = [null]; Object.defineProperty(a, 'length', \x7b\x7d); a"

/-- Once it was defined, the length is listed twice. -/
theorem Passed.array_keys_defined :
    ((Object.new none (.array #[.null])).rearrangeAll
        [.property (.insertPlain "length" .null)]).listing.count "length" = 2 ∧
      let m := (Machine.initial.evaluate definedLength).machine
      let a : ObjectId := ⟨122⟩
      m.Passed False (fun _ => True) ∧ (m.heap.get a).Arranged ∧
        standard.callObject .getOwnPropertyNames .undefined [.object a] m =
          Action.newArrayOf (["0", "length", "length"].map .ofText) m := by
  refine ⟨(array_keys none _ _).1.twice ⟨_, List.mem_singleton_self _, rfl⟩, ?_⟩
  intro m a
  have hpassed : m.Passed False (fun _ => True) :=
    .hosted (Hosted.initial.evaluate fun _ _ => trivial)
  have harray : (m.heap.get a).isArray = true := by decide +kernel
  have hlisting : (m.heap.get a).listing = ["0", "length", "length"] := by decide +kernel
  obtain ⟨harranged, hnames, -⟩ := (array_keys none #[] []).2 hpassed harray
  exact ⟨hpassed, harranged, hlisting ▸ hnames standard .undefined []⟩

end Machine

end EcmaEval
