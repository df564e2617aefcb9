import EcmaEval.Proofs.Run.Session

/-!
# Jumps and malformed nodes

What may stand where is checked when a text is read.  So when its statements run, each jump finds
something around it that takes it out, and none leads out of a function or a program.

The evaluator breaks down at a node whose operands do not have the shape that it relies on.  What is
read has these shapes, but for two kinds of nodes: an unbounded integer with a fraction or an
exponent, and the word `super` as the callee of a construction.  Runs of code without these nodes
never break down so, and the evaluation of one of them always does.

## Main definitions

* `Machine.CodeRead`: all code that the machine holds was read from texts
* `Action.Leaves`: what an action asks for behind its value
* `Site.HasBody`: the statements are the body of a function, or a static block
* `Discipline.plain`: the discipline of what is read without stray nodes

## Main results

* `Program.jumps_end_inside`: no jump leads out of a program, a function or a static block, and none
  out of the statement that it is aimed at
* `Machine.malformed_only_at_stray_nodes`: when a run meets a malformed node
-/

namespace EcmaEval

/-- All code that the machine holds was read from texts. -/
def Machine.CodeRead (m : Machine) : Prop := Discipline.read.Holds m

/-- The code of the function is that of a function object or class of the machine. -/
def Machine.HoldsFunction (m : Machine) (f : FunctionNode) : Prop :=
  (∃ id scope home, (m.heap.get id).callable? = some (.closure f scope home)) ∨
    ∃ id d, (m.heap.get id).callable? = some (.class d) ∧ d.constructor? = some f

/-- From each machine that holds only code that was read and in which nothing is asked for, the
action leads to such a machine.  Behind a value, what is asked for satisfies a condition; behind an
error, nothing is asked for. -/
def Action.Leaves {α : Type} (a : Action α) (P : Option Signal → Prop) : Prop :=
  ∀ m : Machine, m.CodeRead → m.signal = none →
    match a m with
    | .ok _ m' => m'.CodeRead ∧ P m'.signal
    | .error _ m' => m'.CodeRead ∧ m'.signal = none

theorem Action.leaves_of_runs {α : Type} {a : Action α} {Q : α → Option Signal → Prop}
    {P : Option Signal → Prop} (ha : Discipline.read.Runs none a Q)
    (hP : ∀ x after, Q x after → P after) : a.Leaves P := by
  intro m hm hsignal
  have hend := ha m hm hsignal
  generalize a m = result at hend ⊢
  cases hend with
  | ok hm' hsame hx => exact ⟨hm', hP _ _ hx⟩
  | error hm' hsame hnone he => exact ⟨hm', hnone⟩

/-- The statements are the body of a function right at the site, or a static block of its class. -/
inductive Site.HasBody : Site → List Statement → Prop where
  | function {c : Surroundings} {f : FunctionNode} {ss : List Statement} (h : f.body = .block ss) :
    HasBody (c.expression (.function f)) ss
  | arrow {c : Surroundings} {f : FunctionNode} {ss : List Statement} (h : f.body = .block ss) :
    HasBody (c.expression (.arrow f)) ss
  | declaration {c : Surroundings} {f : FunctionNode} {ss : List Statement}
    (h : f.body = .block ss) : HasBody (c.statement (.function f)) ss
  | member {c : Surroundings} {members : List ObjectMember} {m : ObjectMember} {f : FunctionNode}
    {ss : List Statement} (hm : m ∈ members) (hplain : m.kind ≠ .value)
    (hspread : m.kind ≠ .spread) (hf : m.value = .function f) (h : f.body = .block ss) :
    HasBody (c.expression (.object members)) ss
  | method {c : Surroundings} {k : ClassNode} {kind : MethodKind} {isStatic : Bool}
    {key : PropertyKey} {f : FunctionNode} {ss : List Statement}
    (hm : ClassElement.method kind isStatic key f ∈ k.body) (h : f.body = .block ss) :
    HasBody (c.class k) ss
  | staticBlock {c : Surroundings} {k : ClassNode} {ss : List Statement}
    (h : ClassElement.staticBlock ss ∈ k.body) : HasBody (c.class k) ss

section Bodies

open Discipline

variable {D : Discipline}

/-- The body of a function that a machine may hold. -/
theorem Discipline.AllowsFunction.body {f : FunctionNode} (hf : D.AllowsFunction f)
    {ss : List Statement} (h : f.body = .block ss) :
    ∃ c : Surroundings, c.IsBody ∧ ∀ s ∈ ss, (c.statement s).Every D.rule := by
  obtain ⟨outer, inner, hinner, hcode⟩ := hf
  have hbody := (Site.all_append.mp hcode).2
  rw [h] at hbody
  exact ⟨inner, hinner, Site.all_map.mp hbody⟩

/-- No loop, switch or label can be reached from a body. -/
theorem Site.HasBody.every {t : Site} {ss : List Statement} (hbody : t.HasBody ss)
    (h : t.Every D.rule) :
    ∃ c : Surroundings, c.IsBody ∧ ∀ s ∈ ss, (c.statement s).Every D.rule := by
  -- One case for each place where a body may stand, each with its share of the parts.
  cases hbody with
  | function hf => exact (allowsFunction_ownFunction h.parts).body hf
  | arrow hf => exact (allowsFunction_arrow h.parts).body hf
  | declaration hf => exact (allowsFunction_ownFunction h.parts).body hf
  | member hm hplain hspread hvalue hf =>
    have hmember := (Site.all_append.mp (Site.all_flatMap.mp h.parts _ hm)).2
    rw [hvalue] at hmember
    exact (allowsFunction_memberValue hplain hspread hmember).body hf
  | method hm hf =>
    have helement := Site.all_flatMap.mp (Site.all_append.mp h.parts).2 _ hm
    exact (allowsFunction_ownFunction (Site.all_append.mp helement).2).body hf
  | @staticBlock c k ss hblock =>
    have helement := Site.all_flatMap.mp (Site.all_append.mp h.parts).2 _ hblock
    exact ⟨_, c.isBody_ownBody true false, Site.all_map.mp helement⟩

end Bodies

open Discipline in
/-- A body leads at most to its end or to a return. -/
theorem Engine.leaves_body {ss : List Statement}
    (h : ∃ c : Surroundings, c.IsBody ∧ ∀ s ∈ ss, (c.statement s).Every Discipline.read.rule)
    (fuel : Nat) (scope : FrameId) :
    ((ofFuel fuel).executeBody scope ss).Leaves fun after => ∀ x ∈ after, ∃ v, x = .return v := by
  obtain ⟨c, hc, hss⟩ := h
  exact Action.leaves_of_runs (runs_executeBody (ofFuel fuel) hss scope)
    fun _ _ hafter => hafter.of_isBody hc trivial

/-- A function that a machine holds was read. -/
theorem Machine.CodeRead.allowsFunction {m : Machine} (hm : m.CodeRead) {f : FunctionNode}
    (hf : m.HoldsFunction f) : Discipline.read.AllowsFunction f := by
  rcases hf with ⟨id, scope, home, hfound⟩ | ⟨id, d, hfound, hconstructor⟩
  · exact hm.callable hfound
  · exact (hm.callable hfound).constructor f hconstructor

open Engine Discipline in
/-- **No jump leads too far.**  Let a text be read as a program where programs must not return.
From each machine that a host comes to, and from each one that a run of read code comes to, the
statements of the program end with nothing asked for.  The body of a function and a static block end
with nothing asked for or with a return, whether they stand in the program or belong to a function
that the machine holds.  And a statement of the program leaves only what something around it takes
out, and nothing that is aimed at itself. -/
theorem Program.jumps_end_inside {options : ParseOptions} {source : String} {p : Program}
    (hoff : options.returnOutsideFunction = false) (hread : Program.ofText options source = .ok p)
    (fuel : Nat) (scope : FrameId) :
    (∀ m : Machine, m.Reached (fun _ => True) True → m.CodeRead ∧ m.signal = none) ∧
    ((ofFuel fuel).executeBody scope p.body).Leaves (fun after => after = none) ∧
    (∀ s ∈ p.sites options, ∀ t ss, s.Contains t → t.HasBody ss →
      ((ofFuel fuel).executeBody scope ss).Leaves fun after => ∀ x ∈ after, ∃ v, x = .return v) ∧
    (∀ m : Machine, m.CodeRead → ∀ f ss, m.HoldsFunction f → f.body = .block ss →
      ((ofFuel fuel).executeBody scope ss).Leaves fun after => ∀ x ∈ after, ∃ v, x = .return v) ∧
    (∀ s ∈ p.sites options, ∀ c t, s.Contains (Surroundings.statement c t) →
      ((ofFuel fuel).executeStatement scope t).Leaves fun after =>
        ∀ x ∈ after, x.Within c ∧ ¬ t.Absorbs x) := by
  have hcode := Program.readable_of_ofText hread
  have hbelow : ∀ s ∈ p.sites options, ∀ t, s.Contains t → t.Every Site.Readable :=
    fun s hs t hst => (hcode s hs).below hst
  refine ⟨fun m hm => ⟨hm.rests_read.holds, hm.rests_read.signal⟩, ?_, ?_, ?_, ?_⟩
  -- A program is in no loop, switch or label, and must not return.
  · refine Action.leaves_of_runs
      (runs_executeBody (ofFuel fuel) (D := read) (Site.all_map.mp hcode) scope) ?_
    intro _ after hafter
    have htop : (Surroundings.top options).IsBody := ⟨rfl, rfl, rfl⟩
    cases after with
    | none => rfl
    | some x =>
      obtain ⟨v, rfl⟩ := hafter.of_isBody htop trivial x rfl
      exact absurd (hoff.symm.trans (hafter trivial _ rfl)) Bool.false_ne_true
  -- What stands below the nodes of the program was read with it.
  · intro s hs t ss hst hbody
    exact leaves_body (hbody.every (hbelow s hs t hst)) fuel scope
  -- What the machine holds was read before.
  · intro m hm f ss hf hbody
    exact leaves_body ((hm.allowsFunction hf).body hbody) fuel scope
  · intro s hs c t hst
    exact Action.leaves_of_runs
      (runs_executeStatement (ofFuel fuel) (D := read) (hbelow s hs _ hst) scope)
      fun _ _ hafter => hafter trivial

/-- Jumps to a label from within a switch and a try statement, and a return from within a loop. -/
def nestedJumps : String :=
  "outer: for (const x of [1, 2]) switch (x) {
    case 1: continue outer;
    default:
      try { break outer; } finally { (function () { for (;;) return x; })(); }
  }"

/-- The statements of the text end with nothing asked for. -/
theorem Program.jumps_end_inside_nestedJumps : ∃ p,
    Program.ofText {} nestedJumps = .ok p ∧ Machine.initial.CodeRead ∧
      ((Engine.ofFuel 9).executeBody ⟨0⟩ p.body).Leaves fun after => after = none := by
  have hread : (Program.ofText {} nestedJumps).isOk = true := by decide +kernel
  obtain ⟨p, hp⟩ := exists_of_isOk hread
  have h := Program.jumps_end_inside rfl hp 9 ⟨0⟩
  exact ⟨p, hp, (h.1 _ .initial).1, h.2.1⟩

end EcmaEval

/-! # Malformed nodes -/

namespace EcmaEval

/-- The discipline of what is read, without stray nodes. -/
def Discipline.plain : Discipline where
  rule s := s.Readable ∧ ∀ b, ¬ s.Stray b
  breakdown := Breakdown.IsShapeless
  aimed := True
  -- A check of a suite reads texts, and they may have stray nodes.
  suites := False
  shapeless := id
  breaks h hb := (h.2 _ (h.1.breaks_iff.mp hb)).elim
  permitted _ _ h := h.1.1
  readable h := h.elim

theorem Machine.Reached.rests_plain {m : Machine}
    (h : m.Reached (fun s => ∀ b, ¬ s.Stray b) False) : Discipline.plain.Rests m :=
  h.rests (D := .plain) (fun _ hs hstray => ⟨hs.1, hstray⟩) id

/-- The breakdown that a run ended in. -/
def RunResult.breakdown? (r : RunResult) : Option Breakdown :=
  match r.outcome with
  | .error (.broken cause) => some cause
  | _ => none

theorem RunResult.breakdown?_eq_some {r : RunResult} {cause : Breakdown} :
    r.breakdown? = some cause ↔ r.outcome = .error (.broken cause) := by
  unfold breakdown?
  split
  · next cause' h => simp [h]
  · next hne => simpa using hne cause

/-- A stray node breaks down as soon as it is evaluated. -/
theorem Engine.evaluateExpression_stray {c : Surroundings} {e : Expression} {b : Breakdown}
    (hread : (c.expression e).Readable) (h : (c.expression e).Stray b) (fuel : Nat) (name : String)
    (scope : FrameId) (m : Machine) :
    (ofFuel (fuel + 1)).evaluateExpression name scope e m = .error (.broken b) m := by
  cases h with
  | bigint hdigits =>
    -- The digits that can be written denote no integer just when they have a fraction or an
    -- exponent.
    have hnone := hread.2.mpr hdigits
    simp only [evaluateExpression, literalValue, hnone]
    rfl
  | newSuper => rfl

/-- **Malformed nodes.**  Let a text be read as a program under any options, and run on a machine
that a host comes to.  If neither this program nor another one that the host has run contains a
stray node, and no suite reads texts, then the run does not end at a malformed node, and neither
does a call by the host.  In any case it ends at such a node only as a stray node does, and each
stray node ends the run that evaluates it. -/
theorem Machine.malformed_only_at_stray_nodes {options : ParseOptions} {source : String}
    {p : Program} (hread : Program.ofText options source = .ok p) :
    (∀ m : Machine, m.Reached (fun s => ∀ b, ¬ s.Stray b) False → ∀ expected found,
      ((p.Every options fun s => ∀ b, ¬ s.Stray b) →
        (m.run p).outcome ≠ .error (.broken (.malformed expected found))) ∧
      ∀ callee this args,
        (m.call callee this args).outcome ≠ .error (.broken (.malformed expected found))) ∧
    (∀ m : Machine, m.Reached (fun _ => True) True → ∀ expected found,
      ((m.run p).outcome = .error (.broken (.malformed expected found)) →
        ∃ s : Site, s.Stray (.malformed expected found)) ∧
      ∀ callee this args,
        (m.call callee this args).outcome = .error (.broken (.malformed expected found)) →
          ∃ s : Site, s.Stray (.malformed expected found)) ∧
    (∀ s ∈ p.sites options, ∀ c e b, s.Contains (Surroundings.expression c e) →
      (c.expression e).Stray b → ∀ fuel name scope m,
        (Engine.ofFuel (fuel + 1)).evaluateExpression name scope e m = .error (.broken b) m) := by
  have hcode := Program.readable_of_ofText hread
  refine ⟨fun m hm expected found => ⟨fun hplain hend => ?_, fun callee this args hend => ?_⟩,
    fun m hm expected found => ⟨fun hend => ?_, fun callee this args hend => ?_⟩,
    fun s hs c e b hc hstray fuel name scope m => ?_⟩
  -- Read and without stray nodes, the program keeps to the discipline, which does not break down
  -- for the shape of a node.
  · have hp : p.Every options Discipline.plain.rule := fun s hs => (hcode s hs).and (hplain s hs)
    exact (Discipline.rests_run hm.rests_plain hp).2 _ hend
  · exact (Discipline.rests_call hm.rests_plain callee this args).2 _ hend
  -- The discipline of what is read breaks down at stray nodes, too.
  · obtain hshapeless | hstray :=
      (Discipline.rests_run (D := .read) hm.rests_read hcode).2 _ hend
    · exact hshapeless.elim
    · exact hstray
  · obtain hshapeless | hstray :=
      (Discipline.rests_call hm.rests_read callee this args).2 _ hend
    · exact hshapeless.elim
    · exact hstray
  -- A stray node breaks down before anything else is evaluated.
  · exact Engine.evaluateExpression_stray ((hcode s hs).below hc).here hstray fuel name scope m

/-- A run that ends at an unbounded integer with a fraction. -/
theorem Machine.malformed_only_at_stray_nodes_fraction : ∃ p, Program.ofText {} "1.5n" = .ok p ∧
    (Machine.initial.run p).outcome = .error (.broken (.malformed "BigInt literal" "1.5")) ∧
    ∃ s : Site, s.Stray (.malformed "BigInt literal" "1.5") := by
  have hrun : ((Program.ofText {} "1.5n").toOption.bind fun p =>
      (Machine.initial.run p).breakdown?) = some (.malformed "BigInt literal" "1.5") := by
    decide +kernel
  have hread : (Program.ofText {} "1.5n").isOk = true := by decide +kernel
  obtain ⟨p, hp⟩ := exists_of_isOk hread
  rw [hp] at hrun
  have hend := RunResult.breakdown?_eq_some.mp hrun
  have h := Machine.malformed_only_at_stray_nodes hp
  exact ⟨p, hp, hend, (h.2.1 _ .initial _ _).1 hend⟩

end EcmaEval
