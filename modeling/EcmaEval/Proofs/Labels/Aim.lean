import EcmaEval.Proofs.Labels.Rounds
import EcmaEval.Proofs.Syntax.Statement
import EcmaEval.Proofs.Syntax.Steps
import EcmaEval.Session

/-!
# What jumps may aim at

A reader that comes to a jump looks its label up among those around it.  Of the labels of a loop
only the last one is marked as that of a loop, because the reader looks no further than the token
behind a label; so a `continue` to any other one of them is refused.  The loop itself takes a
`continue` to each of its labels when it runs.

## Main definitions

* `Surroundings.behind`: what surrounds a statement behind labels
* `Statement.Encloses`: a statement lies inside another one, in the same function
* `Grammar.JumpStands`: a jump with a label stands where reading has come to

## Main results

* `Surroundings.lookup_behind`: of the labels of a loop the last one is marked
* `Statement.Encloses.lookup`: labels are found from all statements inside
* `Grammar.statement_break`, `Grammar.statement_continue`: what is read where a jump stands
* `Program.loop_labels`: what the labels of a loop are good for
-/

namespace EcmaEval

open EcmaEval.Action Discipline

/-! ## Places inside a loop -/

namespace Surroundings

/-- What surrounds a statement behind labels.  The flag tells whether the statement is a loop. -/
def behind (c : Surroundings) (onLoop : Bool) : List String → Surroundings
  | [] => c
  | label :: labels => (c.labeled label (labels.isEmpty && onLoop)).behind onLoop labels

variable {c c' : Surroundings} {labels : List String}

theorem lookup_labeled_of_ne {label first : String} (onLoop : Bool) (hne : label ≠ first) :
    (c.labeled first onLoop).labels.lookup label = c.labels.lookup label := by
  rw [labeled, List.lookup_cons, beq_false_of_ne hne]

theorem lookup_labeled_self (c : Surroundings) (label : String) (onLoop : Bool) :
    (c.labeled label onLoop).labels.lookup label = some onLoop := by
  rw [labeled, List.lookup_cons, beq_self_eq_true]

theorem lookup_behind_of_not_mem (c : Surroundings) (onLoop : Bool) {label : String}
    (hlabel : label ∉ labels) :
    (c.behind onLoop labels).labels.lookup label = c.labels.lookup label := by
  induction labels generalizing c with
  | nil => rfl
  | cons first labels ih =>
    rw [List.mem_cons, not_or] at hlabel
    rw [behind, ih _ hlabel.2, lookup_labeled_of_ne _ hlabel.1]

/-- Of the labels of a loop the last one is marked as that of a loop. -/
theorem lookup_behind (c : Surroundings) {label : String} (hlabel : label ∈ labels) :
    (c.behind true labels).labels.lookup label = some (labels.getLast? == some label) := by
  -- Induction on the labels, of which the outermost is put in first.
  induction labels generalizing c with
  | nil => cases hlabel
  | cons first labels ih =>
    rw [behind]
    by_cases hrest : label ∈ labels
    · rw [ih _ hrest]
      obtain ⟨last, hlast⟩ := Option.ne_none_iff_exists'.mp
        (mt List.getLast?_eq_none_iff.mp (List.ne_nil_of_mem hrest))
      rw [List.getLast?_cons, hlast]
      rfl
    · obtain rfl : label = first := (List.mem_cons.mp hlabel).resolve_right hrest
      rw [lookup_behind_of_not_mem _ _ hrest, lookup_labeled_self]
      cases labels with
      | nil => simp
      | cons second labels =>
        have hlast : (second :: labels).getLast? ≠ some label := fun h =>
          hrest (List.mem_of_getLast? h)
        rw [List.getLast?_cons_cons, beq_false_of_ne hlast]
        rfl

/-! ### Parts of statements in their surroundings -/

variable {t : Site}

theorem mem_declarator {d : Declarator} (h : t ∈ c.declarator d) : t.surroundings = c := by
  grind [declarator]

theorem mem_forInit {init : ForInit} (h : t ∈ c.forInit init) : t.surroundings = c := by
  cases init <;> grind [forInit, → mem_declarator]

theorem mem_forHead {head : ForHead} (h : t ∈ c.forHead head) : t.surroundings = c := by
  cases head <;> grind [forHead]

theorem mem_handler {k : CatchClause} (h : t ∈ c.handler k) : t.surroundings = c := by
  grind [handler]

theorem mem_switchCase {k : SwitchCase} (h : t ∈ c.switchCase k) : t.surroundings = c := by
  grind [switchCase]

end Surroundings

namespace Statement

/-- The second statement is the first one or lies inside it, in the same function. -/
inductive Encloses : Surroundings → Statement → Surroundings → Statement → Prop where
  | refl (c : Surroundings) (s : Statement) : Encloses c s c s
  | step {c c' c'' : Surroundings} {s t u : Statement} (hfunction : ∀ f, s ≠ .function f)
    (part : c'.statement t ∈ (c.statement s).parts) (within : Encloses c' t c'' u) :
    Encloses c s c'' u

theorem isLoop_behind (labels : List String) (s : Statement) :
    (s.behind labels).isLoop = (labels.isEmpty && s.isLoop) := by
  cases labels <;> rfl

/-- A statement behind labels stands in their surroundings. -/
theorem contains_behind (c : Surroundings) (labels : List String) (s : Statement) :
    (c.statement (s.behind labels)).Contains ((c.behind s.isLoop labels).statement s) := by
  induction labels generalizing c with
  | nil => exact .refl _
  | cons label labels ih =>
    refine .step (List.mem_singleton.mpr rfl) ?_
    change ((c.labeled label (s.behind labels).isLoop).statement (s.behind labels)).Contains _
    rw [isLoop_behind]
    exact ih _

theorem Encloses.contains {c c' : Surroundings} {s t : Statement} (h : s.Encloses c c' t) :
    (c.statement s).Contains (c'.statement t) := by
  induction h with
  | refl => exact .refl _
  | step _ part _ ih => exact .step part ih

/-- The statement is a part of another one, in the same function. -/
theorem lookup_of_part {c c' : Surroundings} {s t : Statement}
    (hpermitted : (c.statement s).Permitted) (hfunction : ∀ f, s ≠ .function f)
    (part : c'.statement t ∈ (c.statement s).parts) :
    (c.inLoop = true → c'.inLoop = true) ∧
      ∀ label, (c.labels.lookup label).isSome = true →
        c'.labels.lookup label = c.labels.lookup label := by
  cases s with
  | function f => exact absurd rfl (hfunction f)
  | labeled first body =>
    cases List.mem_singleton.mp part
    refine ⟨id, fun label hlabel => Surroundings.lookup_labeled_of_ne _ ?_⟩
    rintro rfl
    obtain ⟨onLoop, honLoop⟩ := Option.isSome_iff_exists.mp hlabel
    exact hpermitted onLoop (Grammar.mem_of_lookup honLoop)
  | _ =>
    have hplace : c' = c ∨ c' = c.loop ∨ c' = c.switch := by
      grind [Site.parts, Site.statementParts, → Surroundings.mem_declarator,
        → Surroundings.mem_forInit, → Surroundings.mem_forHead, → Surroundings.mem_handler,
        → Surroundings.mem_switchCase]
    rcases hplace with rfl | rfl | rfl
    · exact ⟨id, fun _ _ => rfl⟩
    · exact ⟨fun _ => rfl, fun _ _ => rfl⟩
    · exact ⟨id, fun _ _ => rfl⟩

/-- From all statements inside, in the same function, loops and labels are in reach. -/
theorem Encloses.lookup {c c' : Surroundings} {s t : Statement} (h : s.Encloses c c' t)
    (hpermitted : (c.statement s).Every Site.Permitted) :
    (c.inLoop = true → c'.inLoop = true) ∧
      ∀ label, (c.labels.lookup label).isSome = true →
        c'.labels.lookup label = c.labels.lookup label := by
  induction h with
  | refl => exact ⟨id, fun _ _ => rfl⟩
  | step hfunction part _ ih =>
    obtain ⟨hloop, hlabels⟩ := lookup_of_part hpermitted.here hfunction part
    obtain ⟨hloop', hlabels'⟩ := ih (hpermitted.below (.step part (.refl _)))
    refine ⟨hloop' ∘ hloop, fun label hlabel => ?_⟩
    have hsame := hlabels label hlabel
    rw [hlabels' label (hsame ▸ hlabel), hsame]

/-- A label does not stand again where it is in reach. -/
theorem not_mem_ownLabels {c : Surroundings} {s : Statement} {label : String}
    (hpermitted : (c.statement s).Every Site.Permitted)
    (hlabel : (c.labels.lookup label).isSome = true) : label ∉ s.ownLabels := by
  fun_induction ownLabels s generalizing c with
  | case1 first body ih =>
    have hne : label ≠ first := by
      rintro rfl
      obtain ⟨onLoop, honLoop⟩ := Option.isSome_iff_exists.mp hlabel
      exact hpermitted.here onLoop (Grammar.mem_of_lookup honLoop)
    refine List.not_mem_cons_of_ne_of_not_mem hne
      (ih (hpermitted.below (.step (.head _) (.refl _))) ?_)
    rwa [Surroundings.lookup_labeled_of_ne _ hne]
  | case2 => exact List.not_mem_nil

end Statement

/-! ## Reading jumps -/

namespace Grammar

open Parse

/-- In a context a word stands at hand, then a label on its line, and then the end of a statement.
Reading is at `name` before the label, at `rest` behind it, and at `after` behind the statement. -/
structure JumpStands (c : Context) (word : Keyword) (label : String)
    (r name rest after : Reading) : Prop where
  word : r.current = .keyword word
  passesWord : advance c r = .ok ((), name)
  sameLine : name.afterLineEnd = false
  names : c.name? name.current = some label
  passesName : advance c name = .ok ((), rest)
  ends : endStatement c rest = .ok ((), after)

variable {inner : Phrases} {c : Context} {label : String} {r name rest after : Reading}

theorem jumpLabel_eq (hline : name.afterLineEnd = false) (hname : c.name? name.current = some label)
    (hpasses : advance c name = .ok ((), rest)) :
    jumpLabel c name = .ok (some label, rest) := by
  have hnot : (name.current.isMark .semicolon || name.current.isMark .rightBrace ||
      name.current.isEnd) = false := by
    revert hname
    cases name.current <;> intro hname <;> first | rfl | cases hname
  have hgoesOn : atStatementEnd c name = .ok (false, name) := by
    unfold atStatementEnd
    rw [afterLineEnd_bind, hline, if_neg Bool.false_ne_true, current_bind, hnot]
    rfl
  unfold jumpLabel
  rw [bind_of_ok hgoesOn, if_neg Bool.false_ne_true]
  unfold skipName
  rw [name?_bind, hname]
  exact bind_of_ok hpasses

/-- A `break` with a label is read if its label stands around it. -/
theorem statement_break (h : JumpStands c .breakWord label r name rest after)
    (hlabel : (c.labels.lookup label).isSome = true) :
    statement inner c r = .ok (.break (some label), after) := by
  have hread : statement inner c r = breakStatement c r := by
    unfold statement
    rw [current_bind, h.word]
  have hnone : (c.labels.lookup label).isNone = false := by
    rw [← Option.not_isSome, hlabel]
    rfl
  rw [hread, breakStatement, bind_of_ok h.passesWord,
    bind_of_ok (jumpLabel_eq h.sameLine h.names h.passesName), context_bind]
  dsimp only
  rw [hnone, if_neg Bool.false_ne_true, bind_of_ok h.ends]
  rfl

/-- A `continue` with a label is read in a loop if its label is marked as that of a loop. -/
theorem statement_continue (h : JumpStands c .continueWord label r name rest after)
    (hloop : c.inLoop = true) {onLoop : Bool} (hlabel : c.labels.lookup label = some onLoop) :
    statement inner c r =
      if onLoop = true then .ok (.continue (some label), after)
      else (fail (.notALoop label) : Parse Statement) c rest := by
  have hread : statement inner c r = continueStatement c r := by
    unfold statement
    rw [current_bind, h.word]
  rw [hread, continueStatement, bind_of_ok h.passesWord, context_bind, hloop, if_pos rfl]
  dsimp only
  rw [bind_of_ok (jumpLabel_eq h.sameLine h.names h.passesName)]
  dsimp only
  rw [hlabel]
  cases onLoop with
  | true =>
    rw [if_pos rfl]
    exact bind_of_ok h.ends
  | false => rfl

end Grammar

/-! ## Labels of loops -/

section Loops

variable {labels : List String} {loop body : Statement}

/-- In a program that was read, the labels of a loop do not stand again in its body.  A `break` to
each of them is read everywhere there, and a `continue` to the last one; a `continue` to any other
one is refused. -/
theorem Program.reads_jumps (hbody : loop.loopBody? = some body) {options : ParseOptions}
    {source : String} {p : Program} (hread : Program.ofText options source = .ok p) {s : Site}
    (hs : s ∈ p.sites options) {c : Surroundings}
    (hloop : s.Contains (c.statement (loop.behind labels))) {c' : Surroundings} {t : Statement}
    (hplace : body.Encloses (c.behind true labels).loop c' t) {d : Context}
    (hd : d.surroundings = c') {label : String} (hlabel : label ∈ labels) (inner : Phrases)
    (r name rest after : Reading) :
    label ∉ t.ownLabels ∧
    (Grammar.JumpStands d .breakWord label r name rest after →
      Grammar.statement inner d r = .ok (.break (some label), after)) ∧
    (Grammar.JumpStands d .continueWord label r name rest after →
      Grammar.statement inner d r =
        if labels.getLast? = some label then .ok (.continue (some label), after)
        else (Parse.fail (.notALoop label) : Parse Statement) d rest) := by
  subst hd
  have hisLoop := Statement.isLoop_of_loopBody? hbody
  have hwithin : (c.statement (loop.behind labels)).Contains
      ((c.behind true labels).loop.statement body) := by
    refine (hisLoop ▸ Statement.contains_behind c labels loop).trans (.step ?_ (.refl _))
    cases loop <;> cases hbody <;> simp [Site.parts, Site.statementParts]
  have hpermitted : ((c.behind true labels).loop.statement body).Every Site.Permitted :=
    ((Program.readable_of_ofText hread s hs).mono fun _ hrule => hrule.1).below
      (hloop.trans hwithin)
  obtain ⟨hinLoop, hsame⟩ := hplace.lookup hpermitted
  have hmarked : (c.behind true labels).loop.labels.lookup label =
      some (labels.getLast? == some label) := Surroundings.lookup_behind c hlabel
  have hlookup : d.labels.lookup label = some (labels.getLast? == some label) :=
    (hsame label (by rw [hmarked]; rfl)).trans hmarked
  have hfresh : label ∉ t.ownLabels :=
    Statement.not_mem_ownLabels (hpermitted.below hplace.contains) (by
      change (d.labels.lookup label).isSome = true
      rw [hlookup]
      rfl)
  refine ⟨hfresh, fun h => Grammar.statement_break h (by rw [hlookup]; rfl), fun h => ?_⟩
  rw [Grammar.statement_continue h (hinLoop rfl) hlookup]
  simp only [beq_iff_eq]

/-- A loop behind labels takes the jumps to all of them that leave its body.  Behind a `continue`
it goes on with its next round, and behind a `break` it ends. -/
theorem Engine.takes_jumps (hbody : loop.loopBody? = some body) {label : String}
    (hlabel : label ∈ labels) {fuel k : Nat} {scope inner : FrameId} {σ : Type}
    {enter : σ → Action (Option σ)} {s s' : σ} {last : Value} {m m₁ m₂ : Machine}
    (hround : (ofFuel (fuel + 1)).ComesToRound labels scope loop body m inner enter (k + 1) s last m₁)
    (henter : enter s m₁ = .ok (some s') m₂) {k' : Nat} {scope' : FrameId} {m' : Machine} :
    (JumpPath label (.continue (some label)) fuel inner body m₂ k' scope'
        (.continue (some label)) m' →
      ∃ value m₃, (ofFuel fuel).executeStatement inner body m₂ = .ok value m₃ ∧
        (ofFuel (fuel + 1)).ComesToRound labels scope loop body m inner enter k s' value
          { m₃ with signal := none }) ∧
    (JumpPath label (.break (some label)) fuel inner body m₂ k' scope' (.break (some label)) m' →
      ∃ value m₃, (ofFuel fuel).executeStatement inner body m₂ = .ok value m₃ ∧
        (ofFuel (fuel + 1)).executeStatement scope (loop.behind labels) m =
          .ok value { m₃ with signal := none }) := by
  constructor
  · intro hpath
    exact hround.continue hlabel henter (hpath.carried (.inr rfl) (carried_continue _ _ _))
  · intro hpath
    obtain ⟨value, m₃, hexecute, hends⟩ :=
      hround.break hlabel henter (hpath.carried (.inl rfl) (carried_break _ _ _))
    refine ⟨value, m₃, hexecute, ?_⟩
    rw [executeStatement_behind hbody (List.ne_nil_of_mem hlabel), bind_apply, hends]
    rfl

open Engine in
/-- **The labels of a loop.**  Let labels stand before a loop.  Where a program with it was read,
they do not stand again in the body of the loop.  Everywhere there a `break` to each of them is read,
and a `continue` to the last of them; but a `continue` to any other one is refused as if the label
were not on a loop.  When the
loop runs, it comes to its rounds or fails before them, and in each round it takes both jumps to all
of its labels: however deep the jump stands in other loops, switches and try statements whose final
parts do not stop it, the loop goes on with its next round, or ends. -/
theorem Program.loop_labels (hbody : loop.loopBody? = some body) (hlabels : labels ≠ []) :
    (∀ options source p, Program.ofText options source = .ok p →
      ∀ s ∈ p.sites options, ∀ c : Surroundings,
      s.Contains (c.statement (loop.behind labels)) →
      ∀ c' t, body.Encloses (c.behind true labels).loop c' t →
      ∀ d : Context, d.surroundings = c' → ∀ label ∈ labels, ∀ inner r name rest after,
        label ∉ t.ownLabels ∧
        (Grammar.JumpStands d .breakWord label r name rest after →
          Grammar.statement inner d r = .ok (.break (some label), after)) ∧
        (Grammar.JumpStands d .continueWord label r name rest after →
          Grammar.statement inner d r =
            if labels.getLast? = some label then .ok (.continue (some label), after)
            else (Parse.fail (.notALoop label) : Parse Statement) d rest)) ∧
    ∀ fuel scope m,
      (ofFuel (fuel + 1)).executeStatement scope (loop.behind labels) m = (do
        let value ← (ofFuel (fuel + 1)).executeLoop labels scope loop
        absorb (Signal.breaksTo labels)
        return value : Action Value) m ∧
      ComesToRounds fuel body (fun labels execute =>
        ((ofFuel (fuel + 1)).withExecute execute).executeLoop labels scope loop) m ∧
      ∀ (σ : Type) (inner : FrameId) (enter : σ → Action (Option σ)) (k : Nat) (s s' : σ)
        (last : Value) (m₁ m₂ : Machine),
        (ofFuel (fuel + 1)).ComesToRound labels scope loop body m inner enter (k + 1) s last m₁ →
        enter s m₁ = .ok (some s') m₂ →
        ∀ label ∈ labels, ∀ (k' : Nat) (scope' : FrameId) (m' : Machine),
          (JumpPath label (.continue (some label)) fuel inner body m₂ k' scope'
              (.continue (some label)) m' →
            ∃ value m₃, (ofFuel fuel).executeStatement inner body m₂ = .ok value m₃ ∧
              (ofFuel (fuel + 1)).ComesToRound labels scope loop body m inner enter k s' value
                { m₃ with signal := none }) ∧
          (JumpPath label (.break (some label)) fuel inner body m₂ k' scope'
              (.break (some label)) m' →
            ∃ value m₃, (ofFuel fuel).executeStatement inner body m₂ = .ok value m₃ ∧
              (ofFuel (fuel + 1)).executeStatement scope (loop.behind labels) m =
                .ok value { m₃ with signal := none }) := by
  refine ⟨?_, fun fuel scope m => ⟨?_, executeLoop_comesToRounds hbody (ofFuel (fuel + 1)) scope m,
    ?_⟩⟩
  · intro options source p hread s hs c hloop c' t hplace d hd label hlabel inner r name rest after
    exact reads_jumps hbody hread hs hloop hplace hd hlabel inner r name rest after
  · rw [executeStatement_behind hbody hlabels]
  · intro σ inner enter k s s' last m₁ m₂ hround henter label hlabel k' scope' m'
    exact takes_jumps hbody hlabel hround henter

end Loops

/-- The loop without an end. -/
def Statement.forever (body : Statement) : Statement :=
  .while (.literal (.boolean true)) body

theorem Engine.enterWhile_true (fuel : Nat) (inner : FrameId) (m : Machine) :
    (ofFuel (fuel + 1)).enterWhile inner (.literal (.boolean true)) () m = .ok (some ()) m := rfl

theorem Engine.runsRounds_forever (engine : Engine) (scope : FrameId) (body : Statement)
    (m : Machine) : ∃ m', RunsRounds engine.fuel body
      (fun labels execute => (engine.withExecute execute).executeLoop labels scope (.forever body)) m
      ⟨m.frames.size⟩ (engine.enterWhile ⟨m.frames.size⟩ (.literal (.boolean true))) () m' :=
  ⟨_, fun _ _ => rfl⟩

/-- Whether a program is a loop without an end in another one with two labels, and the inner one is a
`break` to the first label. -/
def Program.isLabeledBreak : Program → Bool
  | ⟨[.labeled "a" (.labeled "b" (.while (.literal (.boolean true))
      (.while (.literal (.boolean true)) (.break (some "a")))))]⟩ => true
  | _ => false

theorem Program.eq_of_isLabeledBreak {p : Program} (h : p.isLabeledBreak = true) :
    p = ⟨[(Statement.forever (.forever (.break (some "a")))).behind ["a", "b"]]⟩ := by
  unfold isLabeledBreak at h
  split at h
  · rfl
  · cases h

open Engine in
/-- From two loops with two labels on the outer one, `break` to the first label is read; but
`continue` to it is refused where the `break` stands, although it would lead to the next round of
the outer loop. -/
theorem Program.loop_labels_forever :
    (∃ p, Program.ofText {} "a: b: while (true) while (true) break a" = .ok p ∧
      ∀ d : Context, d.surroundings = ((Surroundings.top {}).behind true ["a", "b"]).loop →
        ∀ inner r name rest after, Grammar.JumpStands d .continueWord "a" r name rest after →
          Grammar.statement inner d r = (Parse.fail (.notALoop "a") : Parse Statement) d rest) ∧
    ∃ (inner : FrameId) (enter : Unit → Action (Option Unit)) (value : Value) (m : Machine),
      (ofFuel 5).ComesToRound ["a", "b"] ⟨0⟩
        (.forever (.forever (.continue (some "a")))) (.forever (.continue (some "a")))
        Machine.initial inner enter 3 () value m := by
  constructor
  · obtain ⟨p, hread, hp⟩ : ∃ p, Program.ofText {} "a: b: while (true) while (true) break a" = .ok p ∧
        p.isLabeledBreak = true :=
      exists_of_any (by decide +kernel)
    obtain rfl := Program.eq_of_isLabeledBreak hp
    refine ⟨_, hread, fun d hd inner r name rest after => ?_⟩
    have hlabels := @Program.loop_labels ["a", "b"] (.forever (.forever (.break (some "a")))) _ rfl
      (List.cons_ne_nil _ _)
    exact (hlabels.1 _ _ _ hread _ (.head _) _ (.refl _) _ _ (.refl _ _) d hd "a" (.head _) inner r
      name rest after).2.2
  · obtain ⟨m₁, hrounds⟩ := runsRounds_forever (ofFuel 5) ⟨0⟩ (.forever (.continue (some "a")))
      Machine.initial
    obtain ⟨m₂, hinside⟩ := runsRounds_forever (ofFuel 4) ⟨Machine.initial.frames.size⟩
      (.continue (some "a")) m₁
    have hpath : JumpPath "a" (.continue (some "a")) 4 ⟨Machine.initial.frames.size⟩
        (.forever (.continue (some "a"))) m₁ 3 ⟨m₁.frames.size⟩ (.continue (some "a")) m₂ :=
      .inside List.not_mem_nil (hinside.asks rfl rfl (enterWhile_true 3 _ _)) .here
    have hlabels := @Program.loop_labels ["a", "b"] (.forever (.forever (.continue (some "a")))) _ rfl
      (List.cons_ne_nil _ _)
    obtain ⟨value, m₃, -, hnext⟩ := ((hlabels.2 4 ⟨0⟩ Machine.initial).2.2 _ _ _ 3 _ _ _ _ _
      (.first hrounds) (enterWhile_true 4 _ _) "a" (.head _) _ _ _).1 hpath
    exact ⟨_, _, value, _, hnext⟩

end EcmaEval
