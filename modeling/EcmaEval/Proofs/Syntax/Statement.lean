import EcmaEval.Proofs.Flags.Readers
import EcmaEval.Proofs.Syntax.Expression

/-!
# Statements and programs

What the readers of statements give, and from it what the program of a text obeys.  The readers
nest to a depth, so the rule of readable trees is carried from each depth to the next.

## Main results

* `Grammar.givesAt_statement`, `Grammar.gives_item`: a statement is admitted
* `Phrases.sound_ofDepth`: the readers of all phrases give admitted trees
* `Program.read_of_ofText`: the program of a text obeys the rule of trees that are read
-/

namespace EcmaEval

namespace Grammar

open Parse

variable {inner : Phrases} (h : inner.Sound) (c : Context)

instance : Passes atStatementEnd := by
  unfold atStatementEnd
  infer_instance

instance : Passes jumpLabel := by
  unfold jumpLabel
  infer_instance

instance : Passes atLabel := by
  refine ⟨fun c => .next fun name => ?_⟩
  split
  · exact .next fun _ => .pure trivial
  · exact .pure trivial

instance : Passes atAsyncFunction := ⟨fun _ => .next fun _ => .pure trivial⟩

/-- A statement that is admitted, no loop and no declaration. -/
def AdmittedPlain (c : Context) (s : Statement) : Prop :=
  c.Admits (.statement s) ∧ s.isLoop = false ∧ s.declared = []

/-- A loop that is admitted. -/
def AdmittedLoop (c : Context) (s : Statement) : Prop :=
  c.Admits (.statement s) ∧ s.isLoop = true ∧ s.declared = []

/-- The flag that a label is looked up with is one that it stands with. -/
theorem mem_of_lookup {labels : List (String × Bool)} {label : String} {onLoop : Bool}
    (hlookup : labels.lookup label = some onLoop) : (label, onLoop) ∈ labels := by
  induction labels with
  | nil => cases hlookup
  | cons first labels ih =>
    obtain ⟨name, flag⟩ := first
    rw [List.lookup_cons] at hlookup
    split at hlookup
    · next hname =>
      cases hlookup
      rw [beq_iff_eq.mp hname]
      exact .head _
    · exact .tail _ (ih hlookup)

theorem not_mem_of_lookup {labels : List (String × Bool)} {label : String}
    (hlookup : labels.lookup label = none) (onLoop : Bool) : (label, onLoop) ∉ labels := by
  intro hmem
  have := List.lookup_eq_none_iff.mp hlookup _ hmem
  simp at this

/-! ## Jumps -/

theorem gives_breakStatement : breakStatement.Gives c (AdmittedPlain c) := by
  refine .next fun _ => .next fun label => gives_context.bind fun d hd => ?_
  subst hd
  extract_lets ended
  -- The end of the statement does not depend on how the jump is allowed.
  have hended : Site.Permitted (d.surroundings.statement (.break label)) →
      (ended ()).Gives d (AdmittedPlain d) := fun hrule =>
    .next fun _ => .pure ⟨.leaf ⟨hrule, trivial⟩ Site.all_nil rfl, rfl, rfl⟩
  split
  · next name =>
    split
    · exact .fail_bind
    · next hsome =>
      obtain ⟨onLoop, honLoop⟩ := Option.ne_none_iff_exists'.mp
        fun hnone => hsome (Option.isNone_iff_eq_none.mpr hnone)
      exact hended ⟨onLoop, mem_of_lookup honLoop⟩
  · split
    · next hreach => exact hended ((Bool.or_eq_true _ _).mp hreach)
    · exact .fail_bind

theorem gives_continueStatement : continueStatement.Gives c (AdmittedPlain c) := by
  refine .next fun _ => gives_context.bind fun d hd => ?_
  subst hd
  extract_lets aimed
  -- No jump to the next round is read out of a loop, not even one with a label.
  split
  · next hloop =>
    refine .next fun label => ?_
    extract_lets ended
    have hended : Site.Permitted (d.surroundings.statement (.continue label)) →
        (ended ()).Gives d (AdmittedPlain d) := fun hrule =>
      .next fun _ => .pure ⟨.leaf ⟨hrule, trivial⟩ Site.all_nil rfl, rfl, rfl⟩
    split
    · next name =>
      split
      · exact .fail_bind
      · exact .fail_bind
      · next hlookup => exact hended (mem_of_lookup hlookup)
    · next hnone =>
      cases label with
      | none => exact hended hloop
      | some name => exact absurd rfl (hnone name)
  · exact .fail_bind

include h

theorem gives_returnStatement : (returnStatement inner).Gives c (AdmittedPlain c) := by
  refine gives_context.bind fun d hd => ?_
  subst hd
  extract_lets ended passed
  split
  · next hreturn =>
    have hended : ∀ value : Option Expression, (∀ e ∈ value, d.Admits (.expression e)) →
        (ended value).Gives d (AdmittedPlain d) := fun value hvalue => .next fun _ =>
      .pure ⟨.leaf ⟨hreturn, trivial⟩ (Site.all_map.mpr (by simpa using hvalue)) rfl, rfl, rfl⟩
    refine .next fun _ => .next fun atEnd => ?_
    split
    · exact Gives.none_bind hended
    · exact Gives.some_bind (gives_expression h d) hended
  · exact .fail_bind

theorem gives_throwStatement : (throwStatement inner).Gives c (AdmittedPlain c) := by
  refine .next fun _ => .next fun lineEnd => ?_
  extract_lets thrown
  split
  · exact .fail_bind
  · refine (gives_expression h c).bind fun e he => .next fun _ => .pure ?_
    exact ⟨.leaf ⟨trivial, trivial⟩ (Site.all_singleton.mpr he) rfl, rfl, rfl⟩

/-! ## Declarations -/

theorem gives_declarator (kind : DeclarationKind) : (declarator inner kind).Gives c fun d =>
    Site.All Site.Read (c.surroundings.declarator d) := by
  refine (gives_pattern h c).bind fun target htarget => ?_
  extract_lets bare valued
  have hvalued : (valued ()).Gives c fun d =>
      Site.All Site.Read (c.surroundings.declarator d) := by
    refine .next fun assigned => ?_
    split
    · exact (h.assignment c).bind fun e he => .pure (Site.all_pair.mpr ⟨htarget, he⟩)
    · refine .next fun d => .next fun token => ?_
      extract_lets looped
      split
      · exact .fail_bind
      · exact .pure (Site.all_singleton.mpr htarget)
  split
  · split
    · exact hvalued
    · exact .fail_bind
  · exact hvalued

theorem gives_declarators (kind : DeclarationKind) (fuel : Nat) :
    (declarators inner kind fuel).Gives c fun ds =>
      ∀ d ∈ ds, Site.All Site.Read (c.surroundings.declarator d) := by
  induction fuel with
  | zero => exact .fail
  | succ fuel ih =>
    refine (gives_declarator h c kind).bind fun d hd => .next fun passed => ?_
    split
    · exact ih.bind fun ds hds => .pure (List.forall_mem_cons.mpr ⟨hd, hds⟩)
    · exact .pure (List.forall_mem_singleton.mpr hd)

theorem gives_declaration (kind : DeclarationKind) :
    (declaration inner kind).Gives c fun s => c.Admits (.statement s) ∧ s.isLoop = false ∧
      (kind = .variable → s.declared = []) := by
  refine .next fun _ => (gives_declarators h c kind _).bind fun ds hds => .next fun _ => ?_
  refine .pure ⟨.leaf ⟨trivial, trivial⟩ (Site.all_flatMap.mpr hds) rfl, rfl, ?_⟩
  rintro rfl
  rfl

/-! ## Branches -/

theorem gives_bracketed : (bracketed inner).Gives c fun e => c.Admits (.expression e) :=
  .next fun _ => (Gives.withIn (h.expression _)).bind fun _ he => .next fun _ => .pure he

theorem gives_ifStatement : (ifStatement inner).Gives c (AdmittedPlain c) := by
  refine .next fun _ => (gives_bracketed h c).bind fun test htest => ?_
  refine (h.gives_statement c).bind fun consequent ⟨hconsequent, hnone⟩ => .next fun otherwise => ?_
  split
  · refine .next fun _ => (h.gives_statement c).bind fun alternate ⟨halternate, hnone'⟩ => .pure ?_
    refine ⟨.statement ⟨trivial, trivial⟩ (Site.all_cons.mpr ⟨htest, ?_⟩) ?_, rfl, ?_⟩
    · exact Site.all_pair.mpr ⟨hconsequent, halternate⟩
    · exact List.forall_mem_cons.mpr ⟨hnone, List.forall_mem_singleton.mpr hnone'⟩
    · exact List.append_eq_nil_iff.mpr ⟨hnone, hnone'⟩
  · refine .pure ⟨.statement ⟨trivial, trivial⟩ ?_ ?_, rfl, ?_⟩
    · exact Site.all_pair.mpr ⟨htest, hconsequent⟩
    · exact List.forall_mem_singleton.mpr hnone
    · exact List.append_eq_nil_iff.mpr ⟨hnone, rfl⟩

theorem gives_withStatement : (withStatement inner).Gives c (AdmittedPlain c) := by
  refine .next fun _ => (gives_bracketed h c).bind fun object hobject => ?_
  refine (h.gives_statement c).bind fun body ⟨hbody, hnone⟩ => .pure ?_
  refine ⟨.statement ⟨trivial, trivial⟩ ?_ (List.forall_mem_singleton.mpr hnone), rfl, rfl⟩
  exact Site.all_pair.mpr ⟨hobject, hbody⟩

theorem gives_handler : (handler inner).Gives c fun k =>
    Site.All Site.Read (c.surroundings.handler k) := by
  refine .next fun bound => ?_
  split
  · refine (h.pattern c).bind fun target htarget => .next fun _ => ?_
    refine (gives_block h c).bind fun body hbody => .pure ?_
    exact Site.all_cons.mpr ⟨htarget, Site.all_map.mpr hbody⟩
  · exact (gives_block h c).bind fun body hbody => .pure (Site.all_map.mpr hbody)

theorem gives_tryStatement : (tryStatement inner).Gives c (AdmittedPlain c) := by
  refine .next fun _ => (gives_block h c).bind fun body hbody => .next fun caught => ?_
  extract_lets finished
  -- The handler may be missing, and so may the final part.
  have hfinished : ∀ k : Option CatchClause,
      (∀ k' ∈ k, Site.All Site.Read (c.surroundings.handler k')) →
      (finished k).Gives c (AdmittedPlain c) := by
    intro k hk
    refine .next fun final => ?_
    extract_lets checked
    have hchecked : ∀ finalizer : Option (List Statement),
        (∀ ss ∈ finalizer, ∀ s ∈ ss, c.Admits (.statement s)) →
        (checked finalizer).Gives c (AdmittedPlain c) := by
      intro finalizer hfinalizer
      unfold checked
      split
      · exact .fail_bind
      · refine .pure ⟨.leaf ⟨trivial, trivial⟩ (Site.all_append.mpr ⟨?_, ?_⟩) rfl, rfl, rfl⟩
        · refine Site.all_append.mpr ⟨Site.all_map.mpr hbody, Site.all_flatMap.mpr ?_⟩
          exact fun k' hk' => hk k' (by simpa using hk')
        · cases finalizer with
          | none => exact Site.all_nil
          | some ss => exact Site.all_map.mpr (hfinalizer ss rfl)
    split
    · exact .next fun _ => Gives.some_bind (gives_block h c) hchecked
    · exact Gives.none_bind hchecked
  split
  · exact .next fun _ => Gives.some_bind (gives_handler h c) hfinished
  · exact Gives.none_bind hfinished

/-! ## Loops -/

theorem gives_loopBody : (loopBody inner).Gives c fun s =>
    (c.surroundings.loop.statement s).Every Site.Read ∧ s.declared = [] :=
  .within (h.gives_statement _)

theorem gives_whileStatement : (whileStatement inner).Gives c (AdmittedLoop c) := by
  refine .next fun _ => (gives_bracketed h c).bind fun test htest => ?_
  refine (gives_loopBody h c).bind fun body ⟨hbody, hnone⟩ => .pure ?_
  refine ⟨.statement ⟨trivial, trivial⟩ ?_ (List.forall_mem_singleton.mpr hnone), rfl, rfl⟩
  exact Site.all_pair.mpr ⟨htest, hbody⟩

theorem gives_doStatement : (doStatement inner).Gives c (AdmittedLoop c) := by
  refine .next fun _ => (gives_loopBody h c).bind fun body ⟨hbody, hnone⟩ => .next fun _ => ?_
  refine (gives_bracketed h c).bind fun test htest => .next fun _ => .pure ?_
  refine ⟨.statement ⟨trivial, trivial⟩ ?_ (List.forall_mem_singleton.mpr hnone), rfl, rfl⟩
  exact Site.all_pair.mpr ⟨htest, hbody⟩

omit h in
/-- A loop over keys and one over elements are made of the same parts. -/
theorem admits_forEach {head : ForHead}
    (hhead : Site.All Site.Read (c.surroundings.forHead head))
    (htarget : ∀ e, head = .target e → isTarget true e = true) {e : Expression}
    (he : c.Admits (.expression e)) {body : Statement}
    (hbody : (c.surroundings.loop.statement body).Every Site.Read ∧ body.declared = []) :
    c.Admits (.statement (.forIn head e body)) ∧ c.Admits (.statement (.forOf head e body)) := by
  have hparts : Site.All Site.Read (c.surroundings.forHead head ++
      [c.surroundings.expression e, c.surroundings.loop.statement body]) :=
    Site.all_append.mpr ⟨hhead, Site.all_pair.mpr ⟨he, hbody.1⟩⟩
  have hlisted : ∀ t ∈ [body], t.declared = [] := List.forall_mem_singleton.mpr hbody.2
  cases head with
  | declaration =>
    exact ⟨.statement ⟨trivial, trivial⟩ hparts hlisted,
      .statement ⟨trivial, trivial⟩ hparts hlisted⟩
  | target place =>
    have hplace := htarget place rfl
    exact ⟨.statement ⟨trivial, hplace⟩ hparts hlisted, .statement ⟨trivial, hplace⟩ hparts hlisted⟩

/-- A loop over keys or elements, whose target can be assigned if it is no declaration. -/
theorem gives_forEach {head : ForHead}
    (hhead : Site.All Site.Read (c.surroundings.forHead head))
    (htarget : ∀ e, head = .target e → isTarget true e = true) :
    (forEach inner head).Gives c (AdmittedLoop c) := by
  refine .next fun keyed => ?_
  split
  · refine .next fun _ => (Gives.withIn (h.assignment _)).bind fun e he => .next fun _ => ?_
    refine (gives_loopBody h c).bind fun body hbody => .pure ⟨?_, rfl, rfl⟩
    exact (admits_forEach c hhead htarget he hbody).2
  · refine .next fun _ => (Gives.withIn (h.expression _)).bind fun e he => .next fun _ => ?_
    refine (gives_loopBody h c).bind fun body hbody => .pure ⟨?_, rfl, rfl⟩
    exact (admits_forEach c hhead htarget he hbody).1

theorem gives_forParts {init : Option ForInit}
    (hinit : ∀ i ∈ init, Site.All Site.Read (c.surroundings.forInit i)) :
    (forParts inner init).Gives c (AdmittedLoop c) := by
  refine .next fun _ => .next fun untested => ?_
  extract_lets tested
  -- Each of the three parts may be missing.
  have htested : ∀ test : Option Expression, (∀ e ∈ test, c.Admits (.expression e)) →
      (tested test).Gives c (AdmittedLoop c) := by
    intro test htest
    refine .next fun _ => .next fun still => ?_
    extract_lets updated
    have hupdated : ∀ update : Option Expression, (∀ e ∈ update, c.Admits (.expression e)) →
        (updated update).Gives c (AdmittedLoop c) := by
      intro update hupdate
      refine .next fun _ => (gives_loopBody h c).bind fun body ⟨hbody, hnone⟩ => .pure ?_
      refine ⟨.statement ⟨trivial, trivial⟩ ?_ (List.forall_mem_singleton.mpr hnone), rfl, rfl⟩
      simp only [Site.parts, Site.statementParts, Site.all_append, Site.all_flatMap, Site.all_map,
        Option.mem_toList]
      exact ⟨⟨⟨hinit, htest⟩, hupdate⟩, Site.all_singleton.mpr hbody⟩
    split
    · exact Gives.none_bind hupdated
    · exact Gives.some_bind (Gives.withIn (h.expression _)) hupdated
  split
  · exact Gives.none_bind htested
  · exact Gives.some_bind (Gives.withIn (h.expression _)) htested

theorem gives_forDeclaration (kind : DeclarationKind) :
    (forDeclaration inner kind).Gives c (AdmittedLoop c) := by
  refine .next fun _ => (Gives.within (gives_declarators h _ kind _)).bind fun ds hds => ?_
  extract_lets parts
  have hparts : (parts ()).Gives c (AdmittedLoop c) :=
    gives_forParts h c fun i hi => Option.some.inj hi ▸ Site.all_flatMap.mpr hds
  split
  · next target =>
    refine .next fun token => ?_
    split
    · refine gives_forEach h c ?_ fun _ htarget => by cases htarget
      exact Site.all_singleton.mpr (Site.all_cons.mp (hds _ (.head _))).1
    · exact hparts
  · exact hparts

theorem gives_forExpression : (forExpression inner).Gives c (AdmittedLoop c) := by
  refine Gives.bind (.within (h.expression _)) fun e he => .next fun token => ?_
  have he : Site.All Site.Read [c.surroundings.expression e] :=
    Site.all_singleton.mpr he
  extract_lets looped
  split
  · split
    · next htarget =>
      exact gives_forEach h c he fun e' he' => ForHead.target.inj he' ▸ htarget
    · exact .fail_bind
  · exact gives_forParts h c fun i hi => Option.some.inj hi ▸ he

theorem gives_forStatement : (forStatement inner).Gives c (AdmittedLoop c) := by
  refine .next fun _ => .next fun awaiting => ?_
  extract_lets headed
  split
  · exact .fail_bind
  · refine .next fun _ => .next fun token => ?_
    split
    · exact gives_forParts h c nofun
    · split
      · exact gives_forDeclaration h c _
      · exact gives_forExpression h c

/-! ## Switches and labels -/

theorem gives_caseBody : (caseBody inner).Gives c fun body =>
    ∀ s ∈ body, c.Admits (.statement s) :=
  .next fun _ => (h.item c).untilToken _

theorem gives_switchCases (hasDefault : Bool) (fuel : Nat) :
    (switchCases inner hasDefault fuel).Gives c fun ks =>
      ∀ k ∈ ks, Site.All Site.Read (c.surroundings.switchCase k) := by
  -- Induction on the number of cases that may still come.
  induction fuel generalizing hasDefault with
  | zero => exact .fail
  | succ fuel ih =>
    refine .next fun token => ?_
    split
    · exact .next fun _ => .pure (List.forall_mem_nil _)
    · refine .next fun _ => (Gives.withIn (h.expression _)).bind fun test htest => ?_
      refine (gives_caseBody h c).bind fun body hbody => (ih hasDefault).bind fun ks hks => .pure ?_
      refine List.forall_mem_cons.mpr ⟨?_, hks⟩
      exact Site.all_cons.mpr ⟨htest, Site.all_map.mpr hbody⟩
    · extract_lets checked
      split
      · exact .fail_bind
      · refine .next fun _ => (gives_caseBody h c).bind fun body hbody => ?_
        refine (ih true).bind fun ks hks => .pure (List.forall_mem_cons.mpr ⟨?_, hks⟩)
        exact Site.all_map.mpr hbody
    · exact .unexpected

theorem gives_switchStatement : (switchStatement inner).Gives c (AdmittedPlain c) := by
  refine .next fun _ => (gives_bracketed h c).bind fun e he => .next fun _ => .within ?_
  refine (gives_switchCases h _ false _).bind fun ks hks => ?_
  refine .pure ⟨.leaf ⟨trivial, trivial⟩ ?_ rfl, rfl, rfl⟩
  exact Site.all_cons.mpr ⟨he, Site.all_flatMap.mpr hks⟩

/-- A label is new, and on a loop when the token behind it begins one. -/
theorem gives_labeledStatement : (labeledStatement inner).Gives c (AdmittedPlain c) := by
  refine .next fun label => .next fun _ => gives_context.bind fun d hd => ?_
  subst hd
  extract_lets checked
  split
  · exact .fail_bind
  · next hnew =>
    have hnew : ∀ onLoop, (label, onLoop) ∉ d.labels :=
      not_mem_of_lookup (Option.not_isSome_iff_eq_none.mp hnew)
    intro r
    refine givesAt_current.bind fun token s hs => ?_
    obtain ⟨rfl, rfl⟩ := hs
    have hlabeled : ∀ body : Statement, body.isLoop = beginsLoop s.current → body.declared = [] →
        Context.Admits { d with labels := (label, beginsLoop s.current) :: d.labels }
          (.statement body) → AdmittedPlain d (.labeled label body) := by
      intro body hloop hnone hbody
      refine ⟨.statement ⟨hnew, trivial⟩ (Site.all_singleton.mpr ?_)
        (List.forall_mem_singleton.mpr hnone), rfl, hnone⟩
      rw [hloop]
      exact hbody
    refine .within ?_
    split
    · next hfunction =>
      have hloop : beginsLoop s.current = false := by
        cases hs : s.current <;> simp_all [Token.isWord, beginsLoop]
      refine (gives_functionDeclaration h _ false s).bind fun body _ hbody => .pure ?_
      exact hlabeled body (hbody.2.1.trans hloop.symm) hbody.2.2 hbody.1
    · exact (h.statement _ s).bind fun body _ hbody =>
        .pure (hlabeled body hbody.2.1 hbody.2.2 hbody.1)

/-- An expression as a statement, or a statement with a label. -/
theorem gives_expressionStatement : (expressionStatement inner).Gives c (AdmittedPlain c) := by
  refine .next fun labeled => ?_
  split
  · exact gives_labeledStatement h c
  · refine (gives_expression h c).bind fun e he => .next fun _ => ?_
    refine .pure ⟨.leaf ⟨trivial, trivial⟩ ?_ rfl, rfl, rfl⟩
    exact Site.all_singleton.mpr he

/-- A statement is a loop when its first token begins one, and no declaration of its frame. -/
theorem givesAt_statement (r : Reading) : (statement inner).GivesAt c r fun s _ =>
    c.Admits (.statement s) ∧ s.isLoop = beginsLoop r.current ∧ s.declared = [] := by
  refine givesAt_current.bind fun token r hr => ?_
  obtain ⟨rfl, rfl⟩ := hr
  -- The first token tells loops from other statements.
  have hplain : ∀ {p : Parse Statement}, beginsLoop r.current = false →
      p.Gives c (AdmittedPlain c) → p.GivesAt c r fun s _ =>
        c.Admits (.statement s) ∧ s.isLoop = beginsLoop r.current ∧ s.declared = [] := fun hr hp =>
    (hp r).mono fun s _ hs => ⟨hs.1, hs.2.1.trans hr.symm, hs.2.2⟩
  have hloop : ∀ {p : Parse Statement}, beginsLoop r.current = true →
      p.Gives c (AdmittedLoop c) → p.GivesAt c r fun s _ =>
        c.Admits (.statement s) ∧ s.isLoop = beginsLoop r.current ∧ s.declared = [] := fun hr hp =>
    (hp r).mono fun s _ hs => ⟨hs.1, hs.2.1.trans hr.symm, hs.2.2⟩
  split
  · next htoken =>
    refine hplain (by rw [htoken]; rfl) ((gives_block h c).bind fun body hbody => .pure ⟨?_, rfl, rfl⟩)
    exact .leaf ⟨trivial, trivial⟩ (Site.all_map.mpr hbody) rfl
  · next htoken =>
    refine hplain (by rw [htoken]; rfl) (.next fun _ => .pure ⟨?_, rfl, rfl⟩)
    exact .leaf ⟨trivial, trivial⟩ Site.all_nil rfl
  · next word htoken =>
    split
    case h_1 =>
      exact hplain (by rw [htoken]; rfl)
        ((gives_declaration h c _).mono fun s hs => ⟨hs.1, hs.2.1, hs.2.2 rfl⟩)
    case h_2 => exact hplain (by rw [htoken]; rfl) (gives_ifStatement h c)
    case h_3 => exact hloop (by rw [htoken]; rfl) (gives_whileStatement h c)
    case h_4 => exact hloop (by rw [htoken]; rfl) (gives_doStatement h c)
    case h_5 => exact hloop (by rw [htoken]; rfl) (gives_forStatement h c)
    case h_6 => exact hplain (by rw [htoken]; rfl) (gives_returnStatement h c)
    case h_7 => exact hplain (by rw [htoken]; rfl) (gives_breakStatement c)
    case h_8 => exact hplain (by rw [htoken]; rfl) (gives_continueStatement c)
    case h_9 => exact hplain (by rw [htoken]; rfl) (gives_throwStatement h c)
    case h_10 => exact hplain (by rw [htoken]; rfl) (gives_tryStatement h c)
    case h_11 => exact hplain (by rw [htoken]; rfl) (gives_switchStatement h c)
    case h_12 => exact hplain (by rw [htoken]; rfl) (gives_withStatement h c)
    case h_13 =>
      refine hplain (by rw [htoken]; rfl) (.next fun _ => .next fun _ => .pure ⟨?_, rfl, rfl⟩)
      exact .leaf ⟨trivial, trivial⟩ Site.all_nil rfl
    case h_14 => exact .fail
    case h_15 => exact .fail
    case h_16 hwhile hdo hfor _ _ _ _ _ _ _ _ _ _ =>
      refine hplain ?_ (gives_expressionStatement h c)
      rw [htoken]
      cases word <;> first | rfl | simp_all
  · next hword =>
    refine hplain ?_ (gives_expressionStatement h c)
    cases hs : r.current <;> first | rfl | simp_all

/-- A statement or declaration. -/
theorem gives_item : (item inner).Gives c fun s => c.Admits (.statement s) := by
  have hstatement : (statement inner).Gives c fun s => c.Admits (.statement s) := fun r =>
    (givesAt_statement h c r).mono fun _ _ hs => hs.1
  refine .next fun token => ?_
  split
  · exact (gives_functionDeclaration h c false).mono fun _ hs => hs.1
  · refine .next fun functional => ?_
    split
    · exact .next fun _ => (gives_functionDeclaration h c true).mono fun _ hs => hs.1
    · exact hstatement
  · refine (gives_classNode h c true).bind fun k hk => .pure (.leaf ⟨trivial, trivial⟩ ?_ rfl)
    exact Site.all_singleton.mpr hk
  · exact (gives_declaration h c _).mono fun _ hs => hs.1
  · exact (gives_declaration h c _).mono fun _ hs => hs.1
  · exact .fail
  · exact .fail
  · exact hstatement

/-- The statements of a program. -/
theorem gives_program : (program inner).Gives c fun p =>
    Site.All Site.Read (p.body.map c.surroundings.statement) :=
  .next fun _ => ((gives_item h c).untilToken _).bind fun _ hbody => .pure (Site.all_map.mpr hbody)

end Grammar

open Grammar in
/-- The readers of all phrases give admitted trees, however deep they nest. -/
theorem Phrases.sound_ofDepth (depth : Nat) : (Phrases.ofDepth depth).Sound := by
  -- Induction on the depth: readers of phrases read the phrases inside one level deeper.
  induction depth with
  | zero =>
    exact {
      item := fun _ => .fail
      statement := fun _ _ => .fail
      expression := fun _ => .fail
      assignment := fun _ => .fail
      binary := fun _ _ => .fail
      power := fun _ => .fail
      unary := fun _ => .fail
      operand := fun _ => .fail
      construction := fun _ => .fail
      pattern := fun _ => .fail }
  | succ depth ih =>
    exact {
      item := gives_item ih
      statement := givesAt_statement ih
      expression := gives_expression ih
      assignment := gives_assignment ih
      binary := gives_binary ih
      power := gives_power ih
      unary := gives_unary ih
      operand := gives_operand ih
      construction := gives_construction ih
      pattern := gives_pattern ih }

/-- The program of a text obeys the rule of trees that are read. -/
theorem Program.read_of_ofText {options : ParseOptions} {source : String} {p : Program}
    (h : Program.ofText options source = .ok p) : p.Every options Site.Read := by
  rw [Program.ofText_eq] at h
  split at h
  · next hread =>
    cases h
    have hstart : Reading.Lexed ⟨.endOfInput, false, .ofText source⟩ := trivial
    exact (Grammar.gives_program (Phrases.sound_ofDepth _) _ _ hstart _ _ hread).2
  · cases h

/-- The program of a text obeys the rule of readable trees. -/
theorem Program.readable_of_ofText {options : ParseOptions} {source : String} {p : Program}
    (h : Program.ofText options source = .ok p) : p.Every options Site.Readable :=
  fun t ht => (Program.read_of_ofText h t ht).mono fun _ hrule => hrule.1

theorem exists_of_isOk {ε α : Type} {result : Except ε α} (h : result.isOk = true) :
    ∃ x, result = .ok x := by
  cases result with
  | ok x => exact ⟨x, rfl⟩
  | error e => cases h

theorem exists_of_any {ε α : Type} {result : Except ε α} {test : α → Bool}
    (h : result.toOption.any test = true) : ∃ x, result = .ok x ∧ test x = true := by
  cases result with
  | error => cases h
  | ok x => exact ⟨x, rfl, h⟩

/-- **What may stand where.**  Whatever is read as a program, its jumps, labels, uses of `super`,
classes and templates are ones that their surroundings permit. -/
theorem Program.permitted_of_ofText {options : ParseOptions} {source : String} {p : Program}
    (h : Program.ofText options source = .ok p) : p.Every options Site.Permitted :=
  fun t ht => (Program.readable_of_ofText h t ht).mono fun _ hrule => hrule.1

/-- A class with `super` in both of its roles, in a loop that is left through its label. -/
theorem Program.permitted_class_in_loop : ∃ p,
    Program.ofText {} "a: for (;;) \x7b
        class B extends A \x7b
          constructor() \x7b super(); return super.m(); \x7d
        \x7d
        if (B) continue a; else break a;
      \x7d" = .ok p ∧ p.Every {} Site.Permitted := by
  refine (exists_of_isOk ?_).imp fun p hp => ⟨hp, Program.permitted_of_ofText hp⟩
  decide +kernel

end EcmaEval
