import EcmaEval.Proofs.Syntax.Parts

/-!
# Expressions

What the readers of expressions give.  The word `super` is the one expression that depends on the
token behind it: where a member follows, the word itself need not be admitted, and the access is.

## Main definitions

* `Grammar.Accessible`: what may stand at the front of an operand

## Main results

* `Grammar.gives_operand`: an operand with all that follows it is admitted
* `Grammar.gives_expression`, `Grammar.gives_assignment`: an expression is admitted
-/

namespace EcmaEval.Grammar

open Parse

/-- The token begins a member access. -/
def beginsMember (token : Token) : Prop :=
  token.isMark .dot = true ∨ token.isMark .leftBracket = true

/-- An expression at the front of an operand, before the token at hand.  The word `super` is one
before an access or a call that may stand here. -/
def Accessible (c : Context) (e : Expression) (r : Reading) : Prop :=
  c.Admits (.expression e) ∨
    e = .super ∧
      (c.superProperty = true ∧ beginsMember r.current ∨
        c.superCall = true ∧ r.current.isMark .leftParen = true)

variable {inner : Phrases} (h : inner.Sound) (c : Context)

/-- What a partial map makes of the elements of a list. -/
theorem forall_mem_of_mapM {α β : Type} {f : α → Option β} {P : β → Prop} {xs : List α}
    {ys : List β} (hys : xs.mapM f = some ys) (hf : ∀ x ∈ xs, ∀ y, f x = some y → P y) :
    ∀ y ∈ ys, P y := by
  induction xs generalizing ys with
  | nil =>
    cases hys
    exact nofun
  | cons x xs ih =>
    obtain ⟨y, hy, ys', hys', rfl⟩ : ∃ y, f x = some y ∧ ∃ ys', xs.mapM f = some ys' ∧
        y :: ys' = ys := by
      simpa [List.mapM_cons, Option.bind_eq_some_iff] using hys
    refine List.forall_mem_cons.mpr ⟨hf x (.head _) y hy, ?_⟩
    exact ih hys' fun x hx => hf x (.tail _ hx)

namespace Accessible

variable {c} {e : Expression} {r : Reading}

theorem not_beginsMember {token : Token} (h : token.isMark .leftParen = true) :
    ¬ beginsMember token := by
  obtain rfl := Token.eq_of_isMark h
  rintro (hdot | hbracket)
  · cases hdot
  · cases hbracket

/-- A member of what is accessible. -/
theorem member (he : Accessible c e r) (hr : beginsMember r.current) {key : MemberKey}
    (hkey : Site.All Site.Read (c.surroundings.memberKey key)) :
    c.Admits (.expression (.member e key)) := by
  rcases he with he | ⟨rfl, ⟨hproperty, _⟩ | ⟨_, hparen⟩⟩
  · exact he.member hkey
  · exact .intro ⟨hproperty, trivial⟩ hkey
  · exact absurd hr (not_beginsMember hparen)

/-- A call of what is accessible. -/
theorem call (he : Accessible c e r) (hr : ¬ beginsMember r.current) {args : List Expression}
    (hargs : ∀ e ∈ args, c.AdmitsElement e) : c.Admits (.expression (.call e args)) := by
  rcases he with he | ⟨rfl, ⟨_, hmember⟩ | ⟨hcall, _⟩⟩
  · exact he.call hargs
  · exact absurd hmember hr
  · exact .intro ⟨hcall, trivial⟩ (Site.all_map.mpr hargs)

/-- A construction of what is accessible. -/
theorem new (he : Accessible c e r) (hr : ¬ beginsMember r.current) {args : List Expression}
    (hargs : ∀ e ∈ args, c.AdmitsElement e) : c.Admits (.expression (.new e args)) := by
  rcases he with he | ⟨rfl, ⟨_, hmember⟩ | ⟨hcall, _⟩⟩
  · exact he.new hargs
  · exact absurd hmember hr
  · exact .intro ⟨hcall, trivial⟩ (Site.all_map.mpr hargs)

/-- Where neither an access nor a call follows, the expression stands for itself. -/
theorem admits (he : Accessible c e r) (hr : ¬ beginsMember r.current)
    (hparen : ¬ r.current.isMark .leftParen = true) : c.Admits (.expression e) := by
  rcases he with he | ⟨_, ⟨_, hmember⟩ | ⟨_, hcall⟩⟩
  · exact he
  · exact absurd hmember hr
  · exact absurd hcall hparen

end Accessible

instance : Passes atArrow := by
  unfold atArrow
  infer_instance

include h

/-! ## Operands -/

theorem gives_arrow {params : List Pattern} (hparams : ∀ p ∈ params, c.Admits (.pattern p))
    (isAsync : Bool) : (arrow inner params isAsync).Gives c fun e => c.Admits (.expression e) := by
  refine .next fun _ => .within (.next fun braced => ?_)
  extract_lets closed
  -- The body is a block or an expression, both in the surroundings of the body.
  have hclosed : ∀ body,
      Site.All Site.Read (c.surroundings.body.functionBody body) →
      (closed body).Gives (c.inBody isAsync false) fun e => c.Admits (.expression e) := by
    intro body hbody
    exact .pure (.intro ⟨trivial, rfl⟩ (Site.all_append.mpr ⟨Site.all_map.mpr hparams, hbody⟩))
  split
  · exact Gives.bind ((gives_bodyBlock h _).map fun body hbody => Site.all_map.mpr hbody) hclosed
  · exact Gives.bind ((h.assignment _).map fun e he => Site.all_singleton.mpr he) hclosed

omit h in
theorem gives_toParameters {parts : List Expression} (hparts : ∀ e ∈ parts, c.AdmitsElement e) :
    (toParameters parts).Gives c fun ps => ∀ p ∈ ps, c.Admits (.pattern p) := by
  unfold toParameters
  split
  · next ps hps =>
    exact .pure (forall_mem_of_mapM hps fun e he p hp => (hparts e he).toPattern hp)
  · exact .fail

/-- What a grouped part is made of is admitted. -/
def GroupedAdmitted (c : Context) : Grouped → Prop
  | .value e _ => c.Admits (.expression e)
  | .rest target => c.Admits (.pattern target)

theorem gives_grouped : (grouped inner).Gives c (GroupedAdmitted c) := by
  unfold grouped
  refine .next fun spread => ?_
  split
  · refine (h.pattern c).bind fun target htarget => .next fun last => ?_
    split
    · exact .pure htarget
    · exact .fail_bind
  · refine (h.assignment c).bind fun e he => .next fun last => ?_
    split
    · exact .pure he
    · exact .next fun _ => .pure he

omit h in
theorem groupedAdmitted_toPattern {part : Grouped} (hpart : GroupedAdmitted c part) {p : Pattern}
    (hp : part.toPattern? = some p) : c.Admits (.pattern p) := by
  cases part with
  | value e comma => exact (Context.Admits.element hpart).toPattern hp
  | rest target =>
    cases hp
    exact Context.Admits.rest hpart

omit h in
theorem groupedAdmitted_values {parts : List Grouped} {es : List Expression}
    (hparts : ∀ part ∈ parts, GroupedAdmitted c part) (hes : groupValues? parts = some es) :
    ∀ e ∈ es, c.Admits (.expression e) := by
  fun_induction groupValues? parts generalizing es with
  | case1 =>
    cases hes
    exact nofun
  | case2 e =>
    cases hes
    exact List.forall_mem_singleton.mpr (hparts _ (.head _))
  | case3 e next parts ih =>
    obtain ⟨es', hes', rfl⟩ := Option.map_eq_some_iff.mp hes
    refine List.forall_mem_cons.mpr ⟨hparts _ (.head _), ?_⟩
    exact ih (fun part hpart => hparts part (.tail _ hpart)) hes'
  | case4 => cases hes

/-- An expression in brackets, or an arrow function. -/
theorem gives_group : (group inner).Gives c fun e => c.Admits (.expression e) := by
  refine .next fun _ =>
    Gives.bind (.withIn ((gives_grouped h _).untilMark _)) fun parts hparts => ?_
  refine .next fun arrowed => ?_
  split
  · split
    · next params hparams =>
      refine gives_arrow h c (forall_mem_of_mapM hparams fun part hpart p hp => ?_) _
      exact groupedAdmitted_toPattern c (hparts part hpart) hp
    · exact .fail
  · split
    · next e hvalues => exact .pure (groupedAdmitted_values c hparts hvalues e (.head _))
    · next e es _ hvalues =>
      have hes := groupedAdmitted_values c hparts hvalues
      exact .pure (.intro ⟨trivial, trivial⟩ (Site.all_map.mpr hes))
    · exact .unexpected

theorem gives_asyncOperand : (asyncOperand inner).Gives c fun e => c.Admits (.expression e) := by
  refine .next fun (token, lineEnd) => .next fun _ => ?_
  split
  · exact .pure (.identifier _)
  split
  · exact gives_functionExpression h c true
  · refine (gives_arguments h c).bind fun args hargs => .next fun arrowed => ?_
    split
    · exact (gives_toParameters c hargs).bind fun params hparams => gives_arrow h c hparams true
    · refine .pure (.intro ⟨trivial, trivial⟩ ?_)
      exact Site.all_cons.mpr ⟨Context.Admits.identifier _, Site.all_map.mpr hargs⟩
  · refine .next fun name => .next fun arrowed => ?_
    split
    · exact gives_arrow h c (List.forall_mem_singleton.mpr (.identifierPattern name)) _
    · exact .unexpected
  · refine .next fun arrowed => ?_
    split
    · exact gives_arrow h c (List.forall_mem_singleton.mpr (.identifierPattern _)) _
    · exact .pure (.identifier _)

omit h in
/-- The word `super`, before what it may stand in front of. -/
theorem givesAt_superOperand (r : Reading) : superOperand.GivesAt c r (Accessible c) := by
  -- The word is passed, and the token behind it decides.
  refine .next fun _ s => givesAt_context.bind fun d s' hd => ?_
  obtain ⟨rfl, rfl⟩ := hd
  refine givesAt_current.bind fun token s'' htoken => ?_
  obtain ⟨rfl, rfl⟩ := htoken
  split
  · next hparen =>
    split
    · next hcall => exact .pure (.inr ⟨rfl, .inr ⟨hcall, by simp [hparen, Token.isMark]⟩⟩)
    · exact .fail
  · next hdot =>
    split
    · next hproperty =>
      exact .pure (.inr ⟨rfl, .inl ⟨hproperty, .inl (by simp [hdot, Token.isMark])⟩⟩)
    · exact .fail
  · next hbracket =>
    split
    · next hproperty =>
      exact .pure (.inr ⟨rfl, .inl ⟨hproperty, .inr (by simp [hbracket, Token.isMark])⟩⟩)
    · exact .fail
  · exact .fail

omit h in
theorem gives_regExp (front : String) :
    (regExp front).Gives c fun e => c.Admits (.expression e) := by
  refine (gives_special fun _ _ _ => Lexer.lexed_readRegExp).bind fun token _ => ?_
  split
  · exact .next fun _ => .pure (.intro ⟨trivial, trivial⟩ Site.all_nil)
  · exact .unexpected

theorem gives_plainTemplate : (plainTemplate inner).Gives c fun e => c.Admits (.expression e) := by
  refine (gives_template h c).bind fun (texts, values) hparts => ?_
  simp only
  split
  · exact .fail_bind
  · next hany =>
    refine .pure (.intro ⟨⟨hparts.1, ?_⟩, trivial⟩ (Site.all_map.mpr hparts.2))
    intro hnone
    exact hany (List.any_eq_true.mpr ⟨none, hnone, rfl⟩)

theorem gives_named : (named inner).Gives c fun e => c.Admits (.expression e) := by
  refine .next fun name => .next fun arrowed => ?_
  split
  · exact gives_arrow h c (List.forall_mem_singleton.mpr (.identifierPattern name)) _
  · exact .pure (.identifier name)

/-- A smallest expression. -/
theorem givesAt_primary (r : Reading) : (primary inner).GivesAt c r (Accessible c) := by
  -- All other operands are admitted by themselves.
  have hplain : ∀ {p : Parse Expression} {r}, p.Gives c (fun e => c.Admits (.expression e)) →
      p.GivesAt c r (Accessible c) := fun hp => (hp _).mono fun _ _ he => .inl he
  have hleaf : ∀ {e : Expression} {r}, c.Admits (.expression e) →
      GivesAt (do advance; pure e) c r (Accessible c) := fun he =>
    hplain (.next fun _ => .pure he)
  refine (gives_current r).bind fun token r htoken => ?_
  split
  · exact hleaf (.intro ⟨trivial, trivial⟩ Site.all_nil)
  · exact givesAt_superOperand c r
  · exact hplain (gives_asyncOperand h c)
  · exact hplain (gives_functionExpression h c false)
  · refine hplain ((gives_classNode h c false).bind fun k hk => .pure ?_)
    exact .intro ⟨trivial, trivial⟩ (Site.all_singleton.mpr hk)
  · exact hleaf (.intro ⟨trivial, trivial⟩ Site.all_nil)
  · exact hleaf (.intro ⟨trivial, trivial⟩ Site.all_nil)
  · exact hleaf (.intro ⟨trivial, trivial⟩ Site.all_nil)
  · exact hleaf (.intro ⟨trivial, trivial⟩ Site.all_nil)
  · exact hleaf (.intro ⟨trivial, htoken⟩ Site.all_nil)
  · exact hplain (gives_regExp c "")
  · exact hplain (gives_regExp c "=")
  · exact hplain (gives_group h c)
  · exact hplain (gives_arrayLiteral h c)
  · exact hplain (gives_objectLiteral h c)
  · exact hplain (gives_plainTemplate h c)
  · exact hplain (gives_plainTemplate h c)
  · exact hplain (gives_named h c)

/-! ## Members and calls -/

omit h in
theorem gives_memberName : memberName.Gives c fun key =>
    Site.All Site.Read (c.surroundings.memberKey key) := by
  refine .next fun token => ?_
  split
  case h_5 => exact .unexpected
  case h_6 => exact .fail
  all_goals exact .next fun _ => .pure Site.all_nil

theorem gives_computedKey : (computedKey inner).Gives c fun key =>
    Site.All Site.Read (c.surroundings.memberKey key) := by
  refine .next fun _ => (Gives.withIn (h.expression _)).bind fun key hkey => ?_
  exact .next fun _ => .pure (Site.all_singleton.mpr hkey)

/-- The members behind an operand; no other member follows them. -/
theorem givesAt_members (fuel : Nat) {e : Expression} {r : Reading} (he : Accessible c e r) :
    (members inner fuel e).GivesAt c r fun e' r' =>
      Accessible c e' r' ∧ ¬ beginsMember r'.current := by
  induction fuel generalizing e r with
  | zero => exact .fail
  | succ fuel ih =>
    refine (givesAt_skipMark _).bind fun dotted s hdot => ?_
    cases dotted with
    -- An access makes the operand an admitted one, also if it was the word `super`.
    | true =>
      refine (gives_memberName c s).bind fun key s hkey => ih (.inl (he.member (.inl hdot) hkey))
    | false =>
      obtain ⟨hdot, rfl⟩ := hdot
      refine (givesAt_atMark _).bind fun bracketed t ht => ?_
      obtain ⟨rfl, rfl⟩ := ht
      split
      · next hbracket =>
        refine (gives_computedKey h c _).bind fun key s hkey => ?_
        exact ih (.inl (he.member (.inr hbracket) hkey))
      · next hbracket => exact .pure ⟨he, by simp [beginsMember, hdot, hbracket]⟩

/-- The members and calls behind an optional link. -/
theorem gives_linkTail (fuel : Nat) {e : Expression} (he : c.Admits (.expression e)) :
    (linkTail inner fuel e).Gives c fun e => c.Admits (.expression e) := by
  induction fuel generalizing e with
  | zero => exact .fail
  | succ fuel ih =>
    have hmember : ∀ key, Site.All Site.Read (c.surroundings.memberKey key) →
        (linkTail inner fuel (.member e key)).Gives c fun e => c.Admits (.expression e) :=
      fun key hkey => ih (he.member hkey)
    refine .next fun dotted => ?_
    split
    · exact (gives_memberName c).bind hmember
    refine .next fun bracketed => ?_
    split
    · exact (gives_computedKey h c).bind hmember
    refine .next fun called => ?_
    split
    · exact (gives_arguments h c).bind fun args hargs => ih (he.call hargs)
    · exact .pure he

/-- What follows an optional link. -/
theorem gives_optionalLink : (optionalLink inner).Gives c fun e => c.Admits (.expression e) := by
  unfold optionalLink
  extract_lets base linked
  have hbase : c.Admits (.expression base) := .identifier ""
  have hlinked : ∀ e, c.Admits (.expression e) →
      (linked e).Gives c fun e => c.Admits (.expression e) := fun e he => gives_linkTail h c _ he
  have hmember : ∀ key, Site.All Site.Read (c.surroundings.memberKey key) →
      c.Admits (.expression (.member base key)) := fun key hkey => hbase.member hkey
  refine .next fun called => .next fun bracketed => ?_
  split
  · exact Gives.bind ((gives_arguments h c).map fun args hargs => hbase.call hargs) hlinked
  split
  · exact Gives.bind ((gives_computedKey h c).map hmember) hlinked
  · exact Gives.bind ((gives_memberName c).map hmember) hlinked

/-- All that follows an operand. -/
theorem givesAt_operandTail (fuel : Nat) {e : Expression} {r : Reading} (he : Accessible c e r) :
    (operandTail inner fuel e).GivesAt c r fun e _ => c.Admits (.expression e) := by
  induction fuel generalizing e r with
  | zero => exact .fail
  | succ fuel ih =>
    refine givesAt_current.bind fun token s hs => ?_
    obtain ⟨rfl, rfl⟩ := hs
    split
    · next hdot =>
      refine .next fun _ t => (gives_memberName c t).bind fun key t hkey => ?_
      exact ih (.inl (he.member (.inl hdot) hkey))
    split
    · next hbracket =>
      refine (gives_computedKey h c _).bind fun key t hkey => ?_
      exact ih (.inl (he.member (.inr hbracket) hkey))
    next hdot hbracket =>
    -- No access follows, so the word could only be called.
    have hr : ¬ beginsMember s.current := not_or.mpr ⟨hdot, hbracket⟩
    split
    · refine (gives_arguments h c _).bind fun args t hargs => ?_
      exact ih (.inl (he.call hr hargs))
    next hparen =>
    -- No call follows either, so the operand stands for itself.
    have he := he.admits hr hparen
    split
    · refine (gives_template h c _).bind fun (texts, values) t hparts => ih (.inl ?_)
      exact .intro ⟨hparts.1, trivial⟩ (Site.all_cons.mpr ⟨he, Site.all_map.mpr hparts.2⟩)
    split
    · refine .next fun _ t => (gives_optionalLink h c t).bind fun link t hlink => ih (.inl ?_)
      exact .intro ⟨trivial, trivial⟩ (Site.all_pair.mpr ⟨he, hlink⟩)
    · exact .pure he

omit h in
theorem gives_newTarget : newTarget.Gives c fun e => c.Admits (.expression e) := by
  refine .next fun token => ?_
  split
  · refine .next fun d => ?_
    extract_lets passed
    split
    · exact .next fun _ => .pure (.intro ⟨trivial, trivial⟩ Site.all_nil)
    · exact .fail_bind
  · exact .fail

/-- A construction. -/
theorem gives_construction : (construction inner).Gives c fun e => c.Admits (.expression e) := by
  refine .next fun _ => .next fun dotted => ?_
  split
  · exact gives_newTarget c
  refine .next fun nested => ?_
  extract_lets called
  -- The callee ends before its arguments, so a call of `super` is one of a construction here.
  have hcalled : ∀ callee r, Accessible c callee r →
      (called callee).GivesAt c r fun e _ => c.Admits (.expression e) := by
    intro callee r hcallee
    refine (givesAt_members h c _ hcallee).bind fun callee r ⟨hcallee, hr⟩ => ?_
    extract_lets made
    refine (givesAt_atMark _).bind fun listed s hs => ?_
    obtain ⟨rfl, rfl⟩ := hs
    have hmade : ∀ args, (∀ e ∈ args, c.AdmitsElement e) →
        (made args).Gives c fun e => c.Admits (.expression e) := fun args hargs =>
      .pure (hcallee.new hr hargs)
    split
    · exact (gives_arguments h c).bind hmade s
    · exact Gives.bind (.pure nofun) hmade s
  intro r
  split
  · exact (h.construction c r).bind fun e s he => hcalled e s (.inl he)
  · exact (givesAt_primary h c r).bind fun e s he => hcalled e s he

/-- An operand with the calls and members behind it. -/
theorem gives_operand : (operand inner).Gives c fun e => c.Admits (.expression e) := by
  unfold operand
  refine .next fun constructed => ?_
  extract_lets followed
  intro r
  split
  · exact (gives_construction h c r).bind fun e s he => givesAt_operandTail h c _ (.inl he)
  · exact (givesAt_primary h c r).bind fun e s he => givesAt_operandTail h c _ he

/-! ## Operators -/

omit h in
theorem gives_checkTarget (simple : Bool) (e : Expression) :
    (checkTarget simple e).Gives c fun _ => isTarget simple e = true := by
  unfold checkTarget
  split
  · next htarget => exact .pure htarget
  · exact .fail

theorem gives_stepped : (stepped inner).Gives c fun e => c.Admits (.expression e) := by
  refine (gives_operand h c).bind fun e he => .next fun lineEnd => ?_
  split
  · exact .pure he
  refine .next fun token => ?_
  split
  · exact .pure he
  · refine (gives_checkTarget c true e).bind fun _ htarget => .next fun _ => .pure ?_
    exact .intro ⟨trivial, htarget⟩ (Site.all_singleton.mpr he)

/-- An operand with the operators before and behind it. -/
theorem gives_unary : (unary inner).Gives c fun e => c.Admits (.expression e) := by
  refine .next fun token => ?_
  split
  · refine .next fun _ => (h.unary c).bind fun e he => .pure ?_
    exact .intro ⟨trivial, trivial⟩ (Site.all_singleton.mpr he)
  split
  · refine .next fun _ => (h.unary c).bind fun e he => ?_
    refine (gives_checkTarget c true e).bind fun _ htarget => .pure ?_
    exact .intro ⟨trivial, htarget⟩ (Site.all_singleton.mpr he)
  refine .next fun d => ?_
  split
  · refine .next fun _ => (h.unary c).bind fun e he => .pure ?_
    exact .intro ⟨trivial, trivial⟩ (Site.all_singleton.mpr he)
  · exact gives_stepped h c

omit h in
/-- Two operands with an operator between them. -/
theorem admits_pair {e l r : Expression} (hrule : Site.Readable (c.surroundings.expression e))
    (hparts : Site.expressionParts c.surroundings e =
      [c.surroundings.expression l, c.surroundings.expression r])
    (hl : c.Admits (.expression l)) (hr : c.Admits (.expression r)) : c.Admits (.expression e) := by
  refine .intro hrule ?_
  rw [Site.parts, hparts]
  exact Site.all_pair.mpr ⟨hl, hr⟩

theorem gives_power : (power inner).Gives c fun e => c.Admits (.expression e) := by
  refine .next fun token => ?_
  extract_lets isUnary
  refine (gives_unary h c).bind fun base hbase => .next fun exponent => ?_
  split
  · extract_lets raised
    have hraised : (raised ()).Gives c fun e => c.Admits (.expression e) :=
      .next fun _ => (h.power c).bind fun e he => .pure <|
        admits_pair c ⟨trivial, trivial⟩ rfl hbase he
    split
    · exact .fail_bind
    · exact hraised
  · exact .pure hbase

theorem gives_binaryTail (level fuel : Nat) {left : Expression}
    (hleft : c.Admits (.expression left)) :
    (binaryTail inner level fuel left).Gives c fun e => c.Admits (.expression e) := by
  -- Induction on the number of operators that may follow; the left operand grows.
  induction fuel generalizing left with
  | zero => exact .fail
  | succ fuel ih =>
    refine .next fun d => .next fun token => ?_
    split
    · exact .pure hleft
    · split
      · exact .pure hleft
      · refine .next fun _ => (h.binary c _).bind fun right hright => ih ?_
        exact admits_pair c ⟨trivial, trivial⟩ rfl hleft hright

theorem gives_binary (level : Nat) :
    (binary inner level).Gives c fun e => c.Admits (.expression e) :=
  (gives_power h c).bind fun _ he => gives_binaryTail h c level _ he

omit h in
theorem gives_logicalTail (mark : Punctuator) (op : LogicalOperator) {next : Parse Expression}
    (hnext : next.Gives c fun e => c.Admits (.expression e)) (fuel : Nat) {left : Expression}
    (hleft : c.Admits (.expression left)) :
    (logicalTail mark op next fuel left).Gives c fun e => c.Admits (.expression e) := by
  induction fuel generalizing left with
  | zero => exact .fail
  | succ fuel ih =>
    refine .next fun passed => ?_
    split
    · refine hnext.bind fun right hright => ih ?_
      exact admits_pair c ⟨trivial, trivial⟩ rfl hleft hright
    · exact .pure hleft

theorem gives_conjunction : (conjunction inner).Gives c fun e => c.Admits (.expression e) :=
  (gives_binary h c 0).bind fun _ he => gives_logicalTail c _ _ (gives_binary h c 0) _ he

theorem gives_disjunction : (disjunction inner).Gives c fun e => c.Admits (.expression e) :=
  (gives_conjunction h c).bind fun _ he => gives_logicalTail c _ _ (gives_conjunction h c) _ he

theorem gives_coalescence : (coalescence inner).Gives c fun e => c.Admits (.expression e) :=
  (gives_disjunction h c).bind fun _ he => gives_logicalTail c _ _ (gives_disjunction h c) _ he

theorem gives_conditional : (conditional inner).Gives c fun e => c.Admits (.expression e) := by
  refine (gives_coalescence h c).bind fun test htest => .next fun asked => ?_
  split
  · refine (Gives.withIn (h.assignment _)).bind fun e he => .next fun _ => ?_
    refine (h.assignment c).bind fun e' he' => .pure (.intro ⟨trivial, trivial⟩ ?_)
    exact Site.all_cons.mpr ⟨htest, Site.all_pair.mpr ⟨he, he'⟩⟩
  · exact .pure htest

theorem gives_yielded : (yielded inner).Gives c fun e => c.Admits (.expression e) := by
  have halone : c.Admits (.expression (.yield none false)) :=
    .intro ⟨trivial, trivial⟩ Site.all_nil
  refine .next fun _ => .next fun lineEnd => ?_
  split
  · exact .pure halone
  refine .next fun token => ?_
  split
  · exact .pure halone
  refine .next fun delegate => (h.assignment c).bind fun e he => .pure ?_
  exact .intro ⟨trivial, trivial⟩ (Site.all_singleton.mpr he)

omit h in
theorem isTarget_of_simple {simple : Bool} {e : Expression} (he : isTarget simple e = true) :
    isTarget false e = true := by
  cases e <;> first | rfl | cases he

/-- An expression that is no sequence. -/
theorem gives_assignment : (assignment inner).Gives c fun e => c.Admits (.expression e) := by
  refine .next fun d => .next fun yields => ?_
  split
  · exact gives_yielded h c
  refine (gives_conditional h c).bind fun target htarget => .next fun token => ?_
  split
  · exact .pure htarget
  · refine (gives_checkTarget c _ target).bind fun _ hsimple => .next fun _ => ?_
    refine (h.assignment c).bind fun value hvalue => .pure ?_
    exact admits_pair c ⟨trivial, isTarget_of_simple hsimple⟩ rfl htarget hvalue

theorem gives_sequenceTail (fuel : Nat) : (sequenceTail inner fuel).Gives c fun es =>
    ∀ e ∈ es, c.Admits (.expression e) := by
  induction fuel with
  | zero => exact .fail
  | succ fuel ih =>
    refine .next fun passed => ?_
    split
    · refine (h.assignment c).bind fun e he => ih.bind fun es hes => .pure ?_
      exact List.forall_mem_cons.mpr ⟨he, hes⟩
    · exact .pure nofun

/-- An expression, which may be a sequence. -/
theorem gives_expression : (expression inner).Gives c fun e => c.Admits (.expression e) := by
  refine (gives_assignment h c).bind fun first hfirst => ?_
  refine (gives_sequenceTail h c _).bind fun others hothers => ?_
  split
  · exact .pure hfirst
  · exact .pure (.intro ⟨trivial, trivial⟩
      (Site.all_map.mpr (List.forall_mem_cons.mpr ⟨hfirst, hothers⟩)))

end EcmaEval.Grammar
