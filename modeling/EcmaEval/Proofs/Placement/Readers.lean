import EcmaEval.Proofs.Flags.Readers
import EcmaEval.Proofs.Placement.Fitting
import EcmaEval.Proofs.Syntax.Pairing

/-!
# Readers of fitting values

A reader of a phrase gives values in which everything stands where the rule lets it, provided that
the readers of the phrases inside do so.  Most readers are sequences of such readers, and their
instances are found by the rules for sequences and branches.  Readers that turn to the code of a
function, to a label or to `await` are looked at one by one.

So in a program `await` stands in asynchronous code only: in the parameters or the body of a function
that is asynchronous, in the body of such an arrow function, or outside of all functions where the
options let it.  The parameters of an arrow function are read as expressions, before the arrow is
seen, and so they count as code of what is around the arrow.

## Main definitions

* `Parse.GivesFitting`: what a reader gives is fitting
* `Parse.GivesPlain`: what a reader gives is no declaration of a function
* `Phrases.Fitting`: readers of all phrases give fitting values

## Main results

* `Fitting.toPattern`: an expression taken as a pattern stays fitting
* `Phrases.fitting_ofDepth`: the readers of all phrases give fitting values
* `Program.asynchronous_of_holds_await`: wherever `await` stands, the code around it is asynchronous
* `Program.await_in_arrow_parameters`: the parameters of an arrow function that is not asynchronous
  may hold `await`
-/

namespace EcmaEval

-- The search for an instance follows the steps of a reader, of which some have many.
set_option synthInstance.maxSize 1000

/-! ## Expressions taken as patterns -/

namespace Fitting

variable {awaits : Bool}

mutual

/-- The pattern that is written like a fitting expression is fitting. -/
theorem toPattern {e : Expression} {p : Pattern} (h : Fitting awaits e)
    (hp : e.toPattern? = some p) : Fitting awaits p := by
  have hparts := (Node.every_iff.mp (expression_iff.mp h)).2.1
  cases e
  case identifier name =>
    cases hp
    infer_instance
  -- An assignment is a target with a default.
  case assign op target value =>
    cases op
    case plain =>
      obtain ⟨p', hp', rfl⟩ : ∃ p', target.toPattern? = some p' ∧ .withDefault p' value = p := by
        simpa [Expression.toPattern?, Option.bind_eq_some_iff] using hp
      have htarget : Fitting awaits target := expression_iff.mpr (hparts _ (.head _) rfl)
      have hvalue : Fitting awaits value := expression_iff.mpr (hparts _ (.tail _ (.head _)) rfl)
      have := toPattern htarget hp'
      infer_instance
    all_goals cases hp
  -- A spread is what takes the rest.
  case spread target =>
    obtain ⟨p', hp', rfl⟩ : ∃ p', target.toPattern? = some p' ∧ .rest p' = p := by
      simpa [Expression.toPattern?, Option.bind_eq_some_iff] using hp
    have := toPattern (spread_iff.mp h) hp'
    infer_instance
  case array elements =>
    obtain ⟨ps, hps, rfl⟩ : ∃ ps, elementPatterns? elements = some ps ∧ .array ps = p := by
      simpa [Expression.toPattern?, Option.bind_eq_some_iff] using hp
    have := elementPatterns (fun element helement e he => ?_) hps
    · infer_instance
    obtain rfl : element = some e := he
    have hsite := Node.everyOf_map.mp hparts e (List.mem_filterMap.mpr ⟨_, helement, rfl⟩)
    exact of_element (hsite (by unfold Surroundings.element; split <;> rfl))
  case object members =>
    obtain ⟨ps, hps, rfl⟩ : ∃ ps, memberPatterns? members = some ps ∧ .object ps = p := by
      simpa [Expression.toPattern?, Option.bind_eq_some_iff] using hp
    have := memberPatterns (Node.everyOf_flatMap.mp hparts) hps
    infer_instance
  all_goals cases hp

theorem elementPatterns {elements : List (Option Expression)} {ps : List (Option Pattern)}
    (h : ∀ element ∈ elements, ∀ e ∈ element, Fitting awaits e)
    (hps : elementPatterns? elements = some ps) : Fitting awaits ps := by
  match elements with
  | [] =>
    cases hps
    infer_instance
  | none :: elements =>
    obtain ⟨ps', hps', rfl⟩ : ∃ ps', elementPatterns? elements = some ps' ∧ none :: ps' = ps := by
      simpa [elementPatterns?, Option.bind_eq_some_iff] using hps
    have := elementPatterns (fun element hmem => h element (.tail _ hmem)) hps'
    infer_instance
  | some e :: elements =>
    obtain ⟨p, hp, ps', hps', rfl⟩ : ∃ p, e.toPattern? = some p ∧
        ∃ ps', elementPatterns? elements = some ps' ∧ some p :: ps' = ps := by
      simpa [elementPatterns?, Option.bind_eq_some_iff] using hps
    have := toPattern (h _ (.head _) e rfl) hp
    have := elementPatterns (fun element hmem => h element (.tail _ hmem)) hps'
    infer_instance

theorem memberPatterns {members : List ObjectMember} {ps : List PatternMember}
    (h : ∀ m ∈ members, Node.EveryOf Node.Fits awaits (({} : Surroundings).objectMember m))
    (hps : memberPatterns? members = some ps) : Fitting awaits ps := by
  match members with
  | [] =>
    cases hps
    infer_instance
  | ⟨kind, key, value, shorthand⟩ :: members =>
    cases kind
    -- Only plain members are patterns; spreads and methods are not.
    case value =>
      obtain ⟨p, hp, ps', hps', rfl⟩ : ∃ p, value.toPattern? = some p ∧
          ∃ ps', memberPatterns? members = some ps' ∧ ⟨key, p⟩ :: ps' = ps := by
        simpa [memberPatterns?, Option.bind_eq_some_iff] using hps
      obtain ⟨hkey, hvalue⟩ := Node.everyOf_append.mp (h _ (.head _))
      have hvalue : Fitting awaits value := expression_iff.mpr (hvalue _ (.head _) rfl)
      have hkey : Fitting awaits key := ⟨hkey, fun _ hk => nomatch hk⟩
      have := toPattern hvalue hp
      have := memberPatterns (fun m hm => h m (.tail _ hm)) hps'
      infer_instance
    all_goals cases hps

end

end Fitting

/-! ## Readers -/

namespace Parse

variable {awaits : Bool} {α β : Type} [Holder α] [Holder β] {p q : Parse α} {f : α → Parse β}

/-- What a reader gives is fitting, where `await` is an operator or not. -/
class GivesFitting (awaits : Bool) (p : Parse α) : Prop where
  fitting : ∀ {c : Context}, c.awaits = awaits → ∀ {r x r'}, p c r = .ok (x, r') → Fitting awaits x

/-- What a reader gives is no declaration of a function. -/
class GivesPlain (p : Parse Statement) : Prop where
  plain : ∀ {c r s r'}, p c r = .ok (s, r') → s.Plain

namespace GivesPlain

instance (s : Statement) [hs : s.Plain] : GivesPlain (pure s) := by
  refine ⟨fun h => ?_⟩
  cases h
  exact hs

omit [Holder α] in
instance {f : α → Parse Statement} [hf : ∀ x, GivesPlain (f x)] : GivesPlain (p >>= f) := by
  refine ⟨fun h => ?_⟩
  obtain ⟨x, s, -, hy⟩ := exists_of_bind_eq_ok h
  exact (hf x).plain hy

omit [Holder α] in
theorem next {f : α → Parse Statement} (hf : ∀ x, GivesPlain (f x)) : GivesPlain (p >>= f) :=
  inferInstance

instance {b : Prop} [Decidable b] {p q : Parse Statement} [GivesPlain p] [GivesPlain q] :
    GivesPlain (if b then p else q) := by
  split <;> infer_instance

instance (cause : SyntaxCause) : GivesPlain (fail cause) := ⟨fun h => nomatch h⟩

instance {p : Parse Statement} [h : GivesPlain p] (change : Context → Context) :
    GivesPlain (within change p) :=
  ⟨h.plain⟩

end GivesPlain

namespace GivesFitting

theorem bind (hp : GivesFitting awaits p) (hf : ∀ x, Fitting awaits x → GivesFitting awaits (f x)) :
    GivesFitting awaits (p >>= f) := by
  refine ⟨fun {c} hc {r y r'} h => ?_⟩
  obtain ⟨x, s, hx, hy⟩ := exists_of_bind_eq_ok h
  exact (hf x (hp.fitting hc hx)).fitting hc hy

/-- Behind a step that gives no trees. -/
theorem next [Treeless α] (hf : ∀ x, GivesFitting awaits (f x)) : GivesFitting awaits (p >>= f) :=
  bind ⟨fun _ _ _ _ _ => inferInstance⟩ fun x _ => hf x

instance [Treeless α] (p : Parse α) : GivesFitting awaits p := ⟨fun _ _ _ _ _ => inferInstance⟩

instance (x : α) [Fitting awaits x] : GivesFitting awaits (pure x : Parse α) := by
  refine ⟨fun _ _ _ _ h => ?_⟩
  cases h
  infer_instance

instance [hp : GivesFitting awaits p]
    [hf : ∀ x : Subtype (Fitting (α := α) awaits), GivesFitting awaits (f x.val)] :
    GivesFitting awaits (p >>= f) :=
  bind hp fun x hx => hf ⟨x, hx⟩

/-- A statement inside another one is read by a reader that gives no declarations of functions. -/
instance {p : Parse Statement} {f : Statement → Parse α} [hp : GivesFitting awaits p]
    [hplain : GivesPlain p]
    [hf : ∀ s : Subtype fun s : Statement => Fitting awaits s ∧ s.Plain, GivesFitting awaits (f s.val)] :
    GivesFitting awaits (p >>= f) := by
  refine ⟨fun {c} hc {r y r'} h => ?_⟩
  obtain ⟨s, r'', hs, hy⟩ := exists_of_bind_eq_ok h
  exact (hf ⟨s, hp.fitting hc hs, hplain.plain hs⟩).fitting hc hy

instance (s : Subtype fun s : Statement => Fitting awaits s ∧ s.Plain) : Fitting awaits s.val :=
  s.property.1

instance (s : Subtype fun s : Statement => Fitting awaits s ∧ s.Plain) : s.val.Plain :=
  s.property.2

instance {b : Prop} [Decidable b] [GivesFitting awaits p] [GivesFitting awaits q] :
    GivesFitting awaits (if b then p else q) := by
  split <;> infer_instance

instance {g : α → β} [hp : GivesFitting awaits p]
    [∀ x : Subtype (Fitting (α := α) awaits), Fitting awaits (g x.val)] :
    GivesFitting awaits (g <$> p) :=
  inferInstanceAs (GivesFitting awaits (p >>= fun x => pure (g x)))

instance (cause : SyntaxCause) : GivesFitting awaits (fail cause : Parse α) :=
  ⟨fun _ _ _ _ h => nomatch h⟩

instance : GivesFitting awaits (unexpected : Parse α) := ⟨fun _ _ _ _ h => nomatch h⟩

/-- A look at the context. -/
theorem context {f : Context → Parse β}
    (hf : ∀ c : Context, c.awaits = awaits → GivesFitting awaits (f c)) :
    GivesFitting awaits (Parse.context >>= f) := by
  refine ⟨fun {c} hc {r y r'} h => ?_⟩
  obtain ⟨d, s, hd, hy⟩ := exists_of_bind_eq_ok h
  cases hd
  exact (hf c hc).fitting hc hy

/-- A step into a context that `await` does not depend on. -/
theorem within {change : Context → Context} (hchange : ∀ c, (change c).awaits = c.awaits)
    (h : GivesFitting awaits p) : GivesFitting awaits (within change p) :=
  ⟨fun {c} hc _ _ _ => h.fitting ((hchange c).trans hc)⟩

instance [h : GivesFitting awaits p] : GivesFitting awaits (withIn p) :=
  within (fun _ => rfl) h

theorem untilToken {closes : Token → Bool} (h : GivesFitting awaits p) (fuel : Nat) :
    GivesFitting awaits (untilToken closes p fuel) := by
  -- Induction on the number of phrases that may still come.
  induction fuel with
  | zero => exact inferInstanceAs (GivesFitting awaits (fail _ : Parse (List α)))
  | succ fuel ih =>
    unfold Parse.untilToken
    infer_instance

instance {closes : Token → Bool} [h : GivesFitting awaits p] (fuel : Nat) :
    GivesFitting awaits (Parse.untilToken closes p fuel) :=
  h.untilToken fuel

instance {close : Punctuator} [h : GivesFitting awaits p] (fuel : Nat) :
    GivesFitting awaits (untilMark close p fuel) := by
  unfold untilMark
  infer_instance

end GivesFitting

end Parse

open Parse

/-- The readers of all phrases give fitting values. -/
class Phrases.Fitting (awaits : Bool) (inner : Phrases) : Prop where
  item : GivesFitting awaits inner.item
  statement : GivesFitting awaits inner.statement
  expression : GivesFitting awaits inner.expression
  assignment : GivesFitting awaits inner.assignment
  binary : ∀ level, GivesFitting awaits (inner.binary level)
  power : GivesFitting awaits inner.power
  unary : GivesFitting awaits inner.unary
  operand : GivesFitting awaits inner.operand
  construction : GivesFitting awaits inner.construction
  pattern : GivesFitting awaits inner.pattern

/-- A statement that is no item of a list is no declaration of a function. -/
class Phrases.Plain (inner : Phrases) : Prop where
  statement : GivesPlain inner.statement

attribute [instance] Phrases.Fitting.item Phrases.Fitting.statement Phrases.Fitting.expression
  Phrases.Fitting.assignment Phrases.Fitting.binary Phrases.Fitting.power Phrases.Fitting.unary
  Phrases.Fitting.operand Phrases.Fitting.construction Phrases.Fitting.pattern
  Phrases.Plain.statement

namespace Grammar

variable {awaits : Bool} {inner : Phrases} [hinner : ∀ awaits, inner.Fitting awaits] [inner.Plain]

/-! ### Patterns and keys -/

instance : GivesFitting awaits (propertyKey inner) :=
  .next fun token => by split <;> infer_instance

instance (target : Pattern) [Fitting awaits target] : GivesFitting awaits (defaulted inner target) := by
  unfold defaulted
  infer_instance

instance : GivesFitting awaits (patternElement inner) := by
  unfold patternElement
  infer_instance

instance : GivesFitting awaits (patternMember inner) := by
  unfold patternMember
  refine .next fun spread => ?_
  extract_lets keyed
  have : GivesFitting awaits (keyed ()) := .next fun shorthand => by
    cases shorthand <;> infer_instance
  infer_instance

instance : GivesFitting awaits (pattern inner) :=
  .next fun name => by cases name <;> infer_instance

instance : GivesFitting awaits (parameter inner) := by
  unfold parameter
  infer_instance

instance : GivesFitting awaits (parameters inner) := by
  unfold parameters
  infer_instance

/-! ### Functions -/

instance : GivesFitting awaits (block inner) := by
  unfold block
  infer_instance

instance : GivesFitting awaits (bodyBlock inner) := by
  unfold bodyBlock
  infer_instance

theorem awaits_inBody (c : Context) (isAsync isGenerator : Bool) :
    (c.inBody isAsync isGenerator).awaits = isAsync := by
  simp [Context.awaits, Context.inBody]

theorem awaits_inOwnBody (c : Context) (isAsync isGenerator superProperty superCall : Bool) :
    (c.inOwnBody isAsync isGenerator superProperty superCall).awaits = isAsync := by
  simp [Context.awaits, Context.inOwnBody, Context.inBody]

/-- The code of a function is read where `await` is an operator if the function is asynchronous,
whatever is around it. -/
instance (name : Option String) (isAsync isGenerator superProperty superCall : Bool) :
    GivesFitting awaits (functionRest inner name isAsync isGenerator superProperty superCall) := by
  refine ⟨fun {c} _ {r f r'} h => ?_⟩
  have hc := awaits_inOwnBody c isAsync isGenerator superProperty superCall
  obtain ⟨params, s, hparams, h⟩ := exists_of_bind_eq_ok h
  obtain ⟨body, s', hbody, h⟩ := exists_of_bind_eq_ok h
  cases h
  have hparams := GivesFitting.fitting hc hparams
  have hbody := GivesFitting.fitting hc hbody
  refine .function (Fitting.list_iff.mp hparams) ?_
  exact List.forall_mem_map.mpr fun s hs => Fitting.statement_iff.mp (Fitting.list_iff.mp hbody s hs)

instance (isAsync : Bool) : GivesFitting awaits (functionDeclaration inner isAsync) := by
  unfold functionDeclaration
  infer_instance

instance (isAsync : Bool) : GivesFitting awaits (functionExpression inner isAsync) := by
  unfold functionExpression
  infer_instance

instance (isAsync isGenerator superCall : Bool) :
    GivesFitting awaits (method inner isAsync isGenerator superCall) := by
  unfold method
  infer_instance

/-! ### Classes -/

instance (derived isStatic isAsync isGenerator : Bool) (kind : MethodKind)
    (key : PropertyKey) [Fitting awaits key] :
    GivesFitting awaits (classMethod inner derived isStatic isAsync isGenerator kind key) := by
  unfold classMethod
  infer_instance

omit [inner.Plain] in
/-- The value of a field is read where `await` is no operator. -/
theorem fitting_fieldValue {c : Context} {r r' : Reading} {e : Expression}
    (h : fieldValue inner c r = .ok (e, r')) : Fitting false e :=
  GivesFitting.fitting (p := withIn inner.assignment) (awaits_inOwnBody c false false true false) h

/-- The value of a field is read where `await` is no operator. -/
instance (isStatic : Bool) (key : PropertyKey) [hkey : Fitting awaits key] :
    GivesFitting awaits (classField inner isStatic key) := by
  unfold classField
  extract_lets close named
  have hclose (value : Option Expression) (hvalue : Fitting false value) :
      GivesFitting awaits (close value) := .next fun _ => by
    have : Fitting awaits (ClassElement.field isStatic key value) := .field isStatic
    infer_instance
  have hnamed : GivesFitting awaits (named ()) := .next fun assigned => by
    split
    · refine ⟨fun {c} hc {r m r'} h => ?_⟩
      obtain ⟨value, s, hvalue, h⟩ := exists_of_bind_eq_ok h
      obtain ⟨e, s', he, hsome⟩ := exists_of_bind_eq_ok (f := fun e => pure (some e)) hvalue
      cases hsome
      have := fitting_fieldValue he
      exact (hclose (some e) inferInstance).fitting hc h
    · exact hclose none inferInstance
  infer_instance

instance : GivesFitting awaits (staticBlock inner) := by
  refine ⟨fun {c} _ {r m r'} h => ?_⟩
  obtain ⟨body, s, hbody, h⟩ := exists_of_bind_eq_ok h
  cases h
  have := GivesFitting.fitting (awaits_inOwnBody c false false true false) hbody
  exact .staticBlock

instance (derived isStatic : Bool) : GivesFitting awaits (classMember inner derived isStatic) := by
  unfold classMember
  infer_instance

instance (derived : Bool) : GivesFitting awaits (classElement inner derived) := by
  unfold classElement
  infer_instance

instance (derived hasConstructor : Bool) (fuel : Nat) :
    GivesFitting awaits (classElements inner derived hasConstructor fuel) := by
  -- Induction on the number of elements that may still come.
  induction fuel generalizing hasConstructor with
  | zero => exact inferInstanceAs (GivesFitting awaits (fail _ : Parse (List ClassElement)))
  | succ fuel ih =>
    unfold classElements
    infer_instance

instance (isDeclaration : Bool) : GivesFitting awaits (classNode inner isDeclaration) := by
  refine .next fun _ => ?_
  extract_lets headed
  have (name : Option String) : GivesFitting awaits (headed name) := by
    unfold headed
    infer_instance
  infer_instance

/-! ### Compound literals -/

instance : GivesFitting awaits (spreadable inner) := by
  unfold spreadable
  infer_instance

instance : GivesFitting awaits (argument inner) := by
  unfold argument
  infer_instance

instance : GivesFitting awaits (arguments inner) := by
  unfold arguments
  infer_instance

instance : GivesFitting awaits (arrayElement inner) := by
  unfold arrayElement
  infer_instance

instance : GivesFitting awaits (arrayLiteral inner) := by
  unfold arrayLiteral
  infer_instance

instance (isAsync isGenerator : Bool) (kind : MethodKind) :
    GivesFitting awaits (keyedMember inner isAsync isGenerator kind) := by
  unfold keyedMember
  refine .next fun shorthand => ?_
  cases shorthand <;> infer_instance

instance : GivesFitting awaits (objectMember inner) := by
  unfold objectMember
  infer_instance

instance : GivesFitting awaits (objectLiteral inner) := by
  unfold objectLiteral
  infer_instance

instance (fuel : Nat) : GivesFitting awaits (substitutions inner fuel) := by
  -- Induction on the number of substitutions that may still come.
  induction fuel with
  | zero =>
    exact inferInstanceAs (GivesFitting awaits (fail _ : Parse (List (Option String) × List Expression)))
  | succ fuel ih =>
    unfold substitutions
    refine .next fun _ => .bind inferInstance fun value hvalue => .next fun closed => ?_
    extract_lets continued
    have : GivesFitting awaits (continued ()) := .next fun token => by
      split
      · refine .next fun _ => .bind ih fun (texts, values) h => ?_
        have := (Fitting.pair_iff.mp h).2
        infer_instance
      · infer_instance
      · infer_instance
    infer_instance

instance : GivesFitting awaits (template inner) := by
  refine .next fun token => ?_
  split
  · infer_instance
  · refine .bind inferInstance fun (texts, values) h => ?_
    have := (Fitting.pair_iff.mp h).2
    infer_instance
  · infer_instance

/-! ### Operands -/

/-- The body of an arrow function is read where `await` is an operator if the function is
asynchronous.  Its parameters were read before, as code of what is around it. -/
instance (params : List Pattern) [Fitting awaits params] (isAsync : Bool) :
    GivesFitting awaits (arrow inner params isAsync) := by
  refine ⟨fun {c} _ {r e r'} h => ?_⟩
  have hc := awaits_inBody c isAsync false
  obtain ⟨_, s, -, h⟩ := exists_of_bind_eq_ok h
  obtain ⟨braced, s', -, h⟩ := exists_of_bind_eq_ok (p := atMark .leftBrace) h
  have harrow (body : FunctionBody) (hbody : ∀ n ∈ body.nodes, n.Every Node.Fits isAsync) :
      Fitting awaits (Expression.arrow ⟨none, params, body, true, isAsync, false⟩) :=
    have : Fitting awaits (FunctionNode.mk none params body true isAsync false).params := ‹_›
    .arrow hbody
  cases braced with
  | true =>
    obtain ⟨body, s'', hbody, h⟩ := exists_of_bind_eq_ok h
    obtain ⟨statements, _, hstatements, hblock⟩ :=
      exists_of_bind_eq_ok (f := fun ss => pure (FunctionBody.block ss)) hbody
    cases hblock
    cases h
    have hstatements := Fitting.list_iff.mp (GivesFitting.fitting hc hstatements)
    exact harrow _ (List.forall_mem_map.mpr fun s hs => Fitting.statement_iff.mp (hstatements s hs))
  | false =>
    obtain ⟨body, s'', hbody, h⟩ := exists_of_bind_eq_ok h
    obtain ⟨result, _, hresult, hexpression⟩ :=
      exists_of_bind_eq_ok (f := fun e => pure (FunctionBody.expression e)) hbody
    cases hexpression
    cases h
    have hresult := GivesFitting.fitting hc hresult
    exact harrow _ (List.forall_mem_singleton.mpr (Fitting.expression_iff.mp hresult))

theorem fitting_of_mapM {α : Type} [Holder α] {convert : α → Option Pattern}
    (hconvert : ∀ x p, Fitting awaits x → convert x = some p → Fitting awaits p) {xs : List α}
    {ps : List Pattern} (hxs : Fitting awaits xs) (h : xs.mapM convert = some ps) :
    Fitting awaits ps := by
  induction xs generalizing ps with
  | nil =>
    cases h
    exact inferInstanceAs (Fitting awaits [])
  | cons x xs ih =>
    obtain ⟨p, hp, ps', hps', rfl⟩ : ∃ p, convert x = some p ∧
        ∃ ps', xs.mapM convert = some ps' ∧ p :: ps' = ps := by
      simpa [List.mapM_cons, Option.bind_eq_some_iff] using h
    obtain ⟨hx, hxs⟩ := List.forall_mem_cons.mp (Fitting.list_iff.mp hxs)
    have := hconvert x p hx hp
    have := ih (Fitting.list_iff.mpr hxs) hps'
    infer_instance

instance (parts : List Expression) [hparts : Fitting awaits parts] :
    GivesFitting awaits (toParameters parts) := by
  unfold toParameters
  split
  · next params hparams =>
    have := fitting_of_mapM (fun _ _ => Fitting.toPattern) hparts hparams
    infer_instance
  · infer_instance

instance : GivesFitting awaits (grouped inner) := by
  unfold grouped
  infer_instance

theorem fitting_value {e : Expression} {comma : Bool} (h : Fitting awaits (Grouped.value e comma)) :
    Fitting awaits e :=
  ⟨h.sites, h.codes⟩

theorem fitting_grouped {x : Grouped} {p : Pattern} (h : Fitting awaits x)
    (hp : x.toPattern? = some p) : Fitting awaits p := by
  cases x with
  | value e comma => exact (fitting_value h).toPattern hp
  | rest target =>
    cases hp
    have : Fitting awaits target := ⟨h.sites, h.codes⟩
    infer_instance

theorem fitting_groupValues {parts : List Grouped} {es : List Expression}
    (hparts : Fitting awaits parts) (h : groupValues? parts = some es) : Fitting awaits es := by
  induction parts using groupValues?.induct generalizing es with
  | case1 =>
    cases h
    infer_instance
  | case2 e =>
    cases h
    have := fitting_value (Fitting.list_iff.mp hparts _ (.head _))
    infer_instance
  | case3 e next parts ih =>
    obtain ⟨es', hes', rfl⟩ : ∃ es', groupValues? (next :: parts) = some es' ∧ e :: es' = es := by
      simpa [groupValues?, Option.map_eq_some_iff] using h
    obtain ⟨he, hrest⟩ := List.forall_mem_cons.mp (Fitting.list_iff.mp hparts)
    have := fitting_value he
    have := ih (Fitting.list_iff.mpr hrest) hes'
    infer_instance
  | case4 parts h₁ h₂ h₃ => simp_all [groupValues?]

instance : GivesFitting awaits (group inner) := by
  refine .next fun _ => .bind inferInstance fun parts hparts => .next fun arrowed => ?_
  split
  · split
    · next params hparams =>
      have := fitting_of_mapM (fun _ _ => fitting_grouped) hparts hparams
      infer_instance
    · infer_instance
  · split
    · next e he =>
      have := fitting_groupValues hparts he
      have := Fitting.list_iff.mp this e (.head _)
      infer_instance
    · next e es hes =>
      have := fitting_groupValues hparts hes
      infer_instance
    · infer_instance

instance : GivesFitting awaits (asyncOperand inner) := by
  refine .next fun (next, lineEnd) => .next fun _ => ?_
  have named : GivesFitting awaits (match next with
      | .keyword .functionWord => functionExpression inner true
      | .punctuator .leftParen => do
        let args ← arguments inner
        if ← atArrow then arrow inner (← toParameters args) true
        else return .call (.identifier "async") args
      | .identifier _ => do
        let name ← expectName
        if ← atArrow then arrow inner [.identifier name] true else unexpected
      | _ => do
        if ← atArrow then arrow inner [.identifier "async"] false
        else return .identifier "async") := by
    split <;> infer_instance
  infer_instance

instance : GivesFitting awaits superOperand := by
  refine .next fun _ => .next fun c => .next fun token => ?_
  split <;> infer_instance

instance (front : String) : GivesFitting awaits (regExp front) :=
  .next fun token => by split <;> infer_instance

instance : GivesFitting awaits (plainTemplate inner) := by
  refine .bind inferInstance fun (texts, values) h => ?_
  have := (Fitting.pair_iff.mp h).2
  infer_instance

instance : GivesFitting awaits (named inner) := by
  unfold named
  infer_instance

instance : GivesFitting awaits (primary inner) :=
  .next fun token => by split <;> infer_instance

instance : GivesFitting awaits memberName :=
  .next fun token => by split <;> infer_instance

instance : GivesFitting awaits (computedKey inner) := by
  unfold computedKey
  infer_instance

instance (fuel : Nat) (e : Expression) [Fitting awaits e] : GivesFitting awaits (members inner fuel e) := by
  -- Induction on the number of members that may still come.
  induction fuel generalizing e with
  | zero => exact inferInstanceAs (GivesFitting awaits (fail _ : Parse Expression))
  | succ fuel ih =>
    unfold members
    infer_instance

instance (fuel : Nat) (e : Expression) [Fitting awaits e] :
    GivesFitting awaits (linkTail inner fuel e) := by
  -- Induction on the number of links that may still come.
  induction fuel generalizing e with
  | zero => exact inferInstanceAs (GivesFitting awaits (fail _ : Parse Expression))
  | succ fuel ih =>
    unfold linkTail
    infer_instance

instance : GivesFitting awaits (optionalLink inner) := by
  unfold optionalLink
  infer_instance

instance (fuel : Nat) (e : Expression) [Fitting awaits e] :
    GivesFitting awaits (operandTail inner fuel e) := by
  -- Induction on the number of links that may still come.
  induction fuel generalizing e with
  | zero => exact inferInstanceAs (GivesFitting awaits (fail _ : Parse Expression))
  | succ fuel ih =>
    unfold operandTail
    refine .next fun token => ?_
    have tagged : GivesFitting awaits (do
        let (texts, values) ← template inner
        operandTail inner fuel (.taggedTemplate e texts values)) :=
      .bind inferInstance fun (texts, values) h => by
        have := (Fitting.pair_iff.mp h).2
        infer_instance
    infer_instance

instance : GivesFitting awaits newTarget :=
  .next fun token => by split <;> infer_instance

instance : GivesFitting awaits (construction inner) := by
  unfold construction
  refine .next fun _ => .next fun dotted => ?_
  split
  · infer_instance
  · refine .next fun nested => ?_
    extract_lets constructed
    have (callee : Expression) [Fitting awaits callee] : GivesFitting awaits (constructed callee) := by
      unfold constructed
      infer_instance
    infer_instance

instance : GivesFitting awaits (operand inner) := by
  unfold operand
  infer_instance

/-! ### Operators -/

instance : GivesFitting awaits (stepped inner) := by
  refine .bind inferInstance fun e he => .next fun lineEnd => ?_
  split
  · infer_instance
  · refine .next fun token => ?_
    split <;> infer_instance

/-- Where `await` is an operator, so it is in the rule. -/
instance : GivesFitting awaits (unary inner) := by
  refine .next fun token => ?_
  split
  · infer_instance
  split
  · infer_instance
  refine .context fun c hc => ?_
  split
  · next hawait =>
    have hawaits : awaits = true := hc ▸ (Bool.and_eq_true_iff.mp hawait).2
    exact .next fun _ => .bind inferInstance fun e he => by
      have := Fitting.await hawaits (e := e)
      infer_instance
  · infer_instance

instance : GivesFitting awaits (power inner) := by
  unfold power
  infer_instance

instance (level fuel : Nat) (left : Expression) [Fitting awaits left] :
    GivesFitting awaits (binaryTail inner level fuel left) := by
  -- Induction on the number of operators that may still come.
  induction fuel generalizing left with
  | zero => exact inferInstanceAs (GivesFitting awaits (fail _ : Parse Expression))
  | succ fuel ih =>
    unfold binaryTail
    refine .next fun c => .next fun token => ?_
    split <;> infer_instance

instance (level : Nat) : GivesFitting awaits (binary inner level) := by
  unfold binary
  infer_instance

instance (mark : Punctuator) (op : LogicalOperator) (next : Parse Expression)
    [GivesFitting awaits next] (fuel : Nat) (left : Expression) [Fitting awaits left] :
    GivesFitting awaits (logicalTail mark op next fuel left) := by
  -- Induction on the number of operators that may still come.
  induction fuel generalizing left with
  | zero => exact inferInstanceAs (GivesFitting awaits (fail _ : Parse Expression))
  | succ fuel ih =>
    unfold logicalTail
    infer_instance

instance : GivesFitting awaits (conjunction inner) := by
  unfold conjunction
  infer_instance

instance : GivesFitting awaits (disjunction inner) := by
  unfold disjunction
  infer_instance

instance : GivesFitting awaits (coalescence inner) := by
  unfold coalescence
  infer_instance

instance : GivesFitting awaits (conditional inner) := by
  unfold conditional
  infer_instance

instance : GivesFitting awaits (yielded inner) := by
  unfold yielded
  infer_instance

instance : GivesFitting awaits (assignment inner) := by
  unfold assignment
  refine .next fun c => .next fun yields => ?_
  split
  · infer_instance
  · refine .bind inferInstance fun target htarget => .next fun token => ?_
    split <;> infer_instance

instance (fuel : Nat) : GivesFitting awaits (sequenceTail inner fuel) := by
  -- Induction on the number of parts that may still come.
  induction fuel with
  | zero => exact inferInstanceAs (GivesFitting awaits (fail _ : Parse (List Expression)))
  | succ fuel ih =>
    unfold sequenceTail
    infer_instance

instance : GivesFitting awaits (expression inner) := by
  refine .bind inferInstance fun first hfirst => .bind inferInstance fun others hothers => ?_
  split <;> infer_instance

/-! ### Statements -/

instance (kind : DeclarationKind) : GivesFitting awaits (declarator inner kind) := by
  refine .bind inferInstance fun target htarget => ?_
  extract_lets valued
  have : GivesFitting awaits (valued ()) := by
    unfold valued
    infer_instance
  split <;> infer_instance

instance (kind : DeclarationKind) (fuel : Nat) :
    GivesFitting awaits (declarators inner kind fuel) := by
  -- Induction on the number of variables that may still come.
  induction fuel with
  | zero => exact inferInstanceAs (GivesFitting awaits (fail _ : Parse (List Declarator)))
  | succ fuel ih =>
    unfold declarators
    infer_instance

instance (kind : DeclarationKind) : GivesFitting awaits (declaration inner kind) := by
  unfold declaration
  infer_instance

instance : GivesFitting awaits (bracketed inner) := by
  unfold bracketed
  infer_instance

instance : GivesFitting awaits (loopBody inner) :=
  .within (fun _ => rfl) inferInstance

instance : GivesPlain (loopBody inner) := by
  unfold loopBody
  infer_instance

instance : GivesFitting awaits (ifStatement inner) := by
  unfold ifStatement
  infer_instance

instance : GivesFitting awaits (whileStatement inner) := by
  unfold whileStatement
  infer_instance

instance : GivesFitting awaits (doStatement inner) := by
  unfold doStatement
  infer_instance

instance (head : ForHead) [Fitting awaits head] : GivesFitting awaits (forEach inner head) := by
  unfold forEach
  infer_instance

instance (init : Option ForInit) [Fitting awaits init] :
    GivesFitting awaits (forParts inner init) := by
  refine .next fun _ => .next fun untested => ?_
  extract_lets tested
  have (test : Option Expression) [Fitting awaits test] : GivesFitting awaits (tested test) := by
    unfold tested
    infer_instance
  infer_instance

instance {α : Type} [Holder α] {p : Parse α} [h : GivesFitting awaits p] :
    GivesFitting awaits (withoutIn p) :=
  .within (fun _ => rfl) h

instance (kind : DeclarationKind) : GivesFitting awaits (forDeclaration inner kind) := by
  refine .next fun _ => .bind inferInstance fun declared hdeclared => ?_
  dsimp only
  split
  · next target =>
    obtain ⟨htarget, -⟩ := List.forall_mem_cons.mp (Fitting.list_iff.mp hdeclared)
    have : Fitting awaits target :=
      Fitting.pattern_iff.mpr (htarget.sites _ (.head _) rfl)
    infer_instance
  · infer_instance

instance : GivesFitting awaits (forExpression inner) := by
  unfold forExpression
  infer_instance

instance : GivesFitting awaits (forStatement inner) := by
  refine .next fun _ => .next fun awaiting => ?_
  extract_lets headed
  have : GivesFitting awaits (headed ()) := .next fun _ => .next fun token => by
    split
    · infer_instance
    · split <;> infer_instance
  infer_instance

instance : GivesFitting awaits (returnStatement inner) := by
  unfold returnStatement
  infer_instance

instance : GivesFitting awaits breakStatement := by
  refine .next fun _ => .next fun label => .next fun c => ?_
  split <;> infer_instance

instance : GivesFitting awaits continueStatement := by
  refine .next fun _ => .next fun c => ?_
  extract_lets checked
  have : GivesFitting awaits (checked ()) := .next fun label => by
    dsimp only
    split
    · split <;> infer_instance
    · infer_instance
  infer_instance

instance : GivesFitting awaits (throwStatement inner) := by
  unfold throwStatement
  infer_instance

instance : GivesFitting awaits (handler inner) := by
  unfold handler
  infer_instance

instance : GivesFitting awaits (tryStatement inner) := by
  refine .next fun _ => .bind inferInstance fun body hbody => .next fun caught => ?_
  extract_lets handled
  have (handler : Option CatchClause) [Fitting awaits handler] :
      GivesFitting awaits (handled handler) := by
    unfold handled
    infer_instance
  infer_instance

instance : GivesFitting awaits (caseBody inner) := by
  unfold caseBody
  infer_instance

instance (hasDefault : Bool) (fuel : Nat) :
    GivesFitting awaits (switchCases inner hasDefault fuel) := by
  -- Induction on the number of cases that may still come.
  induction fuel generalizing hasDefault with
  | zero => exact inferInstanceAs (GivesFitting awaits (fail _ : Parse (List SwitchCase)))
  | succ fuel ih =>
    unfold switchCases
    refine .next fun token => ?_
    split <;> infer_instance

instance : GivesFitting awaits (switchStatement inner) := by
  refine .next fun _ => .bind inferInstance fun discriminant _ => .next fun _ => ?_
  exact .within (fun _ => rfl) inferInstance

instance : GivesFitting awaits (withStatement inner) := by
  unfold withStatement
  infer_instance

instance : GivesFitting awaits (labeledStatement inner) := by
  refine .next fun label => .next fun _ => .next fun c => ?_
  extract_lets checked
  have : GivesFitting awaits (checked ()) := .next fun token => .within (fun _ => rfl) (by infer_instance)
  infer_instance

instance : GivesFitting awaits (expressionStatement inner) := by
  unfold expressionStatement
  infer_instance

instance : GivesFitting awaits (statement inner) := by
  refine .next fun token => ?_
  split
  · infer_instance
  · infer_instance
  · split <;> infer_instance
  · infer_instance

instance : GivesFitting awaits (item inner) :=
  .next fun token => by split <;> infer_instance

/-! ### Statements that declare no functions -/

omit hinner [inner.Plain]

instance (kind : DeclarationKind) : GivesPlain (declaration inner kind) := by
  unfold declaration
  infer_instance

instance : GivesPlain (ifStatement inner) := by
  unfold ifStatement
  infer_instance

instance : GivesPlain (whileStatement inner) := by
  unfold whileStatement
  infer_instance

instance : GivesPlain (doStatement inner) := by
  unfold doStatement
  infer_instance

instance (head : ForHead) : GivesPlain (forEach inner head) := by
  unfold forEach
  infer_instance

instance (init : Option ForInit) : GivesPlain (forParts inner init) := by
  unfold forParts
  infer_instance

instance (kind : DeclarationKind) : GivesPlain (forDeclaration inner kind) :=
  .next fun _ => .next fun declared => by dsimp only; split <;> infer_instance

instance : GivesPlain (forExpression inner) := by
  unfold forExpression
  infer_instance

instance : GivesPlain (forStatement inner) := by
  refine .next fun _ => .next fun awaiting => ?_
  extract_lets headed
  have : GivesPlain (headed ()) := .next fun _ => .next fun token => by
    split
    · infer_instance
    · split <;> infer_instance
  infer_instance

instance : GivesPlain (returnStatement inner) := by
  unfold returnStatement
  infer_instance

instance : GivesPlain breakStatement :=
  .next fun _ => .next fun label => .next fun c => by dsimp only; split <;> infer_instance

instance : GivesPlain continueStatement := by
  refine .next fun _ => .next fun c => ?_
  extract_lets checked
  have : GivesPlain (checked ()) := .next fun label => by
    dsimp only
    split
    · split <;> infer_instance
    · infer_instance
  infer_instance

instance : GivesPlain (throwStatement inner) := by
  unfold throwStatement
  infer_instance

instance : GivesPlain (tryStatement inner) := by
  unfold tryStatement
  infer_instance

instance : GivesPlain (switchStatement inner) := by
  unfold switchStatement
  infer_instance

instance : GivesPlain (withStatement inner) := by
  unfold withStatement
  infer_instance

instance : GivesPlain (labeledStatement inner) := by
  unfold labeledStatement
  infer_instance

instance : GivesPlain (expressionStatement inner) := by
  unfold expressionStatement
  infer_instance

instance : GivesPlain (statement inner) := by
  refine .next fun token => ?_
  split
  · infer_instance
  · infer_instance
  · split <;> infer_instance
  · infer_instance

end Grammar

/-- The readers of all phrases give fitting values, however deep they nest. -/
theorem Phrases.fitting_ofDepth (depth : Nat) :
    (∀ awaits, (Phrases.ofDepth depth).Fitting awaits) ∧ (Phrases.ofDepth depth).Plain := by
  -- Induction on the depth: readers of phrases read the phrases inside one level deeper.
  induction depth with
  | zero =>
    refine ⟨fun awaits => ?_, ⟨⟨fun h => nomatch h⟩⟩⟩
    constructor <;> (intros; exact ⟨fun _ _ _ _ h => nomatch h⟩)
  | succ depth ih =>
    obtain ⟨hfitting, hplain⟩ := ih
    refine ⟨fun awaits => ?_, ⟨⟨GivesPlain.plain (p := Grammar.statement (ofDepth depth))⟩⟩⟩
    exact {
      item := inferInstanceAs (GivesFitting awaits (Grammar.item (ofDepth depth)))
      statement := inferInstanceAs (GivesFitting awaits (Grammar.statement (ofDepth depth)))
      expression := inferInstanceAs (GivesFitting awaits (Grammar.expression (ofDepth depth)))
      assignment := inferInstanceAs (GivesFitting awaits (Grammar.assignment (ofDepth depth)))
      binary := fun level => inferInstanceAs (GivesFitting awaits (Grammar.binary (ofDepth depth) level))
      power := inferInstanceAs (GivesFitting awaits (Grammar.power (ofDepth depth)))
      unary := inferInstanceAs (GivesFitting awaits (Grammar.unary (ofDepth depth)))
      operand := inferInstanceAs (GivesFitting awaits (Grammar.operand (ofDepth depth)))
      construction := inferInstanceAs (GivesFitting awaits (Grammar.construction (ofDepth depth)))
      pattern := inferInstanceAs (GivesFitting awaits (Grammar.pattern (ofDepth depth))) }

/-- Whatever is read as a program, everything in it stands where the rule lets it. -/
theorem Program.fitting_of_ofText {options : ParseOptions} {source : String} {p : Program}
    (h : Program.ofText options source = .ok p) : Fitting options.topLevelAwait p.body := by
  rw [Program.ofText_eq] at h
  split at h
  · next hread =>
    cases h
    obtain ⟨hfitting, hplain⟩ := Phrases.fitting_ofDepth ((Cursor.ofText source).rest.length + 2)
    obtain ⟨_, s, -, hread⟩ := exists_of_bind_eq_ok hread
    obtain ⟨body, s', hbody, hpure⟩ := exists_of_bind_eq_ok hread
    cases hpure
    exact GivesFitting.fitting (by simp [Context.awaits]) hbody
  · cases h

/-! ## Where `await` stands -/

/-- **Where `await` stands.**  Whatever is read as a program, code in which `await` stands is
asynchronous.  At the top level it is when the options let `await` stand there. -/
theorem Program.asynchronous_of_holds_await {options : ParseOptions} {source : String} {p : Program}
    (h : Program.ofText options source = .ok p) {s : Statement} (hs : s ∈ p.body) {awaits : Bool}
    {e : Expression}
    (hholds : (Node.statement s).Holds options.topLevelAwait awaits (.expression (.await e))) :
    awaits = true := by
  have hfitting := Fitting.list_iff.mp (Program.fitting_of_ofText h) s hs
  exact Fitting.statement_iff.mp hfitting _ _ hholds

/-- A default value is code of the function whose parameter has it. -/
theorem Node.holds_default {f : FunctionNode} {target : Pattern} {value : Expression}
    (h : .withDefault target value ∈ f.params) (awaits : Bool) :
    (Node.statement (.function f)).Holds awaits f.isAsync (.expression value) := by
  refine .code (k := f.code) (.head _) (List.mem_append_left _ (List.mem_map_of_mem h)) ?_
  exact .part (t := ({} : Surroundings).expression value) (.tail _ (.head _)) rfl (.refl _ _)

/-- Whether a program is one function with one parameter, whose default value awaits. -/
def Program.isAwaitingFunction : Program → Bool
  | ⟨[.function ⟨_, [.withDefault (.identifier "a") (.await _)], _, _, _, _⟩]⟩ => true
  | _ => false

theorem Program.exists_of_isAwaitingFunction {p : Program} (h : p.isAwaitingFunction = true) :
    ∃ f e, p.body = [.function f] ∧ .withDefault (.identifier "a") (.await e) ∈ f.params := by
  unfold isAwaitingFunction at h
  split at h
  · exact ⟨_, _, rfl, .head _⟩
  · cases h

/-- Where `await` may not stand outside of functions, a function that holds one in a default value is
asynchronous. -/
theorem Program.asynchronous_of_await_in_default : ∃ p f e,
    Program.ofText { topLevelAwait := false } "async function f(a = await b) { }" = .ok p ∧
      p.body = [.function f] ∧ .withDefault (.identifier "a") (.await e) ∈ f.params ∧
      f.isAsync = true := by
  obtain ⟨p, hread, hp⟩ : ∃ p, Program.ofText { topLevelAwait := false }
      "async function f(a = await b) { }" = .ok p ∧ p.isAwaitingFunction = true :=
    exists_of_any (by decide +kernel)
  obtain ⟨f, e, hbody, hparam⟩ := Program.exists_of_isAwaitingFunction hp
  refine ⟨p, f, e, hread, hbody, hparam, ?_⟩
  exact Program.asynchronous_of_holds_await hread (hbody ▸ .head _) (Node.holds_default hparam _)

/-- Whether a program is one arrow function that is not asynchronous, with one parameter whose
default value awaits. -/
def Program.isArrowAwaitingBefore : Program → Bool
  | ⟨[.expression (.arrow ⟨_, [.withDefault (.identifier "a") (.await _)], _, _, false, _⟩)]⟩ => true
  | _ => false

theorem Program.exists_of_isArrowAwaitingBefore {p : Program}
    (h : p.isArrowAwaitingBefore = true) : ∃ f e, p.body = [.expression (.arrow f)] ∧
      .withDefault (.identifier "a") (.await e) ∈ f.params ∧ f.isAsync = false := by
  unfold isArrowAwaitingBefore at h
  split at h
  · exact ⟨_, _, rfl, .head _, rfl⟩
  · cases h

/-- The parameters of an arrow function that is not asynchronous may hold `await`, where one may
stand around the arrow function. -/
theorem Program.await_in_arrow_parameters : ∃ p f e,
    Program.ofText {} "(a = await b) => c" = .ok p ∧ p.body = [.expression (.arrow f)] ∧
      .withDefault (.identifier "a") (.await e) ∈ f.params ∧ f.isAsync = false := by
  obtain ⟨p, hread, hp⟩ : ∃ p, Program.ofText {} "(a = await b) => c" = .ok p ∧
      p.isArrowAwaitingBefore = true :=
    exists_of_any (by decide +kernel)
  obtain ⟨f, e, h⟩ := Program.exists_of_isArrowAwaitingBefore hp
  exact ⟨p, f, e, hread, h⟩

end EcmaEval
