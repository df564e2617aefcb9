import EcmaEval.Proofs.Syntax.Numeral
import EcmaEval.Grammar.Statement

/-!
# What readers of phrases give

A reader of a phrase is judged by the values that it gives where it succeeds.  Every token that it
leaves at hand was read from a text, and this is the only thing about the text that the values
depend on.  The rules follow the shape of the readers: what a sequence of steps gives comes from
what each step gives.

The context of a phrase records what surrounds its tree.  A tree is admitted in a context when it
obeys the rule of readable trees everywhere in these surroundings.  What a reader of a phrase has to
give is a tree that its context admits, provided that the readers of the phrases inside do so.

## Main definitions

* `Parse.GivesAt`: what a reader gives from one place
* `Parse.Gives`: what a reader gives from all places
* `Parse.Passes`: a step of which only the reading matters
* `Context.surroundings`: what surrounds the tree of a phrase
* `Context.Admits`: the tree obeys the rule of readable trees
* `Phrases.Sound`: the readers of all phrases give admitted trees

## Main results

* `Parse.GivesAt.bind`, `Parse.Gives.bind`: what two steps give
* `Parse.Gives.untilToken`: what a list of phrases gives
* `Context.Admits.toPattern`: an expression taken as a pattern stays admitted
-/

namespace EcmaEval

/-- The token at hand is one that can be read from a text. -/
def Reading.Lexed (r : Reading) : Prop := r.current.Lexed

namespace Parse

variable {α β : Type} {p q : Parse α} {f : α → Parse β} {c : Context} {r : Reading}
  {P : α → Reading → Prop} {Q : β → Reading → Prop}

/-- Where the reader succeeds from `r`, the value and the place that it reaches have a property. -/
def GivesAt (p : Parse α) (c : Context) (r : Reading) (P : α → Reading → Prop) : Prop :=
  r.Lexed → ∀ x r', p c r = .ok (x, r') → r'.Lexed ∧ P x r'

/-- Where the reader succeeds, its value has a property. -/
def Gives (p : Parse α) (c : Context) (P : α → Prop) : Prop :=
  ∀ r, p.GivesAt c r fun x _ => P x

/-! ## Sequences of steps -/

namespace GivesAt

theorem mono {P' : α → Reading → Prop} (h : p.GivesAt c r P) (hP : ∀ x r', P x r' → P' x r') :
    p.GivesAt c r P' := by
  intro hr x r' hp
  obtain ⟨hr', hx⟩ := h hr x r' hp
  exact ⟨hr', hP x r' hx⟩

theorem pure {x : α} (h : P x r) : GivesAt (pure x : Parse α) c r P := by
  intro hr y r' hp
  cases hp
  exact ⟨hr, h⟩

theorem bind (hp : p.GivesAt c r P) (hf : ∀ x r', P x r' → (f x).GivesAt c r' Q) :
    (p >>= f).GivesAt c r Q := by
  intro hr y r' h
  -- The second reader starts at the place that the first one has reached.
  change (p c r >>= fun (x, r') => f x c r') = _ at h
  cases hpr : p c r with
  | error e =>
    rw [hpr] at h
    cases h
  | ok result =>
    obtain ⟨x, s⟩ := result
    rw [hpr] at h
    obtain ⟨hs, hx⟩ := hp hr x s hpr
    exact hf x s hx hs y r' h

theorem fail {cause : SyntaxCause} : GivesAt (fail cause : Parse α) c r P :=
  fun _ _ _ h => nomatch h

theorem unexpected : GivesAt (unexpected : Parse α) c r P :=
  fun _ _ _ h => nomatch h

theorem within {change : Context → Context} (h : p.GivesAt (change c) r P) :
    (within change p).GivesAt c r P := h

/-- What would follow a failure does not matter. -/
theorem fail_bind {cause : SyntaxCause} :
    GivesAt ((Parse.fail cause : Parse α) >>= f) c r Q :=
  fun _ _ _ h => nomatch h

theorem unexpected_bind : GivesAt ((Parse.unexpected : Parse α) >>= f) c r Q :=
  fun _ _ _ h => nomatch h

end GivesAt

namespace Gives

variable {P P' : α → Prop} {Q : β → Prop}

theorem mono (h : p.Gives c P) (hP : ∀ x, P x → P' x) : p.Gives c P' :=
  fun r => (h r).mono fun x _ => hP x

theorem pure {x : α} (h : P x) : Gives (pure x : Parse α) c P :=
  fun _ => .pure h

theorem bind (hp : p.Gives c P) (hf : ∀ x, P x → (f x).Gives c Q) : (p >>= f).Gives c Q :=
  fun r => (hp r).bind fun x r' hx => hf x hx r'

theorem map {g : α → β} (hp : p.Gives c P) (hg : ∀ x, P x → Q (g x)) : (g <$> p).Gives c Q :=
  hp.bind fun x hx => .pure (hg x hx)

/-- Behind a part that is missing. -/
theorem none_bind {f : Option α → Parse β}
    (hf : ∀ x : Option α, (∀ y ∈ x, P y) → (f x).Gives c Q) :
    Gives ((Pure.pure none : Parse (Option α)) >>= f) c Q :=
  .bind (.pure fun _ hy => absurd hy (Option.not_mem_none _)) hf

/-- Behind a part that might have been missing. -/
theorem some_bind {f : Option α → Parse β} (hp : p.Gives c P)
    (hf : ∀ x : Option α, (∀ y ∈ x, P y) → (f x).Gives c Q) : ((some <$> p) >>= f).Gives c Q :=
  (hp.map fun _ hx _ hy => Option.some.inj hy ▸ hx).bind hf

theorem fail {cause : SyntaxCause} : Gives (fail cause : Parse α) c P :=
  fun _ => .fail

theorem unexpected : Gives (unexpected : Parse α) c P :=
  fun _ => .unexpected

theorem fail_bind {cause : SyntaxCause} : Gives ((Parse.fail cause : Parse α) >>= f) c Q :=
  fun _ => .fail_bind

theorem unexpected_bind : Gives ((Parse.unexpected : Parse α) >>= f) c Q :=
  fun _ => .unexpected_bind

/-- Between brackets the operator `in` may stand, which no value depends on. -/
theorem withIn (h : p.Gives { c with noIn := false } P) : (withIn p).Gives c P := h

theorem within {change : Context → Context} (h : p.Gives (change c) P) :
    (within change p).Gives c P := h

end Gives

/-! ## Steps of which only the reading matters -/

/-- A step after which the token at hand is one that can be read from a text.  Its value is not
looked at. -/
class Passes (p : Parse α) : Prop where
  gives : ∀ c, p.Gives c fun _ => True

theorem GivesAt.next [h : Passes p] (hf : ∀ x r', (f x).GivesAt c r' Q) :
    (p >>= f).GivesAt c r Q :=
  (h.gives c r).bind fun x r' _ => hf x r'

theorem Gives.next [h : Passes p] {Q : β → Prop} (hf : ∀ x, (f x).Gives c Q) :
    (p >>= f).Gives c Q :=
  (h.gives c).bind fun x _ => hf x

namespace Passes

instance (x : α) : Passes (pure x : Parse α) := ⟨fun _ => .pure trivial⟩

instance [Passes p] [∀ x, Passes (f x)] : Passes (p >>= f) :=
  ⟨fun c => .next fun x => Passes.gives c (p := f x)⟩

instance {g : α → β} [h : Passes p] : Passes (g <$> p) :=
  ⟨fun c => (h.gives c).map fun _ _ => trivial⟩

instance {b : Prop} [Decidable b] [Passes p] [Passes q] : Passes (if b then p else q) := by
  split <;> infer_instance

instance : Passes (unexpected : Parse α) := ⟨fun _ => .unexpected⟩

end Passes

/-- A step that only looks at the place that reading has reached. -/
theorem givesAt_of_look {x : α} (h : p c r = .ok (x, r)) :
    p.GivesAt c r fun y r' => y = x ∧ r' = r := by
  intro hr y r' hp
  rw [h] at hp
  cases hp
  exact ⟨hr, rfl, rfl⟩

theorem givesAt_current : current.GivesAt c r fun token r' => token = r.current ∧ r' = r :=
  givesAt_of_look rfl

theorem givesAt_atMark (mark : Punctuator) :
    (atMark mark).GivesAt c r fun b r' => b = r.current.isMark mark ∧ r' = r :=
  givesAt_of_look rfl

theorem givesAt_atWord (word : Keyword) :
    (atWord word).GivesAt c r fun b r' => b = r.current.isWord word ∧ r' = r :=
  givesAt_of_look rfl

theorem givesAt_context : context.GivesAt c r fun d r' => d = c ∧ r' = r :=
  givesAt_of_look rfl

theorem gives_current : current.Gives c Token.Lexed := by
  intro r hr token r' h
  cases h
  exact ⟨hr, hr⟩

theorem gives_context : context.Gives c (· = c) :=
  fun _ => givesAt_context.mono fun _ _ h => h.1

instance : Passes current := ⟨fun _ => gives_current.mono fun _ _ => trivial⟩

instance : Passes context := ⟨fun _ => gives_context.mono fun _ _ => trivial⟩

instance : Passes afterLineEnd := ⟨fun _ _ => (givesAt_of_look rfl).mono fun _ _ _ => trivial⟩

instance : Passes name? := ⟨fun _ _ => (givesAt_of_look rfl).mono fun _ _ _ => trivial⟩

instance (mark : Punctuator) : Passes (atMark mark) :=
  ⟨fun _ _ => (givesAt_atMark mark).mono fun _ _ _ => trivial⟩

instance (word : Keyword) : Passes (atWord word) :=
  ⟨fun _ _ => (givesAt_atWord word).mono fun _ _ _ => trivial⟩

instance : Passes peek := by
  refine ⟨fun c r hr x r' h => ?_⟩
  unfold peek at h
  split at h <;> cases h
  exact ⟨hr, trivial⟩

instance : Passes advance := by
  refine ⟨fun c r _ x r' h => ?_⟩
  unfold advance at h
  split at h
  · next hread =>
    cases h
    exact ⟨Lexer.lexed_of_nextOnLine hread, trivial⟩
  · cases h

/-- A token of a special kind. -/
theorem gives_special {read : Cursor → Scan.Result Token} {P : Token → Prop}
    (h : ∀ d token e, read d = .ok token e → P token) : (special read).Gives c P := by
  intro r hr token r' hspecial
  unfold special at hspecial
  split at hspecial
  · next hread =>
    cases hspecial
    exact ⟨hr, h _ _ _ hread⟩
  · cases hspecial

theorem gives_replaceCurrent {token : Token} (h : token.Lexed) :
    (replaceCurrent token).Gives c fun _ => True := by
  intro r _ x r' hread
  cases hread
  exact ⟨h, trivial⟩

instance (mark : Punctuator) : Passes (expect mark) := by
  unfold expect
  infer_instance

instance (word : Keyword) : Passes (expectWord word) := by
  unfold expectWord
  infer_instance

instance (mark : Punctuator) : Passes (skipMark mark) := by
  unfold skipMark
  infer_instance

/-- A mark that does not stand here is not passed. -/
theorem givesAt_skipMark (mark : Punctuator) :
    (skipMark mark).GivesAt c r fun b r' =>
      if b then r.current.isMark mark = true else r.current.isMark mark = false ∧ r' = r := by
  refine (givesAt_atMark mark).bind fun b r' hb => ?_
  obtain ⟨rfl, rfl⟩ := hb
  cases hmark : r'.current.isMark mark
  · exact .pure (by simp)
  · exact .next fun _ _ => .pure (by simp)

instance : Passes expectName := by
  refine ⟨fun c => .next fun name => ?_⟩
  cases name
  · exact .unexpected
  · exact .next fun _ => .pure trivial

instance : Passes skipName := by
  refine ⟨fun c => .next fun name => ?_⟩
  cases name
  · exact .pure trivial
  · exact .next fun _ => .pure trivial

instance : Passes endStatement := by
  unfold endStatement
  infer_instance

instance (close : Punctuator) : Passes (separator close) := by
  unfold separator
  infer_instance

/-! ## Lists of phrases -/

theorem Gives.untilToken {P : α → Prop} {closes : Token → Bool} (h : p.Gives c P) (fuel : Nat) :
    (untilToken closes p fuel).Gives c fun xs => ∀ x ∈ xs, P x := by
  -- Induction on the number of phrases that may still come.
  induction fuel with
  | zero => exact .fail
  | succ fuel ih =>
    refine .next fun token => ?_
    split
    · exact .pure (fun x hx => nomatch hx)
    · exact h.bind fun x hx => ih.bind fun xs hxs => .pure (List.forall_mem_cons.mpr ⟨hx, hxs⟩)

theorem Gives.untilMark {P : α → Prop} {close : Punctuator} (h : p.Gives c P) (fuel : Nat) :
    (untilMark close p fuel).Gives c fun xs => ∀ x ∈ xs, P x :=
  (h.untilToken fuel).bind fun _ hxs => .next fun _ => .pure hxs

end Parse

end EcmaEval

/-! # Trees that a context admits -/

namespace EcmaEval

/-- The node is no statement, so that none stands right inside it. -/
class Node.NoStatement (n : Node) : Prop where
  listed : ∀ c : Surroundings, Site.Listed ⟨c, n⟩

namespace Node

instance (e : Expression) : (expression e).NoStatement := ⟨fun _ => trivial⟩

instance (p : Pattern) : (pattern p).NoStatement := ⟨fun _ => trivial⟩

instance (k : ClassNode) : («class» k).NoStatement := ⟨fun _ => trivial⟩

end Node

namespace Context

/-- What surrounds the tree of a phrase. -/
def surroundings (c : Context) : Surroundings where
  mayReturn := c.inFunction || c.options.returnOutsideFunction
  inLoop := c.inLoop
  inSwitch := c.inSwitch
  labels := c.labels
  superProperty := c.superProperty
  superCall := c.superCall

/-- The tree obeys the rule of readable trees everywhere. -/
abbrev Admits (c : Context) (n : Node) : Prop :=
  Site.Every Site.Read ⟨c.surroundings, n⟩

/-- The element of a list, with or without a spread, obeys the rule of readable trees. -/
abbrev AdmitsElement (c : Context) (e : Expression) : Prop :=
  (c.surroundings.element e).Every Site.Read

variable {c : Context}

namespace Admits

/-- A node that is no statement. -/
theorem intro {n : Node} [n.NoStatement] (hrule : Site.Readable ⟨c.surroundings, n⟩)
    (hparts : Site.All Site.Read (Site.parts ⟨c.surroundings, n⟩)) : c.Admits n :=
  Site.every_iff.mpr ⟨⟨hrule, Node.NoStatement.listed _⟩, hparts⟩

/-- A statement, which may hold others. -/
theorem statement {s : Statement} (hrule : Site.Readable ⟨c.surroundings, .statement s⟩)
    (hparts : Site.All Site.Read (Site.parts ⟨c.surroundings, .statement s⟩))
    (hinner : ∀ t ∈ s.inner, t.declared = []) : c.Admits (.statement s) :=
  Site.every_iff.mpr ⟨⟨hrule, hinner⟩, hparts⟩

/-- A statement with no other right inside it. -/
theorem leaf {s : Statement} (hrule : Site.Readable ⟨c.surroundings, .statement s⟩)
    (hparts : Site.All Site.Read (Site.parts ⟨c.surroundings, .statement s⟩))
    (hinner : s.inner = []) : c.Admits (.statement s) := by
  refine .statement hrule hparts ?_
  rw [hinner]
  exact List.forall_mem_nil _

theorem parts {n : Node} (h : c.Admits n) :
    Site.All Site.Read (Site.parts ⟨c.surroundings, n⟩) :=
  Site.Every.parts h

/-- An admitted expression is no spread. -/
theorem element {e : Expression} (h : c.Admits (.expression e)) : c.AdmitsElement e := by
  cases e
  case spread => exact absurd h.here.1.2 id
  all_goals exact h

/-- The word alone is not admitted, only the forms around it are. -/
theorem ne_super {e : Expression} (h : c.Admits (.expression e)) : e ≠ .super := by
  rintro rfl
  exact h.here.1.1

theorem base {e : Expression} (h : c.Admits (.expression e)) :
    Site.All Site.Read (c.surroundings.base e) := by
  cases e
  case super => exact Site.all_nil
  all_goals exact Site.all_singleton.mpr h

theorem member {e : Expression} (h : c.Admits (.expression e)) {key : MemberKey}
    (hkey : Site.All Site.Read (c.surroundings.memberKey key)) :
    c.Admits (.expression (.member e key)) := by
  have hsuper := h.ne_super
  refine .intro ⟨?_, trivial⟩ (Site.all_append.mpr ⟨h.base, hkey⟩)
  cases e <;> trivial

theorem call {e : Expression} (h : c.Admits (.expression e)) {args : List Expression}
    (hargs : ∀ e ∈ args, c.AdmitsElement e) : c.Admits (.expression (.call e args)) := by
  have hsuper := h.ne_super
  refine .intro ⟨?_, trivial⟩ (Site.all_append.mpr ⟨h.base, Site.all_map.mpr hargs⟩)
  cases e <;> trivial

theorem new {e : Expression} (h : c.Admits (.expression e)) {args : List Expression}
    (hargs : ∀ e ∈ args, c.AdmitsElement e) : c.Admits (.expression (.new e args)) := by
  have hsuper := h.ne_super
  refine .intro ⟨?_, trivial⟩ (Site.all_append.mpr ⟨h.base, Site.all_map.mpr hargs⟩)
  cases e <;> trivial

theorem identifier (name : String) : c.Admits (.expression (.identifier name)) :=
  .intro ⟨trivial, trivial⟩ Site.all_nil

theorem identifierPattern (name : String) : c.Admits (.pattern (.identifier name)) :=
  .intro ⟨trivial, trivial⟩ Site.all_nil

theorem withDefault {target : Pattern} {value : Expression} (ht : c.Admits (.pattern target))
    (hv : c.Admits (.expression value)) : c.Admits (.pattern (.withDefault target value)) :=
  .intro ⟨trivial, trivial⟩ (by simpa [Site.parts, Site.patternParts] using ⟨ht, hv⟩)

theorem rest {target : Pattern} (ht : c.Admits (.pattern target)) :
    c.Admits (.pattern (.rest target)) :=
  .intro ⟨trivial, trivial⟩ (by simpa [Site.parts, Site.patternParts] using ht)

theorem arrayPattern {elements : List (Option Pattern)}
    (h : ∀ element ∈ elements, ∀ p ∈ element, c.Admits (.pattern p)) :
    c.Admits (.pattern (.array elements)) := by
  refine .intro ⟨trivial, trivial⟩ (Site.all_map.mpr fun p hp => ?_)
  obtain ⟨element, helement, rfl⟩ := List.mem_filterMap.mp hp
  exact h _ helement p rfl

theorem objectPattern {members : List PatternMember}
    (h : ∀ m ∈ members, Site.All Site.Read (c.surroundings.patternMember m)) :
    c.Admits (.pattern (.object members)) :=
  .intro ⟨trivial, trivial⟩ (Site.all_flatMap.mpr h)

end Admits

/-! ## Expressions taken as patterns -/

mutual

/-- The pattern that is written like an admitted expression is admitted. -/
theorem AdmitsElement.toPattern {e : Expression} {p : Pattern} (h : c.AdmitsElement e)
    (hp : e.toPattern? = some p) : c.Admits (.pattern p) := by
  cases e
  case identifier name =>
    cases hp
    exact .identifierPattern name
  -- An assignment is a target with a default.
  case assign op target value =>
    cases op
    case plain =>
      obtain ⟨p', hp', rfl⟩ : ∃ p', target.toPattern? = some p' ∧ .withDefault p' value = p := by
        simpa [Expression.toPattern?, Option.bind_eq_some_iff] using hp
      obtain ⟨htarget, hvalue, _⟩ : c.Admits (.expression target) ∧ c.Admits (.expression value) ∧
          Site.All Site.Read [] := by
        simpa [Site.parts, Site.expressionParts] using Admits.parts h
      exact .withDefault (htarget.element.toPattern hp') hvalue
    all_goals cases hp
  -- A spread is what takes the rest.
  case spread target =>
    obtain ⟨p', hp', rfl⟩ : ∃ p', target.toPattern? = some p' ∧ .rest p' = p := by
      simpa [Expression.toPattern?, Option.bind_eq_some_iff] using hp
    have htarget : c.Admits (.expression target) := h
    exact .rest (htarget.element.toPattern hp')
  case array elements =>
    obtain ⟨ps, hps, rfl⟩ : ∃ ps, elementPatterns? elements = some ps ∧ .array ps = p := by
      simpa [Expression.toPattern?, Option.bind_eq_some_iff] using hp
    refine .arrayPattern (elementPatterns (fun element helement e he => ?_) hps)
    obtain rfl : element = some e := he
    exact Site.all_map.mp h.parts e (List.mem_filterMap.mpr ⟨_, helement, rfl⟩)
  case object members =>
    obtain ⟨ps, hps, rfl⟩ : ∃ ps, memberPatterns? members = some ps ∧ .object ps = p := by
      simpa [Expression.toPattern?, Option.bind_eq_some_iff] using hp
    exact .objectPattern (memberPatterns (Site.all_flatMap.mp h.parts) hps)
  all_goals cases hp

theorem elementPatterns {elements : List (Option Expression)} {ps : List (Option Pattern)}
    (h : ∀ element ∈ elements, ∀ e ∈ element, c.AdmitsElement e)
    (hps : elementPatterns? elements = some ps) :
    ∀ element ∈ ps, ∀ p ∈ element, c.Admits (.pattern p) := by
  match elements with
  | [] =>
    cases hps
    exact fun _ h => nomatch h
  | none :: elements =>
    obtain ⟨ps', hps', rfl⟩ : ∃ ps', elementPatterns? elements = some ps' ∧ none :: ps' = ps := by
      simpa [elementPatterns?, Option.bind_eq_some_iff] using hps
    refine List.forall_mem_cons.mpr ⟨fun _ h => (nomatch h), ?_⟩
    exact elementPatterns (fun element hmem => h element (.tail _ hmem)) hps'
  | some e :: elements =>
    obtain ⟨p, hp, ps', hps', rfl⟩ : ∃ p, e.toPattern? = some p ∧
        ∃ ps', elementPatterns? elements = some ps' ∧ some p :: ps' = ps := by
      simpa [elementPatterns?, Option.bind_eq_some_iff] using hps
    refine List.forall_mem_cons.mpr ⟨fun p' hp' => ?_, ?_⟩
    · obtain rfl : p = p' := by simpa using hp'
      exact (h _ (.head _) e rfl).toPattern hp
    · exact elementPatterns (fun element hmem => h element (.tail _ hmem)) hps'

theorem memberPatterns {members : List ObjectMember} {ps : List PatternMember}
    (h : ∀ m ∈ members, Site.All Site.Read (c.surroundings.objectMember m))
    (hps : memberPatterns? members = some ps) :
    ∀ m ∈ ps, Site.All Site.Read (c.surroundings.patternMember m) := by
  match members with
  | [] =>
    cases hps
    exact fun _ h => nomatch h
  | ⟨kind, key, value, shorthand⟩ :: members =>
    cases kind
    -- Only plain members are patterns; spreads and methods are not.
    case value =>
      obtain ⟨p, hp, ps', hps', rfl⟩ : ∃ p, value.toPattern? = some p ∧
          ∃ ps', memberPatterns? members = some ps' ∧ ⟨key, p⟩ :: ps' = ps := by
        simpa [memberPatterns?, Option.bind_eq_some_iff] using hps
      obtain ⟨hkey, hvalue⟩ := Site.all_append.mp (h _ (.head _))
      have hvalue : c.Admits (.expression value) := (Site.all_cons.mp hvalue).1
      refine List.forall_mem_cons.mpr ⟨?_, ?_⟩
      · exact Site.all_append.mpr ⟨hkey, Site.all_singleton.mpr (hvalue.element.toPattern hp)⟩
      · exact memberPatterns (fun m hm => h m (.tail _ hm)) hps'
    all_goals cases hps

end

end Context

/-- The readers of the phrases in other phrases give admitted trees.  A statement is a loop when the
token that begins it says so, and declares nothing in the frame around it, unlike an item of a
list. -/
structure Phrases.Sound (inner : Phrases) : Prop where
  item (c : Context) : inner.item.Gives c fun s => c.Admits (.statement s)
  statement (c : Context) (r : Reading) : inner.statement.GivesAt c r fun s _ =>
    c.Admits (.statement s) ∧ s.isLoop = Grammar.beginsLoop r.current ∧ s.declared = []
  expression (c : Context) : inner.expression.Gives c fun e => c.Admits (.expression e)
  assignment (c : Context) : inner.assignment.Gives c fun e => c.Admits (.expression e)
  binary (c : Context) (level : Nat) : (inner.binary level).Gives c fun e =>
    c.Admits (.expression e)
  power (c : Context) : inner.power.Gives c fun e => c.Admits (.expression e)
  unary (c : Context) : inner.unary.Gives c fun e => c.Admits (.expression e)
  operand (c : Context) : inner.operand.Gives c fun e => c.Admits (.expression e)
  construction (c : Context) : inner.construction.Gives c fun e => c.Admits (.expression e)
  pattern (c : Context) : inner.pattern.Gives c fun p => c.Admits (.pattern p)

/-- What is read as a part of a statement declares nothing in the frame around it. -/
theorem Phrases.Sound.gives_statement {inner : Phrases} (h : inner.Sound) (c : Context) :
    inner.statement.Gives c fun s => c.Admits (.statement s) ∧ s.declared = [] :=
  fun r => (h.statement c r).mono fun _ _ hs => ⟨hs.1, hs.2.2⟩

end EcmaEval
