import EcmaEval.Proofs.Syntax.Pairing

/-!
# Readers that keep in step

Two readers of a phrase keep in step if they give the same value on readings in step, and leave
these in step.  The judgement also counts: a reader that takes a token leaves less to read, and what
is left bounds the steps that phrases inside phrases may need.

A look ahead is where two readings may part.  The first one sees the end of its text and takes the
word at hand for a name, while the second one sees more.  Then only the first one is followed, past
that name.

## Main definitions

* `Parse.InStep`: two readers keep readings in step
* `Parse.RunsOut`: a reader comes to the end behind the name at hand

## Main results

* `Parse.InStep.bind`, `Parse.RunsOut.bind`: readers in sequence
* `Parse.InStep.untilToken_bind`, `Parse.InStep.loop`: phrases one behind the other
* `Parse.InStep.peek`: a look ahead
-/

namespace EcmaEval

namespace Parse

variable {P : Pairing} {α β : Type} {p q : Parse α} {f g : α → Parse β}
  {c c' : Context} {r r' : Reading}

/-! ## The judgement -/

/-- The steps that may be left when `n` are, or one more if no token was taken yet. -/
def bound (n : Nat) : (fresh : Bool) → Nat
  | true => n + 1
  | false => n

/-- The readers keep readings in step that have a token of a set at hand and less than a bound left
to read, and the first one closes at the end.  If they take something, less is left behind them. -/
class InStep (P : Pairing) (inside : Bool) (n : Nat) (fresh : Bool) (S : Set Token) (takes : Bool)
    (p q : Parse α) : Prop where
  outcome : ∀ {c c' r r'}, P.Alike inside c c' → P.Pairs r r' → r.left < bound n fresh →
    r.current ∈ S → P.Outcome takes r (p c r) (q c' r')
  closing : ∀ c {r}, P.Ended r → r.current ∈ S → P.Closing (p c r)

/-- Where the text ends behind the token at hand, which is a name and one of a set, the first reader
passes it.  The second one is there only to be named. -/
class RunsOut (P : Pairing) (inside : Bool) (n : Nat) (S : Set Token) (p q : Parse α) : Prop where
  closing : ∀ c {r}, P.Ending r → (c.name? r.current).isSome → r.current ∈ S → P.Closing (p c r)

/-- The end of the text is not among the tokens. -/
class Solid (S : Set Token) : Prop where
  isEnd : ∀ token ∈ S, token.isEnd = false

namespace Solid

theorem of_isEnd {token : Token} (h : token.isEnd = false) : Solid {token} :=
  ⟨fun _ hmem => hmem ▸ h⟩

theorem not_ended {S : Set Token} [h : Solid S] (hended : P.Ended r) (hr : r.current ∈ S) :
    False := by
  have hend := h.isEnd _ hr
  rw [P.current_of_ended hended] at hend
  cases hend

instance (mark : Punctuator) : Solid {.punctuator mark} := of_isEnd rfl

instance (word : Keyword) : Solid {.keyword word} := of_isEnd rfl

instance (name : String) : Solid {.identifier name} := of_isEnd rfl

instance (value : Float) : Solid {.numeric value} := of_isEnd rfl

instance (digits : String) : Solid {.bigint digits} := of_isEnd rfl

instance (value : String) : Solid {.string value} := of_isEnd rfl

instance (value : Bool) : Solid {.boolean value} := of_isEnd rfl

instance : Solid {.null} := of_isEnd rfl

instance (part : TemplatePart) (cooked : Option String) (raw : String) :
    Solid {.template part cooked raw} := of_isEnd rfl

end Solid

/-- Tokens of a special kind may be read from the tokens on. -/
class OpensSpecial (S : Set Token) : Prop where
  opensSpecial : ∀ token ∈ S, token.opensSpecial = true

namespace OpensSpecial

instance slash : OpensSpecial {.punctuator .slash} := ⟨fun _ hmem => hmem ▸ rfl⟩

instance slashAssign : OpensSpecial {.punctuator .slashAssign} := ⟨fun _ hmem => hmem ▸ rfl⟩

instance rightBrace : OpensSpecial {.punctuator .rightBrace} := ⟨fun _ hmem => hmem ▸ rfl⟩

instance (priority := low) solid {S : Set Token} [hS : OpensSpecial S] : Solid S := by
  refine ⟨fun token hmem => ?_⟩
  have hspecial := hS.opensSpecial token hmem
  cases token <;> first | rfl | cases hspecial

end OpensSpecial

/-- The tokens are names wherever they stand. -/
class Names (S : Set Token) : Prop where
  isSome_name? : ∀ c : Context, ∀ token ∈ S, (c.name? token).isSome

instance (name : String) : Names {.identifier name} := ⟨fun _ _ hmem => hmem ▸ rfl⟩

instance : Names {.keyword .asyncWord} := ⟨fun _ _ hmem => hmem ▸ rfl⟩

instance : Names {.keyword .staticWord} := ⟨fun _ _ hmem => hmem ▸ rfl⟩

namespace InStep

variable {inside : Bool} {n m : Nat} {fresh takes takes' : Bool} {S S' : Set Token}

/-! ### Weaker judgements -/

theorem mono (h : InStep P inside n fresh S takes p q) (hbound : bound m false ≤ bound n fresh) :
    InStep P inside m false S takes p q :=
  ⟨fun halike hpairs hlt hr => h.outcome halike hpairs (hlt.trans_le hbound) hr, h.closing⟩

instance (priority := low) consumed [h : InStep P inside n true S takes p q] :
    InStep P inside n false S takes p q :=
  h.mono (Nat.le_succ n)

/-- A bound of one more, before a token was taken. -/
theorem succ (h : InStep P inside n true S takes p q) : InStep P inside (n + 1) false S takes p q :=
  h.mono (Nat.le_refl _)

theorem subset (h : InStep P inside n fresh S takes p q) (hS : S' ⊆ S) : InStep P inside n fresh S' takes p q :=
  ⟨fun halike hpairs hlt hr => h.outcome halike hpairs hlt (hS hr), fun c _ hended hr =>
    h.closing c hended (hS hr)⟩

theorem weaken (h : InStep P inside n fresh S true p q) : InStep P inside n fresh S takes p q :=
  ⟨fun halike hpairs hlt hr => (h.outcome halike hpairs hlt hr).weaken, h.closing⟩

instance (priority := low) [h : InStep P inside n fresh S true p q] : InStep P inside n fresh S false p q :=
  h.weaken

/-! ### Sequences -/

theorem bind_of_le (hp : InStep P inside n fresh S takes p q) {fresh' : Bool}
    (hf : ∀ x, InStep P inside n fresh' .univ takes' (f x) (g x))
    (hbound : takes = true ∨ fresh' = fresh) :
    InStep P inside n fresh S (takes || takes') (p >>= f) (q >>= g) := by
  refine ⟨fun {c c' r r'} halike hpairs hlt hr => ?_, fun c r hended hr => ?_⟩
  · refine outcome_bind (hp.outcome halike hpairs hlt hr) (fun x s s' hpairs' hle htakes => ?_)
      fun x s hended => (hf x).closing c hended trivial
    refine (hf x).outcome halike hpairs' ?_ trivial
    rcases hbound with htakes' | rfl
    · have hless := htakes htakes'
      cases fresh <;> cases fresh' <;> simp only [bound] at hlt ⊢ <;> omega
    · exact hle.trans_lt hlt
  · exact closing_bind (hp.closing c hended hr) fun x s hended' => (hf x).closing c hended' trivial

/-- Behind a token that the first readers take. -/
instance (priority := high) bind_takes [hp : InStep P inside n fresh S true p q]
    [k : ∀ x, InStep P inside n false .univ false (f x) (g x)] :
    InStep P inside n fresh S takes (p >>= f) (q >>= g) :=
  (hp.bind_of_le k (.inl rfl)).weaken

instance bind [hp : InStep P inside n fresh S false p q]
    [k : ∀ x, InStep P inside n fresh .univ takes (f x) (g x)] :
    InStep P inside n fresh S takes (p >>= f) (q >>= g) := by
  have h := hp.bind_of_le k (.inr rfl)
  rwa [Bool.false_or] at h

instance pure (x : α) : InStep P inside n fresh S false (pure x) (pure x) :=
  ⟨fun _ hpairs _ _ => .ok hpairs (Nat.le_refl _) nofun, fun _ _ hended _ => .ok hended⟩

/-- A value that is only named. -/
instance (priority := high) value_bind (x : α) [h : InStep P inside n fresh S takes (f x) (g x)] :
    InStep P inside n fresh S takes (Pure.pure x >>= f) (Pure.pure x >>= g) := by
  rwa [pure_bind, pure_bind]

instance map {g : α → β} [hp : InStep P inside n fresh S takes p q] :
    InStep P inside n fresh S takes (g <$> p) (g <$> q) := by
  have h := hp.bind_of_le (fun x => InStep.pure (P := P) (n := n) (g x)) (.inr rfl)
  rwa [Bool.or_false] at h

/-! ### Failures -/

theorem closing_fail (cause : SyntaxCause) [hpassing : cause.Passing] (c : Context)
    (hended : P.Ended r) : P.Closing ((Parse.fail cause : Parse α) c r) := by
  refine .error (P.excused hended ?_ hpassing.isPassing)
  rw [P.current_of_ended hended]
  rfl

theorem closing_unexpected (c : Context) (hended : P.Ended r) :
    P.Closing ((Parse.unexpected : Parse α) c r) := by
  refine .error (P.excused hended ?_ rfl)
  rw [P.current_of_ended hended]
  rfl

instance fail (cause : SyntaxCause) [hproper : cause.Proper] [cause.Passing] :
    InStep P inside n fresh S takes (Parse.fail cause : Parse α) (Parse.fail cause) := by
  refine ⟨fun _ hpairs _ _ => .failed ?_, fun c _ hended _ => closing_fail cause c hended⟩
  rw [P.eq_of_blind hpairs Token.isEnd]
  exact P.corresponds hpairs cause hproper.ne_exhausted

instance unexpected :
    InStep P inside n fresh S takes (Parse.unexpected : Parse α) Parse.unexpected := by
  refine ⟨fun _ hpairs _ _ => .failed ?_, fun c _ hended _ => closing_unexpected c hended⟩
  rw [P.eq_of_blind hpairs Token.isEnd]
  exact P.unexpected hpairs

/-- Nothing runs behind a failure. -/
instance (priority := high) fail_bind (cause : SyntaxCause) [cause.Proper] [cause.Passing] :
    InStep P inside n fresh S takes (Parse.fail cause >>= f) (Parse.fail cause >>= g) :=
  ⟨fun halike hpairs hlt hr => (InStep.fail cause).outcome halike hpairs hlt hr,
    fun c _ hended _ => closing_fail cause c hended⟩

instance (priority := high) unexpected_bind :
    InStep P inside n fresh S takes (Parse.unexpected >>= f) (Parse.unexpected >>= g) :=
  ⟨fun halike hpairs hlt hr => InStep.unexpected.outcome halike hpairs hlt hr,
    fun c _ hended _ => closing_unexpected c hended⟩

/-- Where the first reader fails and is excused, the second one does not matter. -/
theorem of_excused (hp : ∀ c r, ∃ e, p c r = .error e ∧ P.Excused e) :
    InStep P inside n fresh S takes p q := by
  have hclosing (c : Context) (r : Reading) : P.Closing (p c r) := by
    obtain ⟨e, he, hexcused⟩ := hp c r
    exact he ▸ .error hexcused
  exact ⟨fun {c _ r _} _ _ _ _ => .closing (hclosing c r), fun c r _ _ => hclosing c r⟩

/-! ### Branches -/

section Branches

variable {p₁ p₂ q₁ q₂ : Parse α}

instance (priority := high) ite_true [h : InStep P inside n fresh S takes p₁ q₁] :
    InStep P inside n fresh S takes (if true = true then p₁ else p₂) (if true = true then q₁ else q₂) := by
  rwa [if_pos rfl, if_pos rfl]

instance (priority := high) ite_false [h : InStep P inside n fresh S takes p₂ q₂] :
    InStep P inside n fresh S takes (if false = true then p₁ else p₂)
      (if false = true then q₁ else q₂) := by
  rwa [if_neg Bool.false_ne_true, if_neg Bool.false_ne_true]

instance ite {b : Prop} [Decidable b] [InStep P inside n fresh S takes p₁ q₁]
    [InStep P inside n fresh S takes p₂ q₂] :
    InStep P inside n fresh S takes (if b then p₁ else p₂) (if b then q₁ else q₂) := by
  split <;> infer_instance

/-- Behind a test of the token. -/
instance (priority := high) ite_isMark {token : Token} {mark : Punctuator}
    [h₁ : InStep P inside n fresh {.punctuator mark} takes p₁ q₁]
    [h₂ : InStep P inside n fresh {token} takes p₂ q₂] :
    InStep P inside n fresh {token} takes (if token.isMark mark = true then p₁ else p₂)
      (if token.isMark mark = true then q₁ else q₂) := by
  split
  · next hmark => exact Token.eq_of_isMark hmark ▸ h₁
  · exact h₂

end Branches

/-! ### Looking at the token at hand -/

/-- The readers only look at what is the same in both readings, as far as the second one depends on
it. -/
theorem of_look_blind {look : Parse α} (see : Context → Reading → α)
    (hlook : ∀ c r, look c r = .ok (see c r, r))
    (hsame : ∀ {c c' r r'}, P.Alike inside c c' → P.Pairs r r' → g (see c' r') = g (see c r))
    (hf : ∀ c r, r.current ∈ S → InStep P inside n fresh {r.current} takes (f (see c r)) (g (see c r))) :
    InStep P inside n fresh S takes (look >>= f) (look >>= g) := by
  refine ⟨fun {c c' r r'} halike hpairs hlt hr => ?_, fun c r hended hr => ?_⟩
  · rw [bind_apply, bind_apply, hlook, hlook]
    dsimp only
    rw [hsame halike hpairs]
    exact (hf c r hr).outcome halike hpairs hlt rfl
  · rw [bind_apply, hlook]
    exact (hf c r hr).closing c hended rfl

theorem of_look {look : Parse α} (see : Context → Reading → α)
    (hlook : ∀ c r, look c r = .ok (see c r, r))
    (hsame : ∀ {c c' r r'}, P.Alike inside c c' → P.Pairs r r' → see c' r' = see c r)
    (hf : ∀ c r, r.current ∈ S → InStep P inside n fresh {r.current} takes (f (see c r)) (g (see c r))) :
    InStep P inside n fresh S takes (look >>= f) (look >>= g) :=
  of_look_blind see hlook (fun halike hpairs => congrArg g (hsame halike hpairs)) hf

/-- What is seen does not matter. -/
theorem of_look_any {look : Parse α} (see : Context → Reading → α)
    (hlook : ∀ c r, look c r = .ok (see c r, r))
    (hsame : ∀ {c c' r r'}, P.Alike inside c c' → P.Pairs r r' → see c' r' = see c r)
    (hf : ∀ x, InStep P inside n fresh S takes (f x) (g x)) :
    InStep P inside n fresh S takes (look >>= f) (look >>= g) :=
  of_look see hlook hsame fun _ _ hr => (hf _).subset (Set.singleton_subset_iff.mpr hr)

section Look

variable {f g : Token → Parse β}

/-- The token at hand, where it does not matter how a template is written. -/
instance current [k : ∀ token, InStep P inside n fresh {token} takes (f token) (g token)]
    [b : Token.Blind g] :
    InStep P inside n fresh S takes (Parse.current >>= f) (Parse.current >>= g) :=
  of_look_blind (fun _ r => r.current) (fun _ _ => rfl) (fun _ hpairs => P.eq_of_blind hpairs g)
    fun _ r _ => k r.current

end Look

section Look

variable {f g : Bool → Parse β}

instance afterLineEnd [k : ∀ line, InStep P inside n fresh S takes (f line) (g line)] :
    InStep P inside n fresh S takes (Parse.afterLineEnd >>= f) (Parse.afterLineEnd >>= g) :=
  of_look_any (fun _ r => r.afterLineEnd) (fun _ _ => rfl)
    (fun _ hpairs => P.afterLineEnd_eq hpairs) k

instance atMark (mark : Punctuator)
    [t : InStep P inside n fresh {.punctuator mark} takes (f true) (g true)]
    [k : InStep P inside n fresh S takes (f false) (g false)] :
    InStep P inside n fresh S takes (Parse.atMark mark >>= f) (Parse.atMark mark >>= g) := by
  refine of_look (fun _ r => r.current.isMark mark) (fun _ _ => rfl)
    (fun _ hpairs => P.eq_of_blind hpairs (Token.isMark · mark)) fun _ r hr => ?_
  cases hmark : r.current.isMark mark with
  | true => exact Token.eq_of_isMark hmark ▸ t
  | false => exact k.subset (Set.singleton_subset_iff.mpr hr)

instance atWord (word : Keyword)
    [t : InStep P inside n fresh {.keyword word} takes (f true) (g true)]
    [k : InStep P inside n fresh S takes (f false) (g false)] :
    InStep P inside n fresh S takes (Parse.atWord word >>= f) (Parse.atWord word >>= g) := by
  refine of_look (fun _ r => r.current.isWord word) (fun _ _ => rfl)
    (fun _ hpairs => P.eq_of_blind hpairs (Token.isWord · word)) fun _ r hr => ?_
  cases hword : r.current.isWord word with
  | true => exact Token.eq_of_isWord hword ▸ t
  | false => exact k.subset (Set.singleton_subset_iff.mpr hr)

end Look

/-- What stands behind may rely on what the contexts agree on. -/
theorem context {f g : Context → Parse β}
    (k : ∀ c c', P.Alike inside c c' → InStep P inside n fresh S takes (f c) (g c')) :
    InStep P inside n fresh S takes (Parse.context >>= f) (Parse.context >>= g) :=
  ⟨fun {c c' _ _} halike hpairs hlt hr => (k c c' halike).outcome halike hpairs hlt hr,
    fun c _ hended hr => (k c c (.refl P inside c)).closing c hended hr⟩

/-- So it may on whether the token at hand awaits. -/
theorem context_awaits {token : Token} {f g : Context → Parse β}
    (k : ∀ c c', P.Alike inside c c' →
      (token.isWord .awaitWord && c'.awaits) = (token.isWord .awaitWord && c.awaits) →
      InStep P inside n fresh {token} takes (f c) (g c')) :
    InStep P inside n fresh {token} takes (Parse.context >>= f) (Parse.context >>= g) := by
  refine ⟨fun {c c' r r'} halike hpairs hlt hr => ?_, fun c r hended hr => ?_⟩
  · have hawaits := halike.awaits_eq hpairs
    rw [Set.mem_singleton_iff.mp hr] at hawaits
    exact (k c c' halike hawaits).outcome halike hpairs hlt hr
  · exact (k c c (.refl P inside c) rfl).closing c hended hr

instance name? {f g : Option String → Parse β}
    [k : ∀ name, InStep P inside n fresh S takes (f name) (g name)] :
    InStep P inside n fresh S takes (Parse.name? >>= f) (Parse.name? >>= g) :=
  of_look_any (fun c r => c.name? r.current) (fun _ _ => rfl)
    (fun halike hpairs => halike.name?_eq hpairs) k

/-! ### Taking the token at hand -/

instance advance [hS : Solid S] : InStep P inside n fresh S true Parse.advance Parse.advance := by
  refine ⟨fun {_ _ r r'} _ hpairs hlt hr => ?_,
    fun c r hended hr => (hS.not_ended hended hr).elim⟩
  unfold Parse.advance
  rcases P.next hpairs (hS.isEnd _ hr) with hending | halike
  · obtain ⟨line, d, hnext, hended⟩ := P.ending hending
    rw [hnext]
    exact .closing (.ok hended)
  · have hless {found : Token × Bool} {d : Cursor}
        (h : Lexer.nextOnLine r.cursor false = .ok found d) :
        (⟨found.1, found.2, d⟩ : Reading).left < r.left :=
      Reading.left_lt_of_nextOnLine (hS.isEnd _ hr) h
    generalize Lexer.nextOnLine r.cursor false = result at halike hless
    generalize Lexer.nextOnLine r'.cursor false = result' at halike
    cases halike with
    | ok h => exact .ok h (hless rfl).le fun _ => hless rfl
    | excused h => exact .closing (.error h)
    | failed h => exact .failed h

instance expect (mark : Punctuator) :
    InStep P inside n fresh S true (Parse.expect mark) (Parse.expect mark) := by
  unfold Parse.expect
  infer_instance

instance expectWord (word : Keyword) :
    InStep P inside n fresh S true (Parse.expectWord word) (Parse.expectWord word) := by
  unfold Parse.expectWord
  infer_instance

theorem skipMark_bind (mark : Punctuator) (f : Bool → Parse β) :
    Parse.skipMark mark >>= f = Parse.atMark mark >>= fun b =>
      if b = true then Parse.advance >>= fun _ => f true else f false := by
  unfold Parse.skipMark
  rw [bind_assoc]
  congr 1
  funext b
  cases b <;> simp

theorem skipName_bind (f : Option String → Parse β) :
    Parse.skipName >>= f = Parse.name? >>= fun found =>
      match found with
      | some name => Parse.advance >>= fun _ => f (some name)
      | none => f none := by
  unfold Parse.skipName
  rw [bind_assoc]
  congr 1
  funext found
  cases found <;> simp

/-- A mark that is passed is taken. -/
instance skipMark (mark : Punctuator) {f g : Bool → Parse β}
    [t : InStep P inside n false .univ false (f true) (g true)]
    [k : InStep P inside n fresh S takes (f false) (g false)] :
    InStep P inside n fresh S takes (Parse.skipMark mark >>= f) (Parse.skipMark mark >>= g) := by
  rw [skipMark_bind, skipMark_bind]
  infer_instance

/-- Where a name was found, there is a token to take. -/
theorem name?_cases {f g : Option String → Parse β}
    (hsome : ∀ token name, token.isEnd = false →
      InStep P inside n fresh {token} takes (f (some name)) (g (some name)))
    (hnone : InStep P inside n fresh S takes (f none) (g none)) :
    InStep P inside n fresh S takes (Parse.name? >>= f) (Parse.name? >>= g) := by
  refine of_look (fun c r => c.name? r.current) (fun _ _ => rfl)
    (fun halike hpairs => halike.name?_eq hpairs) fun c r hr => ?_
  cases hname : c.name? r.current with
  | some name => exact hsome _ name (Token.isEnd_of_name? hname)
  | none => exact hnone.subset (Set.singleton_subset_iff.mpr hr)

/-- A name that is passed is taken. -/
instance skipName {f g : Option String → Parse β}
    [∀ name, InStep P inside n false .univ false (f (some name)) (g (some name))]
    [k : InStep P inside n fresh S takes (f none) (g none)] :
    InStep P inside n fresh S takes (Parse.skipName >>= f) (Parse.skipName >>= g) := by
  rw [skipName_bind, skipName_bind]
  refine name?_cases (fun token name htoken => ?_) k
  have := Solid.of_isEnd htoken
  infer_instance

instance expectName : InStep P inside n fresh S true Parse.expectName Parse.expectName := by
  unfold Parse.expectName
  refine name?_cases (fun token name htoken => ?_) inferInstance
  have := Solid.of_isEnd htoken
  infer_instance

instance endStatement : InStep P inside n fresh S false Parse.endStatement Parse.endStatement := by
  unfold Parse.endStatement
  infer_instance

instance separator (close : Punctuator) :
    InStep P inside n fresh S false (Parse.separator close) (Parse.separator close) := by
  unfold Parse.separator
  infer_instance

/-! ### Contexts -/

instance within (change : Context → Context) {inside' : Bool}
    [hc : P.Respects inside inside' change] [h : InStep P inside' n fresh S takes p q] :
    InStep P inside n fresh S takes (Parse.within change p) (Parse.within change q) :=
  ⟨fun halike => h.outcome (hc.alike halike), fun c => h.closing (change c)⟩

instance withIn [h : InStep P inside n fresh S takes p q] :
    InStep P inside n fresh S takes (Parse.withIn p) (Parse.withIn q) :=
  within fun c => { c with noIn := false }

/-! ### Tokens of a special kind -/

theorem special {read : Cursor → Scan.Result Token}
    (hread : read = Lexer.readRegExp ∨ read = Lexer.readTemplateContinuation)
    (hlength : ∀ c, (read c).cursor.rest.length ≤ c.rest.length) [hS : OpensSpecial S]
    {f g : Token → Parse β} (hf : ∀ token token', P.Same token token' →
      InStep P inside n fresh S takes (f token) (g token')) :
    InStep P inside n fresh S takes (Parse.special read >>= f) (Parse.special read >>= g) := by
  refine ⟨fun {c c' r r'} hcontexts hpairs hlt hr => ?_,
    fun c r hended hr => (OpensSpecial.solid.not_ended hended hr).elim⟩
  have hend := OpensSpecial.solid.isEnd _ hr
  have halike := P.special hread hpairs (hS.opensSpecial _ hr)
  have hleft : (⟨r.current, r.afterLineEnd, (read r.cursor).cursor⟩ : Reading).left ≤ r.left := by
    have := hlength r.cursor
    unfold Reading.left
    rw [hend]
    simpa using this
  rw [bind_apply, bind_apply]
  unfold Parse.special
  generalize read r.cursor = result at halike hleft
  generalize read r'.cursor = result' at halike
  cases halike with
  | ok h => exact .of_le hleft ((hf _ _ h.1).outcome hcontexts h.2 (hleft.trans_lt hlt) hr)
  | excused h => exact .closing (.error h)
  | failed h => exact .failed h

section Special

variable {f g : Token → Parse β} [hS : OpensSpecial S]

instance readRegExp [k : ∀ token, InStep P inside n fresh S takes (f token) (g token)]
    [b : Token.Blind g] : InStep P inside n fresh S takes (Parse.special Lexer.readRegExp >>= f)
      (Parse.special Lexer.readRegExp >>= g) := by
  refine special (.inl rfl) (fun c => ?_) fun token token' hsame => b.eq (P.alike hsame) ▸ k token
  have hpattern := Lexer.length_readPattern_le c "" false
  unfold Lexer.readRegExp
  generalize Lexer.readPattern c "" false = result at hpattern
  cases result with
  | ok pattern d => exact (d.length_skipWhile_le isIdentifierPart).trans hpattern
  | error e d => exact hpattern

theorem readTemplateContinuation (k : ∀ token token', P.Same token token' →
      InStep P inside n fresh S takes (f token) (g token')) :
    InStep P inside n fresh S takes (Parse.special Lexer.readTemplateContinuation >>= f)
      (Parse.special Lexer.readTemplateContinuation >>= g) :=
  special (.inr rfl) (fun c => Lexer.length_readTemplatePart_le c _ _) k

end Special

/-- A token of a special kind in the place of the one at hand. -/
theorem replaceCurrent {part : TemplatePart} {cooked : Option String} {raw raw' : String}
    (hsame : P.Same (.template part cooked raw) (.template part cooked raw'))
    {f g : Unit → Parse β} [hS : Solid S]
    (k : InStep P inside n fresh {.template part cooked raw} takes (f ()) (g ())) :
    InStep P inside n fresh S takes (Parse.replaceCurrent (.template part cooked raw) >>= f)
      (Parse.replaceCurrent (.template part cooked raw') >>= g) := by
  refine ⟨fun {c c' r r'} halike hpairs hlt hr => ?_,
    fun c r hended hr => (hS.not_ended hended hr).elim⟩
  have hend := hS.isEnd _ hr
  have hleft : ({ r with current := .template part cooked raw } : Reading).left = r.left := by
    unfold Reading.left
    rw [hend]
    rfl
  have hrest := k.outcome halike (P.replaceCurrent hpairs hend hsame) (hleft ▸ hlt) rfl
  exact .of_le hleft.le hrest

/-! ### Loops -/

/-- Where nothing may be left, only the end is followed. -/
theorem of_closing (h : ∀ c {r}, P.Ended r → r.current ∈ S → P.Closing (p c r)) :
    InStep P inside 0 false S takes p q :=
  ⟨fun _ _ hlt _ => absurd hlt (Nat.not_lt_zero _), h⟩

/-- The second reader does not matter there. -/
theorem of_zero {q' : Parse α} (h : InStep P inside 0 false S takes p q) :
    InStep P inside 0 false S takes p q' :=
  of_closing h.closing

/-- Where nothing is left, the text is at its end. -/
theorem of_solid [hS : Solid S] : InStep P inside 0 true S takes p q := by
  refine ⟨fun _ _ hlt hr => ?_, fun c r hended hr => (hS.not_ended hended hr).elim⟩
  unfold Reading.left at hlt
  rw [hS.isEnd _ hr] at hlt
  exact absurd hlt (by simp [bound])

/-- A loop whose steps take something.  Each step may rely on what follows it if less is left. -/
theorem loop {σ : Type} (steps steps' : Nat → σ → Parse α)
    (hzero : ∀ x, steps 0 x = Parse.fail .exhausted)
    (hstep : ∀ k fuel fuel', k ≤ n →
      (∀ x, InStep P inside k false .univ takes (steps fuel x) (steps' fuel' x)) →
      ∀ x, InStep P inside k true .univ takes (steps (fuel + 1) x) (steps' (fuel' + 1) x))
    {fuel fuel' : Nat} (hfuel : n ≤ fuel) (hfuel' : n ≤ fuel') (x : σ) :
    InStep P inside n false S takes (steps fuel x) (steps' fuel' x) := by
  suffices h : ∀ k ≤ n, k ≤ fuel → k ≤ fuel' →
      ∀ x, InStep P inside k false .univ takes (steps fuel x) (steps' fuel' x) from
    (h n (Nat.le_refl n) hfuel hfuel' x).subset (Set.subset_univ S)
  clear hfuel hfuel' x
  -- Induction on the steps that are left to the first reader.
  induction fuel generalizing fuel' with
  | zero =>
    intro k _ hk _ x
    obtain rfl := Nat.le_zero.mp hk
    rw [hzero]
    exact of_closing fun c _ hended _ => closing_fail .exhausted c hended
  | succ fuel ih =>
    intro k hkn hk hk' x
    match k, fuel' with
    | 0, fuel' =>
      have hbody := hstep 0 fuel 0 hkn (ih 0 hkn (Nat.zero_le _) (Nat.zero_le _)) x
      exact of_closing hbody.closing
    | k + 1, fuel' + 1 =>
      have hkn' : k ≤ n := (Nat.le_succ k).trans hkn
      exact (hstep k fuel fuel' hkn' (ih k hkn' (Nat.le_of_succ_le_succ hk)
        (Nat.le_of_succ_le_succ hk')) x).succ

theorem untilToken_succ_bind (closes : Token → Bool) (phrase : Parse α) (fuel : Nat)
    (f : List α → Parse β) :
    untilToken closes phrase (fuel + 1) >>= f = Parse.current >>= fun token =>
      if closes token = true then f []
      else phrase >>= fun first => untilToken closes phrase fuel >>= fun others =>
        f (first :: others) := by
  rw [untilToken, bind_assoc]
  congr 1
  funext token
  split <;> simp

/-- Phrases up to a token that ends them, and what follows from that token on. -/
theorem untilToken_bind {closes : Token → Bool} [hcloses : Token.Blind closes] {fuel fuel' : Nat}
    (hp : InStep P inside n false .univ true p q) {f g : List α → Parse β}
    (hf : ∀ xs, InStep P inside n false {token | closes token = true} takes (f xs) (g xs))
    (hfuel : n ≤ fuel) (hfuel' : n ≤ fuel') :
    InStep P inside n false S takes (untilToken closes p fuel >>= f)
      (untilToken closes q fuel' >>= g) := by
  -- Induction on the steps that are left to the first reader; each phrase takes something.
  induction fuel generalizing n fuel' S takes f g with
  | zero =>
    obtain rfl := Nat.le_zero.mp hfuel
    exact of_closing fun c _ hended _ => closing_fail .exhausted c hended
  | succ fuel ih =>
    have hclosing (c : Context) {r : Reading} (hended : P.Ended r) :
        P.Closing ((untilToken closes p (fuel + 1) >>= f) c r) := by
      rw [untilToken_succ_bind, bind_apply]
      dsimp only [Parse.current]
      split
      · next hclose => exact (hf []).closing c hended hclose
      · refine closing_bind (hp.closing c hended trivial) fun x s hended' => ?_
        have hrest := ih (n := 0) (S := .univ) (hp.mono (Nat.zero_le n))
          (fun xs => (hf (x :: xs)).mono (Nat.zero_le n)) (Nat.zero_le _) (Nat.zero_le 0)
        exact hrest.closing c hended' trivial
    rcases n with _ | n
    · exact of_closing fun c _ hended _ => hclosing c hended
    · obtain ⟨fuel', rfl⟩ := Nat.exists_eq_succ_of_ne_zero (Nat.ne_zero_of_lt hfuel')
      refine ⟨fun {c c' r r'} halike hpairs hlt _ => ?_, fun c _ hended _ => hclosing c hended⟩
      rw [untilToken_succ_bind, untilToken_succ_bind, bind_apply, bind_apply]
      dsimp only [Parse.current]
      rw [P.eq_of_blind hpairs closes]
      split
      · next hclose => exact (hf []).outcome halike hpairs hlt hclose
      · have hrest (x : α) : InStep P inside n false .univ takes
            (untilToken closes p fuel >>= fun xs => f (x :: xs))
            (untilToken closes q fuel' >>= fun xs => g (x :: xs)) :=
          ih (hp.mono (Nat.le_succ n)) (fun xs => (hf (x :: xs)).mono (Nat.le_succ n))
            (Nat.le_of_succ_le_succ hfuel) (Nat.le_of_succ_le_succ hfuel')
        refine (outcome_bind (hp.outcome halike hpairs hlt trivial)
          (fun x s s' hpairs' hle htakes =>
            (hrest x).outcome halike hpairs' ((htakes rfl).trans_le (Nat.le_of_lt_succ hlt)) trivial)
          fun x s hended => (hrest x).closing c hended trivial).weaken

theorem untilToken {closes : Token → Bool} [Token.Blind closes] {fuel fuel' : Nat}
    (hp : InStep P inside n false .univ true p q) (hfuel : n ≤ fuel) (hfuel' : n ≤ fuel') :
    InStep P inside n false S false (Parse.untilToken closes p fuel)
      (Parse.untilToken closes q fuel') := by
  have h : InStep P inside n false S false (Parse.untilToken closes p fuel >>= Pure.pure)
      (Parse.untilToken closes q fuel' >>= Pure.pure) :=
    untilToken_bind hp (fun xs => InStep.pure xs) hfuel hfuel'
  rwa [bind_pure, bind_pure] at h

/-- Phrases up to a mark, which is passed. -/
theorem untilMark {mark : Punctuator} {fuel fuel' : Nat} (hp : InStep P inside n false .univ true p q)
    (hfuel : n ≤ fuel) (hfuel' : n ≤ fuel') :
    InStep P inside n false S true (Parse.untilMark mark p fuel) (Parse.untilMark mark q fuel') := by
  refine untilToken_bind hp (fun xs => ?_) hfuel hfuel'
  have : Solid {token : Token | token.isMark mark = true} :=
    ⟨fun _ hmem => Token.eq_of_isMark hmem ▸ rfl⟩
  infer_instance

/-! ### Looking ahead -/

/-- Where the first reading sees its end ahead, only that reading is followed. -/
theorem outcome_peek_bind {f g : Token × Bool → Parse β}
    [b : ∀ line, Token.Blind fun token => g (token, line)] (hpairs : P.Pairs r r')
    (hr : r.current.isEnd = false) (hf : ∀ found, P.Outcome takes r (f found c r) (g found c' r'))
    (hend : P.Ending r → ∀ line, P.Closing (f (.endOfInput, line) c r)) :
    P.Outcome takes r ((Parse.peek >>= f) c r) ((Parse.peek >>= g) c' r') := by
  rw [bind_apply, bind_apply]
  unfold Parse.peek
  rcases P.next hpairs hr with hending | halike
  · obtain ⟨line, d, hnext, -⟩ := P.ending hending
    rw [hnext]
    exact .closing (hend hending line)
  · generalize Lexer.nextOnLine r.cursor false = result at halike
    generalize Lexer.nextOnLine r'.cursor false = result' at halike
    cases halike with
    | @ok found found' d d' hnext =>
      have hline : found'.2 = found.2 := P.afterLineEnd_eq hnext
      have hfound := (b found.2).eq (P.alike (P.current_same hnext))
      dsimp only at hfound ⊢
      rw [← hline] at hfound
      exact hfound ▸ hline ▸ hf found
    | excused h => exact .closing (.error h)
    | failed h => exact .failed h

/-- Behind a name. -/
instance peek [hS : Names S] {f g : Token × Bool → Parse β}
    [b : ∀ line, Token.Blind fun token => g (token, line)]
    [k : ∀ found, InStep P inside n fresh S takes (f found) (g found)]
    [e : ∀ line, RunsOut P inside n S (f (.endOfInput, line)) (g (.endOfInput, line))] :
    InStep P inside n fresh S takes (Parse.peek >>= f) (Parse.peek >>= g) := by
  refine ⟨fun {c c' r r'} halike hpairs hlt hr => ?_, fun c r hended hr => ?_⟩
  · have hname := hS.isSome_name? c _ hr
    exact outcome_peek_bind hpairs (Token.isEnd_of_isSome_name? hname)
      (fun found => (k found).outcome halike hpairs hlt hr)
      fun hending line => (e line).closing c hending hname hr
  · have hname := hS.isSome_name? c _ hr
    rw [P.current_of_ended hended] at hname
    cases hname

end InStep

namespace RunsOut

variable {inside : Bool} {n : Nat} {S S' : Set Token}

theorem subset (h : RunsOut P inside n S p q) (hS : S' ⊆ S) : RunsOut P inside n S' p q :=
  ⟨fun c _ hending hname hr => h.closing c hending hname (hS hr)⟩

/-- The token is never a name. -/
theorem of_name? {token : Token} (h : ∀ c : Context, c.name? token = none) :
    RunsOut P inside n {token} p q := by
  refine ⟨fun c r _ hname hr => ?_⟩
  obtain rfl := hr
  rw [h c] at hname
  cases hname

instance bind [hp : RunsOut P inside n S p q] [k : ∀ x, InStep P inside n false .univ false (f x) (g x)] :
    RunsOut P inside n S (p >>= f) (q >>= g) :=
  ⟨fun c _ hending hname hr => closing_bind (hp.closing c hending hname hr) fun x _ hended =>
    (k x).closing c hended trivial⟩

instance (priority := high) value_bind (x : α) [h : RunsOut P inside n S (f x) (g x)] :
    RunsOut P inside n S (Pure.pure x >>= f) (Pure.pure x >>= g) := by
  rwa [pure_bind, pure_bind]

instance advance : RunsOut P inside n S Parse.advance Parse.advance := by
  refine ⟨fun c r hending _ _ => ?_⟩
  obtain ⟨line, d, hnext, hended⟩ := P.ending hending
  unfold Parse.advance
  rw [hnext]
  exact .ok hended

/-! ### Branches -/

section Branches

variable {p₁ p₂ q₁ q₂ : Parse α}

instance (priority := high) ite_true [h : RunsOut P inside n S p₁ q₁] :
    RunsOut P inside n S (if true = true then p₁ else p₂) (if true = true then q₁ else q₂) := by
  rwa [if_pos rfl, if_pos rfl]

instance (priority := high) ite_false [h : RunsOut P inside n S p₂ q₂] :
    RunsOut P inside n S (if false = true then p₁ else p₂) (if false = true then q₁ else q₂) := by
  rwa [if_neg Bool.false_ne_true, if_neg Bool.false_ne_true]

instance ite {b : Prop} [Decidable b] [RunsOut P inside n S p₁ q₁] [RunsOut P inside n S p₂ q₂] :
    RunsOut P inside n S (if b then p₁ else p₂) (if b then q₁ else q₂) := by
  split <;> infer_instance

end Branches

/-! ### Looking -/

theorem of_look {look : Parse α} (see : Context → Reading → α)
    (hlook : ∀ c {r}, P.Ending r → look c r = .ok (see c r, r))
    (hf : ∀ c r, (c.name? r.current).isSome → r.current ∈ S →
      RunsOut P inside n {r.current} (f (see c r)) (g (see c r))) :
    RunsOut P inside n S (look >>= f) (look >>= g) := by
  refine ⟨fun c r hending hname hr => ?_⟩
  rw [bind_apply, hlook c hending]
  exact (hf c r hname hr).closing c hending hname rfl

instance current {f g : Token → Parse β} [k : ∀ token, RunsOut P inside n {token} (f token) (g token)] :
    RunsOut P inside n S (Parse.current >>= f) (Parse.current >>= g) :=
  of_look (fun _ r => r.current) (fun _ _ _ => rfl) fun _ r _ _ => k r.current

instance context {f g : Context → Parse β} [k : ∀ d, RunsOut P inside n S (f d) (g d)] :
    RunsOut P inside n S (Parse.context >>= f) (Parse.context >>= g) :=
  of_look (fun c _ => c) (fun _ _ _ => rfl) fun _ _ _ hr =>
    (k _).subset (Set.singleton_subset_iff.mpr hr)

instance name? {f g : Option String → Parse β} [k : ∀ name, RunsOut P inside n S (f name) (g name)] :
    RunsOut P inside n S (Parse.name? >>= f) (Parse.name? >>= g) :=
  of_look (fun c r => c.name? r.current) (fun _ _ _ => rfl) fun _ _ _ hr =>
    (k _).subset (Set.singleton_subset_iff.mpr hr)

section Look

variable {f g : Bool → Parse β}

instance atMark (mark : Punctuator) [k : RunsOut P inside n S (f false) (g false)] :
    RunsOut P inside n S (Parse.atMark mark >>= f) (Parse.atMark mark >>= g) := by
  refine of_look (fun _ r => r.current.isMark mark) (fun _ _ _ => rfl) fun c r hname hr => ?_
  cases hmark : r.current.isMark mark with
  | true => cases (Token.eq_of_isMark hmark ▸ hname : (c.name? (.punctuator mark)).isSome)
  | false => exact k.subset (Set.singleton_subset_iff.mpr hr)

instance atWord (word : Keyword) [t : RunsOut P inside n {.keyword word} (f true) (g true)]
    [k : RunsOut P inside n S (f false) (g false)] :
    RunsOut P inside n S (Parse.atWord word >>= f) (Parse.atWord word >>= g) := by
  refine of_look (fun _ r => r.current.isWord word) (fun _ _ _ => rfl) fun c r hname hr => ?_
  cases hword : r.current.isWord word with
  | true => exact Token.eq_of_isWord hword ▸ t
  | false => exact k.subset (Set.singleton_subset_iff.mpr hr)

instance skipMark (mark : Punctuator) [RunsOut P inside n S (f false) (g false)] :
    RunsOut P inside n S (Parse.skipMark mark >>= f) (Parse.skipMark mark >>= g) := by
  rw [InStep.skipMark_bind, InStep.skipMark_bind]
  infer_instance

end Look

/-- The end is ahead. -/
instance peek {f g : Token × Bool → Parse β}
    [k : ∀ line, RunsOut P inside n S (f (.endOfInput, line)) (g (.endOfInput, line))] :
    RunsOut P inside n S (Parse.peek >>= f) (Parse.peek >>= g) := by
  refine ⟨fun c r hending hname hr => ?_⟩
  obtain ⟨line, d, hnext, -⟩ := P.ending hending
  rw [bind_apply]
  unfold Parse.peek
  rw [hnext]
  exact (k line).closing c hending hname hr

instance expectName : RunsOut P inside n S Parse.expectName Parse.expectName := by
  refine ⟨fun c r hending hname hr => ?_⟩
  obtain ⟨name, hname'⟩ := Option.isSome_iff_exists.mp hname
  unfold Parse.expectName Parse.name?
  rw [bind_apply]
  dsimp only
  rw [hname']
  exact (inferInstance : RunsOut P inside n S (Parse.advance >>= fun _ => pure name)
    (Parse.advance >>= fun _ => pure name)).closing c hending hname hr

end RunsOut

end Parse

end EcmaEval
