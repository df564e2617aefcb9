import Mathlib.Data.Set.Insert
import EcmaEval.Grammar.Parse

/-!
# Pairs of readings

Two readings are compared while the same readers of phrases run on them.  They are in step while the
same token is at hand in both, up to how a template is written; then a reader gives the same value in
both, and leaves them in step.  The first reading may come to the end of its text where the second one
goes on.  From there on only the first one is followed: it stays at the end, or fails there.

The contexts of the two runs may differ in whether they are in a function, as far as no reader that
does not fail sees it.

## Main definitions

* `SyntaxCause.isPassing`: causes that more text may make up for
* `Token.Alike`: the same token, up to the text of a template as it is written
* `Token.Blind`: what does not depend on that text
* `Pairing`: which readings are in step
* `Pairing.endingTogether`, `Pairing.itself`: readings that end together, and each one with itself
* `Pairing.Alike`: which contexts may stand around phrases that are compared
* `Pairing.Outcome`: how readers end that were run on such readings

## Main results

* `Parse.outcome_bind`: the outcome of two readers in sequence
-/

namespace EcmaEval

/-! ## Causes -/

/-- Reading did not stop because its steps ran out. -/
@[reducible] def SyntaxCause.isProper : SyntaxCause → Bool
  | .exhausted => false
  | _ => true

/-- The condition holds by evaluation. -/
class Bool.Holds (b : Bool) : Prop where
  eq_true : b = true

instance : Bool.Holds true := ⟨rfl⟩

/-- Reading stops because of the text, and not because its steps ran out. -/
class SyntaxCause.Proper (cause : SyntaxCause) : Prop where
  ne_exhausted : cause ≠ .exhausted

instance {cause : SyntaxCause} [h : Bool.Holds cause.isProper] : cause.Proper := by
  refine ⟨fun heq => ?_⟩
  have htrue := h.eq_true
  rw [heq] at htrue
  cases htrue

/-- The cause does not tell that nothing makes up for it.  Nothing makes up for a jump that cannot be
where it stands, a label that stands there already, `let` as the name of a variable or the end of the
line behind `throw`. -/
@[reducible] def SyntaxCause.isPassing : SyntaxCause → Bool
  | .illegalBreak | .illegalContinue | .undefinedLabel _ | .notALoop _ | .repeatedLabel _
  | .letAsName | .lineEndAfterThrow => false
  | _ => true

/-- More text may make up for the cause. -/
class SyntaxCause.Passing (cause : SyntaxCause) : Prop where
  isPassing : cause.isPassing = true

instance {cause : SyntaxCause} [h : Bool.Holds cause.isPassing] : cause.Passing := ⟨h.eq_true⟩

/-! ## Tokens alike -/

namespace Token

/-- The tokens are the same, apart from the text of a template as it is written. -/
inductive Alike : Token → Token → Prop where
  | refl (token : Token) : Alike token token
  | template (part : TemplatePart) (cooked : Option String) (raw raw' : String) :
    Alike (.template part cooked raw) (.template part cooked raw')

theorem Alike.of_eq {token token' : Token} (h : token' = token) : Alike token token' :=
  h ▸ .refl token

theorem Alike.exists_eq_template {part : TemplatePart} {cooked : Option String} {raw : String}
    {token : Token} (h : Alike (.template part cooked raw) token) :
    ∃ raw', token = .template part cooked raw' := by
  cases h <;> exact ⟨_, rfl⟩

/-- What is made of a token does not depend on the text of a template as it is written. -/
class Blind {α : Type} (f : Token → α) : Prop where
  eq : ∀ {token token' : Token}, token.Alike token' → f token' = f token

namespace Blind

variable {α : Type} {f g : Token → α} {b b' : Token → Bool}

theorem of_template (h : ∀ part cooked raw raw',
    f (.template part cooked raw') = f (.template part cooked raw)) : Blind f := by
  refine ⟨fun halike => ?_⟩
  cases halike with
  | refl => rfl
  | template => exact h _ _ _ _

theorem comp {β : Type} (h : α → β) [hf : Blind f] : Blind fun token => h (f token) :=
  ⟨fun halike => congrArg h (hf.eq halike)⟩

instance const (x : α) : Blind fun _ => x := ⟨fun _ => rfl⟩

instance isEnd : Blind Token.isEnd := of_template fun _ _ _ _ => rfl

instance isMark (mark : Punctuator) : Blind (Token.isMark · mark) := of_template fun _ _ _ _ => rfl

instance isWord (word : Keyword) : Blind (Token.isWord · word) := of_template fun _ _ _ _ => rfl

instance name? (c : Context) : Blind c.name? := of_template fun _ _ _ _ => rfl

instance or [hb : Blind b] [hb' : Blind b'] : Blind fun token => b token || b' token :=
  ⟨fun h => by rw [hb.eq h, hb'.eq h]⟩

instance ite [hb : Blind b] [hf : Blind f] [hg : Blind g] :
    Blind fun token => if b token = true then f token else g token :=
  ⟨fun h => by simp only [hb.eq h, hf.eq h, hg.eq h]⟩

end Blind

end Token

/-! ## Pairings -/

/-- The error that a failure to read a token is reported as. -/
def LexError.syntaxError (e : LexError) (c : Cursor) : SyntaxError :=
  ⟨.lexical e.cause, c.toPosition, e.atEnd⟩

/-- How two scans end that are in step. -/
inductive Scan.Alike {α : Type} (excused : SyntaxError → Prop)
    (corresponds : SyntaxError → SyntaxError → Prop) (pairs : α → Cursor → α → Cursor → Prop) :
    Result α → Result α → Prop where
  | ok {x x' : α} {d d' : Cursor} (h : pairs x d x' d') :
    Alike excused corresponds pairs (.ok x d) (.ok x' d')
  | excused {e : LexError} {d : Cursor} {result : Result α} (h : excused (e.syntaxError d)) :
    Alike excused corresponds pairs (.error e d) result
  | failed {e e' : LexError} {d d' : Cursor}
    (h : corresponds (e.syntaxError d) (e'.syntaxError d')) :
    Alike excused corresponds pairs (.error e d) (.error e' d')

/-- A token of a special kind may be read from the token on: a regular expression, or the part of a
template behind a substitution. -/
def Token.opensSpecial : Token → Bool
  | .punctuator mark =>
    match mark with
    | .slash | .slashAssign | .rightBrace => true
    | _ => false
  | _ => false

/-- Which readings are in step, and what happens where the first one ends. -/
structure Pairing where
  /-- The readings are in step. -/
  Pairs : Reading → Reading → Prop
  /-- The tokens count as the same. -/
  Same : Token → Token → Prop
  /-- The first reading is at the end of its text, and the second one may not be. -/
  Ended : Reading → Prop
  /-- It will be when it passes the token at hand. -/
  Ending : Reading → Prop
  /-- Where the first reading fails so, the second one need not fail. -/
  Excused : SyntaxError → Prop
  /-- How the second reading fails where the first one does. -/
  Corresponds : SyntaxError → SyntaxError → Prop
  alike : ∀ {token token'}, Same token token' → token.Alike token'
  current_same : ∀ {r r'}, Pairs r r' → Same r.current r'.current
  afterLineEnd_eq : ∀ {r r'}, Pairs r r' → r'.afterLineEnd = r.afterLineEnd
  replaceCurrent : ∀ {r r' part cooked raw raw'}, Pairs r r' → r.current.isEnd = false →
    Same (.template part cooked raw) (.template part cooked raw') →
    Pairs { r with current := .template part cooked raw }
      { r' with current := .template part cooked raw' }
  corresponds : ∀ {r r'}, Pairs r r' → ∀ cause : SyntaxCause, cause ≠ .exhausted →
    Corresponds ⟨cause, r.cursor.toPosition, r.current.isEnd⟩
      ⟨cause, r'.cursor.toPosition, r.current.isEnd⟩
  unexpected : ∀ {r r'}, Pairs r r' →
    Corresponds ⟨.unexpected r.current, r.cursor.toPosition, r.current.isEnd⟩
      ⟨.unexpected r'.current, r'.cursor.toPosition, r.current.isEnd⟩
  current_of_ended : ∀ {r}, Ended r → r.current = .endOfInput
  excused : ∀ {r} {e : SyntaxError}, Ended r → e.incomplete = true → e.cause.isPassing = true →
    Excused e
  ending : ∀ {r}, Ending r → ∃ line d,
    Lexer.nextOnLine r.cursor false = .ok (.endOfInput, line) d ∧ Ended ⟨.endOfInput, line, d⟩
  /-- Where the first reading ends, all its errors are excused, or the second one goes on in another
  line. -/
  lineEnd : ∀ {r r'}, Pairs r r' → Ending r →
    (∀ e : SyntaxError, e.incomplete = true → Excused e) ∨
      (∀ e e', Corresponds e e') ∧
        (∀ {token line d}, Lexer.nextOnLine r.cursor false = .ok (token, line) d → line = true) ∧
        ∀ {token line d}, Lexer.nextOnLine r'.cursor false = .ok (token, line) d → line = true
  next : ∀ {r r'}, Pairs r r' → r.current.isEnd = false → Ending r ∨
    Scan.Alike Excused Corresponds
      (fun found d found' d' => Pairs ⟨found.1, found.2, d⟩ ⟨found'.1, found'.2, d'⟩)
      (Lexer.nextOnLine r.cursor false) (Lexer.nextOnLine r'.cursor false)
  special : ∀ {r r'} {read : Cursor → Scan.Result Token},
    read = Lexer.readRegExp ∨ read = Lexer.readTemplateContinuation → Pairs r r' →
    r.current.opensSpecial = true → Scan.Alike Excused Corresponds
      (fun token d token' d' =>
        Same token token' ∧ Pairs { r with cursor := d } { r' with cursor := d' })
      (read r.cursor) (read r'.cursor)

/-- Readings in step that no end of a text sets apart: the first one ends where the second one does. -/
def Pairing.endingTogether (Pairs : Reading → Reading → Prop) (Same : Token → Token → Prop)
    (Excused : SyntaxError → Prop) (Corresponds : SyntaxError → SyntaxError → Prop)
    (alike : ∀ {token token'}, Same token token' → token.Alike token')
    (current_same : ∀ {r r'}, Pairs r r' → Same r.current r'.current)
    (afterLineEnd_eq : ∀ {r r'}, Pairs r r' → r'.afterLineEnd = r.afterLineEnd)
    (replaceCurrent : ∀ {r r' part cooked raw raw'}, Pairs r r' →
      Same (.template part cooked raw) (.template part cooked raw') →
      Pairs { r with current := .template part cooked raw }
        { r' with current := .template part cooked raw' })
    (corresponds : ∀ {r r'}, Pairs r r' → ∀ cause : SyntaxCause, cause ≠ .exhausted →
      Corresponds ⟨cause, r.cursor.toPosition, r.current.isEnd⟩
        ⟨cause, r'.cursor.toPosition, r.current.isEnd⟩)
    (unexpected : ∀ {r r'}, Pairs r r' →
      Corresponds ⟨.unexpected r.current, r.cursor.toPosition, r.current.isEnd⟩
        ⟨.unexpected r'.current, r'.cursor.toPosition, r.current.isEnd⟩)
    (next : ∀ {r r'}, Pairs r r' → Scan.Alike Excused Corresponds
      (fun found d found' d' => Pairs ⟨found.1, found.2, d⟩ ⟨found'.1, found'.2, d'⟩)
      (Lexer.nextOnLine r.cursor false) (Lexer.nextOnLine r'.cursor false))
    (special : ∀ {r r'} {read : Cursor → Scan.Result Token},
      read = Lexer.readRegExp ∨ read = Lexer.readTemplateContinuation → Pairs r r' →
      r.current.opensSpecial = true → Scan.Alike Excused Corresponds
        (fun token d token' d' =>
          Same token token' ∧ Pairs { r with cursor := d } { r' with cursor := d' })
        (read r.cursor) (read r'.cursor)) : Pairing where
  Pairs := Pairs
  Same := Same
  Ended _ := False
  Ending _ := False
  Excused := Excused
  Corresponds := Corresponds
  alike := alike
  current_same := current_same
  afterLineEnd_eq := afterLineEnd_eq
  replaceCurrent h _ hsame := replaceCurrent h hsame
  corresponds := corresponds
  unexpected := unexpected
  current_of_ended h := h.elim
  excused h _ _ := h.elim
  ending h := h.elim
  lineEnd _ h := h.elim
  next h _ := .inr (next h)
  special := special

/-- Each reading is in step with itself.  No reading ends apart, no reader runs out of steps, and some
property of the reading goes on to hold whatever is read. -/
def Pairing.itself (Holds : Reading → Prop) (Excused : SyntaxError → Prop)
    (template : ∀ {r part cooked raw}, Holds r →
      Holds { r with current := .template part cooked raw })
    (next : ∀ {r token line d}, Holds r →
      Lexer.nextOnLine r.cursor false = .ok (token, line) d → Holds ⟨token, line, d⟩)
    (special : ∀ {r token d} {read : Cursor → Scan.Result Token}, Holds r →
      r.current.opensSpecial = true →
      read = Lexer.readRegExp ∨ read = Lexer.readTemplateContinuation →
      read r.cursor = .ok token d → Holds { r with cursor := d }) : Pairing :=
  .endingTogether (fun r r' => r' = r ∧ Holds r) (fun token token' => token' = token) Excused
    (fun e e' => e' = e ∧ e.cause ≠ .exhausted) .of_eq (fun h => congrArg Reading.current h.1)
    (fun h => congrArg Reading.afterLineEnd h.1)
    (by
      rintro r _ part cooked raw _ ⟨rfl, h⟩ hsame
      cases hsame
      exact ⟨rfl, template h⟩)
    (fun h _ hproper => ⟨by rw [h.1], hproper⟩)
    (fun h => ⟨by rw [h.1], nofun⟩)
    (by
      rintro _ r ⟨rfl, h⟩
      cases hnext : Lexer.nextOnLine r.cursor false with
      | ok found d => exact .ok ⟨rfl, next h hnext⟩
      | error e d => exact .failed ⟨rfl, nofun⟩)
    (by
      rintro _ r read hread ⟨rfl, h⟩ hspecial
      cases hresult : read r.cursor with
      | ok token d => exact .ok ⟨rfl, rfl, special h hspecial hread hresult⟩
      | error e d => exact .failed ⟨rfl, nofun⟩)

/-- What is left to read: the token at hand, unless it is the end, and the characters behind it. -/
def Reading.left (r : Reading) : Nat :=
  if r.current.isEnd then 0 else r.cursor.rest.length + 1

/-- Less is left behind a token. -/
theorem Reading.left_lt_of_nextOnLine {r : Reading} (hr : r.current.isEnd = false) {token : Token}
    {line : Bool} {d : Cursor} (h : Lexer.nextOnLine r.cursor false = .ok (token, line) d) :
    (⟨token, line, d⟩ : Reading).left < r.left := by
  have hright : r.left = r.cursor.rest.length + 1 := by
    unfold left
    rw [hr]
    rfl
  rw [hright]
  unfold left
  split
  · omega
  · next hend =>
    have := Lexer.length_nextOnLine_lt h (by simpa using hend)
    dsimp only
    omega

/-- The end of a text is no name. -/
theorem Token.isEnd_of_name? {c : Context} {token : Token} {name : String}
    (h : c.name? token = some name) : token.isEnd = false := by
  cases token with
  | endOfInput => cases h
  | _ => rfl

theorem Token.isEnd_of_isSome_name? {c : Context} {token : Token}
    (h : (c.name? token).isSome) : token.isEnd = false := by
  obtain ⟨name, hname⟩ := Option.isSome_iff_exists.mp h
  exact Token.isEnd_of_name? hname

namespace Pairing

variable {P : Pairing} {α β : Type}

/-- What is made of the tokens at hand is the same, if it does not depend on how a template is
written. -/
theorem eq_of_blind (P : Pairing) {r r' : Reading} (h : P.Pairs r r') (f : Token → α)
    [hf : Token.Blind f] : f r'.current = f r.current :=
  hf.eq (P.alike (P.current_same h))

/-- The contexts agree on what readings in step see of them, unless it is a failure of the first run
that is excused.  Inside of a body a return may stand in both or in none. -/
structure Alike (P : Pairing) (inside : Bool) (c c' : Context) : Prop where
  noIn : c'.noIn = c.noIn
  inGenerator : c'.inGenerator = c.inGenerator
  inLoop : c'.inLoop = c.inLoop
  inSwitch : c'.inSwitch = c.inSwitch
  labels : c'.labels = c.labels
  superProperty : c'.superProperty = c.superProperty
  superCall : c'.superCall = c.superCall
  awaits : ∀ {r r'}, P.Pairs r r' → r.current.isWord .awaitWord = true → c'.awaits = c.awaits
  target : c'.inFunction = c.inFunction ∨
    c.inFunction = false ∧ ∀ e : SyntaxError, e.cause = .misplacedTarget → P.Excused e
  returns : inside = true → (c'.inFunction || c'.options.returnOutsideFunction) =
    (c.inFunction || c.options.returnOutsideFunction)

namespace Alike

variable {inside : Bool} {c c' : Context}

theorem refl (P : Pairing) (inside : Bool) (c : Context) : P.Alike inside c c :=
  ⟨rfl, rfl, rfl, rfl, rfl, rfl, rfl, fun _ _ => rfl, .inl rfl, fun _ => rfl⟩

/-- The same tokens are names. -/
theorem name?_eq (h : P.Alike inside c c') {r r' : Reading} (hpairs : P.Pairs r r') :
    c'.name? r'.current = c.name? r.current := by
  rw [P.eq_of_blind hpairs c'.name?]
  cases htoken : r.current with
  | keyword word =>
    cases word with
    | yieldWord => simp only [Context.name?, h.inGenerator]
    | awaitWord => simp only [Context.name?, h.awaits hpairs (htoken ▸ rfl)]
    | _ => rfl
  | _ => rfl

/-- The same tokens are operators that await. -/
theorem awaits_eq (h : P.Alike inside c c') {r r' : Reading} (hpairs : P.Pairs r r') :
    (r.current.isWord .awaitWord && c'.awaits) = (r.current.isWord .awaitWord && c.awaits) := by
  cases hword : r.current.isWord .awaitWord with
  | false => rfl
  | true => rw [h.awaits hpairs hword]

end Alike

/-- The change of contexts leaves alike what was alike, and may enter a body. -/
class Respects (P : Pairing) (inside : Bool) (inside' : outParam Bool)
    (change : Context → Context) : Prop where
  alike : ∀ {c c'}, P.Alike inside c c' → P.Alike inside' (change c) (change c')

namespace Respects

variable {inside : Bool}

instance noIn (b : Bool) : P.Respects inside inside fun c => { c with noIn := b } :=
  ⟨fun h => ⟨rfl, h.inGenerator, h.inLoop, h.inSwitch, h.labels, h.superProperty, h.superCall,
    h.awaits, h.target, h.returns⟩⟩

instance inLoop (b : Bool) : P.Respects inside inside fun c => { c with inLoop := b } :=
  ⟨fun h => ⟨h.noIn, h.inGenerator, rfl, h.inSwitch, h.labels, h.superProperty, h.superCall,
    h.awaits, h.target, h.returns⟩⟩

instance inSwitch (b : Bool) : P.Respects inside inside fun c => { c with inSwitch := b } :=
  ⟨fun h => ⟨h.noIn, h.inGenerator, h.inLoop, rfl, h.labels, h.superProperty, h.superCall,
    h.awaits, h.target, h.returns⟩⟩

instance labels (label : String × Bool) :
    P.Respects inside inside fun c => { c with labels := label :: c.labels } :=
  ⟨fun h => ⟨h.noIn, h.inGenerator, h.inLoop, h.inSwitch, congrArg (label :: ·) h.labels, h.superProperty,
    h.superCall, h.awaits, h.target, h.returns⟩⟩

instance inBody (isAsync isGenerator : Bool) :
    P.Respects inside true fun c => c.inBody isAsync isGenerator :=
  ⟨fun h => ⟨h.noIn, rfl, rfl, rfl, rfl, h.superProperty, h.superCall, fun _ _ => rfl, .inl rfl,
    fun _ => rfl⟩⟩

instance inOwnBody (isAsync isGenerator superProperty superCall : Bool) :
    P.Respects inside true fun c => c.inOwnBody isAsync isGenerator superProperty superCall :=
  ⟨fun h => ⟨h.noIn, rfl, rfl, rfl, rfl, rfl, rfl, fun _ _ => rfl, .inl rfl, fun _ => rfl⟩⟩

end Respects

/-- How a reader ends at the end of the text: it is there still, or fails. -/
inductive Closing (P : Pairing) : Except SyntaxError (α × Reading) → Prop where
  | ok {x : α} {s : Reading} (h : P.Ended s) : Closing P (.ok (x, s))
  | error {e : SyntaxError} (h : P.Excused e) : Closing P (.error e)

/-- How two readers end on readings in step, of which the first one was `r`: with the same value and
in step, or both with an error, or the first one at the end of its text. -/
inductive Outcome (P : Pairing) (takes : Bool) (r : Reading) :
    Except SyntaxError (α × Reading) → Except SyntaxError (α × Reading) → Prop where
  | ok {x : α} {s s' : Reading} (hpairs : P.Pairs s s') (hle : s.left ≤ r.left)
    (htakes : takes = true → s.left < r.left) : Outcome P takes r (.ok (x, s)) (.ok (x, s'))
  | closing {result result' : Except SyntaxError (α × Reading)} (h : P.Closing result) :
    Outcome P takes r result result'
  | failed {e e' : SyntaxError} (h : P.Corresponds e e') : Outcome P takes r (.error e) (.error e')

theorem Outcome.weaken {takes : Bool} {r : Reading}
    {result result' : Except SyntaxError (α × Reading)} (h : P.Outcome true r result result') :
    P.Outcome takes r result result' := by
  cases h with
  | ok hpairs hle htakes => exact .ok hpairs hle fun _ => htakes rfl
  | closing h => exact .closing h
  | failed h => exact .failed h

theorem Outcome.of_le {takes : Bool} {r s : Reading}
    {result result' : Except SyntaxError (α × Reading)} (hle : s.left ≤ r.left)
    (h : P.Outcome takes s result result') : P.Outcome takes r result result' := by
  cases h with
  | ok hpairs hle' htakes =>
    exact .ok hpairs (hle'.trans hle) fun h => (htakes h).trans_le hle
  | closing h => exact .closing h
  | failed h => exact .failed h

/-- Behind a token that was taken. -/
theorem Outcome.of_lt {takes : Bool} {r s : Reading}
    {result result' : Except SyntaxError (α × Reading)} (hlt : s.left < r.left)
    (h : P.Outcome takes s result result') : P.Outcome true r result result' := by
  cases h with
  | ok hpairs hle _ => exact .ok hpairs (hle.trans hlt.le) fun _ => hle.trans_lt hlt
  | closing h => exact .closing h
  | failed h => exact .failed h

/-- Where the first reader fails and is not excused, the second one fails. -/
theorem Outcome.exists_error {takes : Bool} {r : Reading} {e : SyntaxError}
    {result result' : Except SyntaxError (α × Reading)} (h : P.Outcome takes r result result')
    (he : result = .error e) (hexcused : ¬P.Excused e) : ∃ e', result' = .error e' := by
  cases h with
  | ok => cases he
  | closing h =>
    cases h with
    | ok => cases he
    | error hexcused' =>
      cases he
      exact absurd hexcused' hexcused
  | failed => exact ⟨_, rfl⟩

end Pairing

namespace Parse

variable {P : Pairing} {α β : Type} {p q : Parse α} {f g : α → Parse β}
  {c c' : Context} {r r' : Reading}

theorem bind_apply (p : Parse α) (f : α → Parse β) (c : Context) (r : Reading) :
    (p >>= f) c r = match p c r with
      | .ok (x, s) => f x c s
      | .error e => .error e := by
  change (p c r >>= fun y => f y.1 c y.2) = _
  cases p c r <;> rfl

theorem exists_of_bind_eq_ok {y : β} (h : (p >>= f) c r = .ok (y, r')) :
    ∃ x s, p c r = .ok (x, s) ∧ f x c s = .ok (y, r') := by
  rw [bind_apply] at h
  cases hp : p c r with
  | ok found =>
    rw [hp] at h
    exact ⟨found.1, found.2, rfl, h⟩
  | error e =>
    rw [hp] at h
    cases h

theorem closing_bind (hp : P.Closing (p c r))
    (hf : ∀ x s, P.Ended s → P.Closing (f x c s)) : P.Closing ((p >>= f) c r) := by
  rw [bind_apply]
  generalize p c r = result at hp
  cases hp with
  | ok h => exact hf _ _ h
  | error h => exact .error h

theorem outcome_bind {takes takes' : Bool} (hp : P.Outcome takes r (p c r) (q c' r'))
    (hf : ∀ x s s', P.Pairs s s' → s.left ≤ r.left → (takes = true → s.left < r.left) →
      P.Outcome takes' s (f x c s) (g x c' s'))
    (hclosing : ∀ x s, P.Ended s → P.Closing (f x c s)) :
    P.Outcome (takes || takes') r ((p >>= f) c r) ((q >>= g) c' r') := by
  rw [bind_apply, bind_apply]
  generalize p c r = result at hp
  generalize q c' r' = result' at hp
  cases hp with
  | @ok x s s' hpairs hle htakes =>
    have hrest := hf x s s' hpairs hle htakes
    dsimp only
    generalize f x c s = result at hrest
    generalize g x c' s' = result' at hrest
    cases hrest with
    | ok hpairs' hle' htakes' =>
      refine .ok hpairs' (hle'.trans hle) fun h => ?_
      rcases Bool.or_eq_true_iff.mp h with h | h
      · exact hle'.trans_lt (htakes h)
      · exact (htakes' h).trans_le hle
    | closing h => exact .closing h
    | failed h => exact .failed h
  | closing h =>
    cases h with
    | ok h => exact .closing (hclosing _ _ h)
    | error h => exact .closing (.error h)
  | failed h => exact .failed h

end Parse

end EcmaEval
