import EcmaEval.Proofs.Syntax.InStepExpression
import EcmaEval.Proofs.Syntax.Steps
import EcmaEval.Proofs.Syntax.Stops

/-!
# Statements in step

The readers of statements keep in step when the readers of the phrases inside do, so that phrases of
any depth do.

## Main results

* `Grammar.inStep_item`: statements and declarations keep in step
* `Phrases.inStep_ofDepth`: readers of phrases that are deep enough keep in step
* `Grammar.outcome_program`: programs are read in step
-/

namespace EcmaEval

namespace Grammar

open Parse

set_option synthInstance.maxSize 1000

variable {P : Pairing} {n : Nat} {fresh : Bool} {S : Set Token} {inner inner' : Phrases}
  [hinner : Phrases.InStep P n inner inner']

/-! ### Declarations -/

/-- What `declarator` does behind its target. -/
def declared (inner : Phrases) (kind : DeclarationKind) (target : Pattern) : Parse Declarator := do
  if ← skipMark .assign then return ⟨target, some (← inner.assignment)⟩
  let looped := (← context).noIn && isLoopWord (← current)
  if (kind = .constant || !target.isIdentifier) && !looped then fail .missingInitializer
  return ⟨target, none⟩

instance inStep_declared (kind : DeclarationKind) (target : Pattern) :
    InStep P true n true S false (declared inner kind target) (declared inner' kind target) := by
  unfold declared
  refine InStep.skipMark _ (k := InStep.ite_false (h := InStep.context fun c c' halike => ?_))
  rw [halike.noIn]
  refine InStep.current (b := .of_template fun _ _ _ _ => rfl) (k := fun token => ?_)
  infer_instance

theorem pattern_bind {β : Type} (f : Pattern → Parse β) :
    pattern inner >>= f = name? >>= fun found =>
      match found with
      | some name => advance >>= fun _ => f (.identifier name)
      | none => skipMark .leftBracket >>= fun bracket =>
        if bracket = true then
          untilMark .rightBracket (patternElement inner) inner.fuel >>= fun ps => f (.array ps)
        else skipMark .leftBrace >>= fun brace =>
          if brace = true then
            untilMark .rightBrace (patternMember inner) inner.fuel >>= fun ps => f (.object ps)
          else unexpected >>= f := by
  unfold pattern
  rw [bind_assoc, InStep.skipName_bind]
  congr 1
  funext found
  cases found with
  | some name => rfl
  | none =>
    dsimp only
    rw [bind_assoc]
    congr 1
    funext bracket
    cases bracket with
    | true => simp
    | false =>
      rw [if_neg Bool.false_ne_true, if_neg Bool.false_ne_true, bind_assoc]
      congr 1
      funext brace
      cases brace <;> simp

instance inStep_declarator (kind : DeclarationKind) :
    InStep P true n true S true (declarator inner kind) (declarator inner' kind) := by
  have hdeclared (target : Pattern) : InStep P true n false .univ false
    (declared inner kind target) (declared inner' kind target) := inferInstance
  unfold declared at hdeclared
  unfold declarator
  rw [pattern_bind, pattern_bind]
  refine InStep.name?_cases (fun token name htoken => ?_) inferInstance
  -- Behind the name it is seen whether it may be one.
  have := Solid.of_isEnd htoken
  refine InStep.advance_bind ?_
  split <;> infer_instance

instance inStep_declarators (kind : DeclarationKind) :
    InStep P true n false S true (declarators inner kind inner.fuel)
      (declarators inner' kind inner'.fuel) := by
  refine InStep.loop (fun fuel (_ : Unit) => declarators inner kind fuel)
    (fun fuel _ => declarators inner' kind fuel) (fun _ => rfl)
    (fun k fuel fuel' hk ih _ => ?_) hinner.fuel hinner.fuel' ()
  have := hinner.mono hk
  have := ih ()
  unfold declarators
  infer_instance

instance inStep_declaration [Solid S] (kind : DeclarationKind) :
    InStep P true n true S true (declaration inner kind) (declaration inner' kind) := by
  unfold declaration
  infer_instance

/-! ### Conditions and loops -/

instance inStep_bracketed : InStep P true n true S true (bracketed inner) (bracketed inner') := by
  unfold bracketed
  infer_instance

instance inStep_loopBody : InStep P true n false S true (loopBody inner) (loopBody inner') := by
  unfold loopBody
  infer_instance

instance inStep_ifStatement [Solid S] :
    InStep P true n true S true (ifStatement inner) (ifStatement inner') := by
  unfold ifStatement
  infer_instance

instance inStep_whileStatement [Solid S] :
    InStep P true n true S true (whileStatement inner) (whileStatement inner') := by
  unfold whileStatement
  infer_instance

instance inStep_doStatement [Solid S] :
    InStep P true n true S true (doStatement inner) (doStatement inner') := by
  unfold doStatement
  infer_instance

theorem solid_of_isLoopWord {token : Token} (h : isLoopWord token = true) : Solid {token} := by
  unfold isLoopWord at h
  split at h <;> first | infer_instance | cases h

instance inStep_forEach [Solid S] (head : ForHead) :
    InStep P true n true S true (forEach inner head) (forEach inner' head) := by
  unfold forEach
  infer_instance

instance inStep_forParts (init : Option ForInit) :
    InStep P true n true S true (forParts inner init) (forParts inner' init) := by
  unfold forParts
  infer_instance

instance inStep_withoutIn {α : Type} {takes : Bool} {p q : Parse α} [InStep P true n fresh S takes p q] :
    InStep P true n fresh S takes (withoutIn p) (withoutIn q) := by
  unfold withoutIn
  infer_instance

instance inStep_forDeclaration [Solid S] (kind : DeclarationKind) :
    InStep P true n true S true (forDeclaration inner kind) (forDeclaration inner' kind) := by
  unfold forDeclaration
  refine InStep.bind_takes (k := fun _ => InStep.bind_takes (k := fun declared => ?_))
  split
  · refine InStep.current (b := .of_template fun _ _ _ _ => rfl) (k := fun token => ?_)
    split
    · next hword =>
      have := solid_of_isLoopWord hword
      infer_instance
    · infer_instance
  · infer_instance

instance inStep_forExpression :
    InStep P true n false S true (forExpression inner) (forExpression inner') := by
  unfold forExpression
  refine InStep.bind_takes (k := fun e => ?_)
  refine InStep.current (b := .of_template fun _ _ _ _ => rfl) (k := fun token => ?_)
  split
  · next hword =>
    have := solid_of_isLoopWord hword
    split <;> infer_instance
  · infer_instance

theorem solid_of_declarationKind? {token : Token} {kind : DeclarationKind}
    (h : declarationKind? token = some kind) : Solid {token} := by
  unfold declarationKind? at h
  split at h <;> first | infer_instance | cases h

instance inStep_forStatement [Solid S] :
    InStep P true n true S true (forStatement inner) (forStatement inner') := by
  unfold forStatement
  refine InStep.bind_takes (k := fun _ => InStep.atWord _ (k := ?_))
  refine InStep.ite_false (h := InStep.bind_takes (k := fun _ => ?_))
  refine InStep.current (b := .of_template fun _ _ _ _ => rfl) (k := fun token => ?_)
  split
  · infer_instance
  split
  · next hkind =>
    have := solid_of_declarationKind? hkind
    infer_instance
  · infer_instance

/-! ### Jumps -/

instance inStep_atStatementEnd : InStep P true n fresh S false atStatementEnd atStatementEnd := by
  unfold atStatementEnd
  refine InStep.afterLineEnd (k := fun lineEnd => ?_)
  split
  · infer_instance
  · exact InStep.current (b := .of_template fun _ _ _ _ => rfl)

instance inStep_returnStatement [Solid S] :
    InStep P true n true S true (returnStatement inner) (returnStatement inner') := by
  unfold returnStatement
  refine InStep.context fun c c' halike => ?_
  rw [halike.returns rfl]
  infer_instance

instance inStep_breakStatement [Solid S] :
    InStep P true n fresh S true breakStatement breakStatement := by
  unfold breakStatement
  refine InStep.advance_bind (Stops.jumpLabel_bind (k := fun label => ?_))
  refine Stops.context fun c c' halike => ?_
  rw [halike.labels, halike.inLoop, halike.inSwitch]
  split <;> infer_instance

instance inStep_continueStatement [Solid S] :
    InStep P true n fresh S true continueStatement continueStatement := by
  unfold continueStatement
  refine InStep.advance_bind (Stops.context fun c c' halike => ?_)
  rw [halike.labels, halike.inLoop]
  split
  · refine Stops.jumpLabel_bind (k := fun label => ?_)
    split
    · split <;> infer_instance
    · infer_instance
  · infer_instance

instance inStep_throwStatement [Solid S] :
    InStep P true n true S true (throwStatement inner) (throwStatement inner') := by
  unfold throwStatement
  exact InStep.advance_bind inferInstance

/-! ### Compound statements -/

instance inStep_handler : InStep P true n false S true (handler inner) (handler inner') := by
  unfold handler
  infer_instance

instance inStep_tryStatement [Solid S] :
    InStep P true n true S true (tryStatement inner) (tryStatement inner') := by
  unfold tryStatement
  infer_instance

instance blind_endsCase : Token.Blind endsCase := .of_template fun _ _ _ _ => rfl

instance inStep_caseBody : InStep P true n true S true (caseBody inner) (caseBody inner') := by
  have hbody : InStep P true n false .univ false (untilToken endsCase inner.item inner.fuel)
      (untilToken endsCase inner'.item inner'.fuel) :=
    .untilToken hinner.item hinner.fuel hinner.fuel'
  unfold caseBody
  infer_instance

/-- One case of a switch. -/
def switchCase (inner : Phrases) (hasDefault : Bool) : Parse SwitchCase := do
  match ← current with
  | .keyword .caseWord =>
    advance
    let test ← withIn inner.expression
    return ⟨some test, ← caseBody inner⟩
  | .keyword .defaultWord =>
    if hasDefault then fail .repeatedDefault
    advance
    return ⟨none, ← caseBody inner⟩
  | _ => unexpected

/-- The cases of a switch are read one by one. -/
theorem switchCases_succ (inner : Phrases) (hasDefault : Bool) (fuel : Nat) :
    switchCases inner hasDefault (fuel + 1) = (do
      if (← current).isMark .rightBrace then
        advance
        return []
      let first ← switchCase inner hasDefault
      return first :: (← switchCases inner (hasDefault || first.test.isNone) fuel)) := by
  funext c ⟨token, line, start⟩
  rw [switchCases, current_bind, current_bind]
  cases token with
  | punctuator mark => cases mark <;> rfl
  | keyword word =>
    cases word
    case caseWord => simp [switchCase, Token.isMark]
    case defaultWord =>
      cases hasDefault with
      | true => rfl
      | false => simp [switchCase, Token.isMark]
    all_goals rfl
  | _ => rfl

instance inStep_switchCase (hasDefault : Bool) :
    InStep P true n true S true (switchCase inner hasDefault) (switchCase inner' hasDefault) := by
  unfold switchCase
  refine InStep.current (b := .of_template fun _ _ _ _ => rfl) (k := fun token => ?_)
  split <;> infer_instance

instance inStep_switchCases (hasDefault : Bool) :
    InStep P true n false S true (switchCases inner hasDefault inner.fuel)
      (switchCases inner' hasDefault inner'.fuel) := by
  refine InStep.loop (fun fuel found => switchCases inner found fuel)
    (fun fuel found => switchCases inner' found fuel) (fun _ => rfl)
    (fun k fuel fuel' hk ih found => ?_) hinner.fuel hinner.fuel' hasDefault
  have := hinner.mono hk
  have hcases (found : Bool) := ih found
  rw [switchCases_succ, switchCases_succ]
  infer_instance

instance inStep_switchStatement [Solid S] :
    InStep P true n true S true (switchStatement inner) (switchStatement inner') := by
  unfold switchStatement
  infer_instance

instance inStep_withStatement [Solid S] :
    InStep P true n true S true (withStatement inner) (withStatement inner') := by
  unfold withStatement
  infer_instance

instance inStep_labeledStatement :
    InStep P true n true S true (labeledStatement inner) (labeledStatement inner') := by
  unfold labeledStatement
  refine InStep.bind_takes (k := fun label => InStep.weaken (InStep.expect_bind ?_))
  refine Stops.context fun c c' halike => ?_
  rw [halike.labels]
  split
  · infer_instance
  · exact Stops.of_inStep (h := InStep.current (b := .of_template fun _ _ _ _ => rfl))

/-! ### Statements and declarations -/

theorem atLabel_bind {β : Type} (f : Bool → Parse β) :
    atLabel >>= f = name? >>= fun found =>
      if found.isSome = true then peek >>= fun found => f (found.1.isMark .colon) else f false := by
  unfold atLabel
  rw [bind_assoc]
  congr 1
  funext found
  cases found with
  | none => rfl
  | some name =>
    dsimp only [Option.isSome_some]
    rw [if_pos rfl, if_pos rfl, bind_assoc]
    rfl

/-- Where the first text ends behind a name, that name is no label in it. -/
instance inStep_atLabel {β : Type} {takes : Bool} {f g : Bool → Parse β}
    [k : ∀ b, InStep P true n fresh S takes (f b) (g b)] [e : RunsOut P true n S (f false) (g false)] :
    InStep P true n fresh S takes (atLabel >>= f) (atLabel >>= g) := by
  rw [atLabel_bind, atLabel_bind]
  refine ⟨fun {c c' r r'} halike hpairs hlt hr => ?_, fun c r hended hr => ?_⟩
  · rw [bind_apply, bind_apply]
    dsimp only [Parse.name?]
    rw [halike.name?_eq hpairs]
    split
    · next hname =>
      have hblind (line : Bool) : Token.Blind fun token => g ((token, line).1.isMark .colon) :=
        .comp (f := (Token.isMark · .colon)) g
      exact InStep.outcome_peek_bind hpairs (Token.isEnd_of_isSome_name? hname)
        (fun found => (k _).outcome halike hpairs hlt hr)
        fun hending _ => e.closing c hending hname hr
    · exact (k false).outcome halike hpairs hlt hr
  · rw [bind_apply]
    dsimp only [Parse.name?]
    rw [P.current_of_ended hended]
    exact (k false).closing c hended hr

instance runsOut_atLabel {β : Type} {f g : Bool → Parse β} [e : RunsOut P true n S (f false) (g false)] :
    RunsOut P true n S (atLabel >>= f) (atLabel >>= g) := by
  rw [atLabel_bind, atLabel_bind]
  refine RunsOut.name? (k := fun found => ?_)
  split
  · exact RunsOut.peek (k := fun _ => e)
  · exact e

instance inStep_expressionStatement :
    InStep P true n true S true (expressionStatement inner) (expressionStatement inner') := by
  unfold expressionStatement
  infer_instance

instance runsOut_expressionStatement :
    RunsOut P true n S (expressionStatement inner) (expressionStatement inner') := by
  unfold expressionStatement
  infer_instance

instance inStep_statement : InStep P true n true S true (statement inner) (statement inner') := by
  unfold statement
  refine InStep.current (b := .of_template fun _ _ _ _ => rfl) (k := fun token => ?_)
  split
  · infer_instance
  · infer_instance
  · split <;> infer_instance
  · infer_instance

instance runsOut_statement : RunsOut P true n S (statement inner) (statement inner') := by
  unfold statement
  refine RunsOut.current (k := fun token => ?_)
  split
  · exact .of_name? fun _ => rfl
  · exact .of_name? fun _ => rfl
  · split
    case h_16 => infer_instance
    all_goals exact .of_name? fun _ => rfl
  · infer_instance

theorem atAsyncFunction_bind {β : Type} (f : Bool → Parse β) :
    atAsyncFunction >>= f =
      peek >>= fun found => f (found.1.isWord .functionWord && !found.2) := by
  unfold atAsyncFunction
  rw [bind_assoc]
  rfl

/-- Where the first text ends behind the word, no function follows it there. -/
instance inStep_atAsyncFunction {β : Type} {takes : Bool} {f g : Bool → Parse β} [Names S]
    [k : ∀ b, InStep P true n fresh S takes (f b) (g b)] [e : RunsOut P true n S (f false) (g false)] :
    InStep P true n fresh S takes (atAsyncFunction >>= f) (atAsyncFunction >>= g) := by
  rw [atAsyncFunction_bind, atAsyncFunction_bind]
  have hblind (line : Bool) :
      Token.Blind fun token => g ((token, line).1.isWord .functionWord && !(token, line).2) :=
    .comp (f := (Token.isWord · .functionWord)) fun b => g (b && !line)
  exact InStep.peek (e := fun _ => e)

instance inStep_item : InStep P true n true S true (item inner) (item inner') := by
  unfold item
  refine InStep.current (b := .of_template fun _ _ _ _ => rfl) (k := fun token => ?_)
  split <;> infer_instance

/-- The statements and declarations of a program, behind the start of its text. -/
def programItems (inner : Phrases) : Parse Program := do
  return ⟨← untilToken Token.isEnd (item inner) inner.fuel⟩

theorem program_eq (inner : Phrases) : program inner = advance >>= fun _ => programItems inner :=
  rfl

instance inStep_programItems :
    InStep P true n false S false (programItems inner) (programItems inner') := by
  have hitems : InStep P true n false S false (untilToken Token.isEnd (item inner) inner.fuel)
      (untilToken Token.isEnd (item inner') inner'.fuel) :=
    .untilToken inferInstance hinner.fuel hinner.fuel'
  unfold programItems
  infer_instance

end Grammar

/-! ## Phrases of any depth -/

namespace Phrases

variable {P : Pairing} {n : Nat} {inner inner' outer : Phrases}

/-- Where nothing may be left, the second readers do not matter. -/
theorem InStep.of_zero (h : InStep P 0 inner inner') : InStep P 0 inner outer where
  fuel := Nat.zero_le _
  fuel' := Nat.zero_le _
  item := h.item.of_zero
  statement := h.statement.of_zero
  expression := h.expression.of_zero
  assignment := h.assignment.of_zero
  binary level := (h.binary level).of_zero
  power := h.power.of_zero
  unary := h.unary.of_zero
  operand := h.operand.of_zero
  construction := h.construction.of_zero
  pattern := h.pattern.of_zero

/-- Nothing is read where nothing is left. -/
theorem inStep_exhausted {α : Type} {inside takes : Bool} {S : Set Token} :
    Parse.InStep P inside 0 false S takes (Parse.fail .exhausted : Parse α) (Parse.fail .exhausted) :=
  .of_closing fun c _ hended _ => Parse.InStep.closing_fail .exhausted c hended

theorem inStep_none : InStep P 0 none none where
  fuel := Nat.le_refl 0
  fuel' := Nat.le_refl 0
  item := inStep_exhausted
  statement := inStep_exhausted
  expression := inStep_exhausted
  assignment := inStep_exhausted
  binary _ := inStep_exhausted
  power := inStep_exhausted
  unary := inStep_exhausted
  operand := inStep_exhausted
  construction := inStep_exhausted
  pattern := inStep_exhausted

/-- Phrases one deeper are in step if one more is left to read. -/
theorem InStep.ofDepth_succ {depth depth' : Nat} (h : InStep P n (ofDepth depth) (ofDepth depth'))
    (hdepth : n ≤ depth) (hdepth' : n ≤ depth') :
    InStep P (n + 1) (ofDepth (depth + 1)) (ofDepth (depth' + 1)) where
  fuel := Nat.succ_le_succ hdepth
  fuel' := Nat.succ_le_succ hdepth'
  item := Grammar.inStep_item.succ
  statement := Grammar.inStep_statement.succ
  expression := Grammar.inStep_expression.succ
  assignment := Grammar.inStep_assignment.succ
  binary level := (Grammar.inStep_binary level).succ
  power := Grammar.inStep_power.succ
  unary := Grammar.inStep_unary.succ
  operand := Grammar.inStep_operand.succ
  construction := Grammar.inStep_construction.succ
  pattern := Grammar.inStep_pattern.succ

/-- Readers of phrases that are deep enough keep in step. -/
theorem inStep_ofDepth {depth depth' : Nat} (hdepth : n ≤ depth) (hdepth' : n ≤ depth') :
    InStep P n (ofDepth depth) (ofDepth depth') := by
  induction depth generalizing n depth' with
  | zero =>
    obtain rfl := Nat.le_zero.mp hdepth
    exact inStep_none.of_zero
  | succ depth ih =>
    rcases n with _ | n
    · have h : InStep P 0 (ofDepth depth) (ofDepth 0) := ih (Nat.zero_le _) (Nat.zero_le _)
      have hsucc := h.ofDepth_succ (Nat.zero_le _) (Nat.zero_le _)
      exact (hsucc.mono (Nat.zero_le 1)).of_zero
    · obtain ⟨depth', rfl⟩ := Nat.exists_eq_succ_of_ne_zero (Nat.ne_zero_of_lt hdepth')
      have hdepth := Nat.le_of_succ_le_succ hdepth
      have hdepth' := Nat.le_of_succ_le_succ hdepth'
      exact (ih hdepth hdepth').ofDepth_succ hdepth hdepth'

end Phrases

/-! ## Programs -/

/-- Programs are read in step if their first tokens are, or the first text has none. -/
theorem Grammar.outcome_program {P : Pairing} {c : Context} {depth depth' : Nat}
    {start start' : Cursor} (hdepth : start.rest.length < depth)
    (hdepth' : start.rest.length < depth')
    (hfirst : (∃ line d, Lexer.nextOnLine start false = .ok (.endOfInput, line) d ∧
        P.Ended ⟨.endOfInput, line, d⟩) ∨
      Scan.Alike P.Excused P.Corresponds
        (fun found d found' d' => P.Pairs ⟨found.1, found.2, d⟩ ⟨found'.1, found'.2, d'⟩)
        (Lexer.nextOnLine start false) (Lexer.nextOnLine start' false)) :
    ∃ r, P.Outcome false r (program (.ofDepth depth) c ⟨.endOfInput, false, start⟩)
      (program (.ofDepth depth') c ⟨.endOfInput, false, start'⟩) := by
  have hphrases : Phrases.InStep P (start.rest.length + 1) (.ofDepth depth) (.ofDepth depth') :=
    Phrases.inStep_ofDepth hdepth hdepth'
  have hitems : Parse.InStep P true (start.rest.length + 1) false .univ false
      (programItems (.ofDepth depth)) (programItems (.ofDepth depth')) := inferInstance
  rw [program_eq, program_eq, Parse.bind_apply, Parse.bind_apply]
  unfold Parse.advance
  rcases hfirst with ⟨line, d, hend, hended⟩ | halike
  · rw [hend]
    exact ⟨⟨.endOfInput, line, d⟩, .closing (hitems.closing c hended trivial)⟩
  · dsimp only
    generalize htoken : Lexer.nextOnLine start false = result at halike
    generalize Lexer.nextOnLine start' false = result' at halike
    cases halike with
    | @ok found _ d d' hpairs =>
      have hleft : (⟨found.1, found.2, d⟩ : Reading).left < start.rest.length + 1 := by
        unfold Reading.left
        split
        · exact Nat.succ_pos _
        · next hend =>
          exact Nat.succ_lt_succ (Lexer.length_nextOnLine_lt htoken (by simpa using hend))
      exact ⟨_, hitems.outcome (.refl _ _ c) hpairs hleft trivial⟩
    | @excused e d _ h => exact ⟨⟨.endOfInput, false, start⟩, .closing (.error h)⟩
    | failed h => exact ⟨⟨.endOfInput, false, start⟩, .failed h⟩

end EcmaEval
