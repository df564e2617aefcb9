import EcmaEval.Proofs.Flags.Readers
import EcmaEval.Proofs.Token.UnixToken
import EcmaEval.Proofs.Syntax.Progress

/-!
# Carriage returns of templates, and programs with line feeds for pairs

The text of a template as it is written has a line feed for each end of a line.  Escape sequences are
copied to it as they stand in the source, so that a carriage return may come into it behind a backslash,
and where it breaks an escape sequence off.

A text whose lines end in carriage returns and line feeds is compared with the one that has a line feed
for each such pair.  Its tokens and its program are the same.

This needs that no pair stands behind another carriage return, of which the line feed would make a pair
again, and that none breaks an escape sequence off.

## Main definitions

* `Text.EndsOpen`: a backslash, or an open escape sequence, stands last
* `Text.ReturnsEscaped`: carriage returns stand behind such texts only
* `Reading.UnixAlike`, `Pairing.unix`: the readings of the two texts

## Main results

* `Lexer.returnsEscaped_of_readTemplate`: the text of a template
* `Lexer.returnsEscaped_of_run`: the templates among the tokens of a text
* `Lexer.unix_nextOnLine`: the next token that is no line end
* `Program.reads_withUnixLines`: tokens and programs are the same, and which carriage returns come into
  a template
-/

namespace EcmaEval

open Scan Cursor

variable {c d : Cursor} {ch : Char} {text more taken : List Char}

/-! ## Texts -/

namespace Text

/-- A backslash stands last, or an escape sequence that needs another character. -/
def EndsOpen (text : List Char) : Prop :=
  ∃ front escape, text = front ++ '\\' :: escape ∧ (escape = [] ∨ Escape.isOpen escape = true)

/-- Each carriage return stands directly behind a backslash or an escape sequence that it breaks off. -/
def ReturnsEscaped (text : List Char) : Prop :=
  ∀ front back, text = front ++ '\r' :: back → EndsOpen front

namespace ReturnsEscaped

theorem nil : ReturnsEscaped [] :=
  fun _ _ heq => absurd heq.symm (List.append_ne_nil_of_right_ne_nil _ (List.cons_ne_nil _ _))

/-- What is written before a carriage return does not change when the text goes on. -/
theorem append (h : ReturnsEscaped text)
    (hmore : ∀ front back, more = front ++ '\r' :: back → EndsOpen (text ++ front)) :
    ReturnsEscaped (text ++ more) := by
  intro front back heq
  -- The carriage return is in what was added, or in the text, or at the border of the two.
  rcases List.append_eq_append_iff.mp heq with ⟨front', rfl, hmore'⟩ | ⟨back', htext, hback⟩
  · exact hmore front' back hmore'
  · cases back' with
    | nil =>
      rw [List.append_nil] at htext
      rw [List.nil_append] at hback
      rw [← htext, ← List.append_nil text]
      exact hmore [] back hback.symm
    | cons ch back' =>
      obtain ⟨rfl, -⟩ := List.cons.inj hback
      exact h front back' htext

theorem push (h : ReturnsEscaped text) (hch : ch ≠ '\r') : ReturnsEscaped (text ++ [ch]) := by
  refine h.append fun front back heq => ?_
  have hmem : '\r' ∈ [ch] := heq ▸ List.mem_append_right _ List.mem_cons_self
  exact absurd (List.mem_singleton.mp hmem).symm hch

/-- An escape sequence that is copied has a carriage return at its front, or where that breaks it off. -/
theorem escape (h : ReturnsEscaped text)
    (htaken : ∀ front back, taken = front ++ '\r' :: back →
      front = [] ∨ Escape.isOpen front = true) :
    ReturnsEscaped (text ++ '\\' :: taken) := by
  refine h.append fun front back heq => ?_
  cases front with
  | nil => cases heq
  | cons ch front =>
    obtain ⟨rfl, htaken'⟩ := List.cons.inj heq
    exact ⟨text, front, rfl, htaken front back htaken'⟩

end ReturnsEscaped

end Text

open Text

/-! ## Escape sequences -/

/-- Behind the first character of the end of a line no carriage return belongs to it. -/
theorem Cursor.exists_of_breakLine (c : Cursor) (ch : Char) :
    ∃ more, c.rest = more ++ (c.breakLine ch).rest ∧ '\r' ∉ more := by
  by_cases hpair : ch = '\r' ∧ c.peek? = some '\n'
  · obtain ⟨rfl, hfeed⟩ := hpair
    obtain ⟨rest, hrest⟩ := List.head?_eq_some_iff.mp hfeed
    refine ⟨['\n'], ?_, by decide⟩
    rw [breakLine_pair hfeed, hrest, ← rest_skip hrest]
    rfl
  · rw [breakLine_single (not_and.mp hpair)]
    exact ⟨[], rfl, nofun⟩

namespace Escape

/-- An escape sequence that is read has a carriage return only where it is the end of a line. -/
theorem eq_nil_of_between {front back cs : List Char} (h : read c = .ok cs d)
    (heq : c.between d = front ++ '\r' :: back) : front = [] := by
  rcases staysOnLine_or_breakLine h with ⟨taken, hmove, hline⟩ | ⟨ch, e, hnext, hline, rfl⟩
  · rw [Lexer.between_of_rest hmove.rest] at heq
    have hmem : '\r' ∈ taken := heq ▸ List.mem_append_right _ List.mem_cons_self
    exact absurd (hline _ hmem) (by decide)
  · obtain ⟨more, hrest, hmore⟩ := exists_of_breakLine e ch
    rw [Lexer.between_of_rest (show c.rest = (ch :: more) ++ _ by rw [rest_of_next? hnext, hrest]; rfl)]
      at heq
    rcases List.cons_eq_append_iff.mp heq with ⟨hnil, -⟩ | ⟨front', -, hmore'⟩
    · exact hnil
    · exact absurd (hmore' ▸ List.mem_append_right _ List.mem_cons_self) hmore

/-- One that is broken off has it where it is open. -/
theorem isOpen_of_between {front back : List Char} {x : LexError} (h : read c = .error x d)
    (heq : c.between d = front ++ '\r' :: back) : isOpen front = true := by
  obtain ⟨taken, hmove, hopens⟩ := exists_of_read_error h
  rw [Lexer.between_of_rest hmove.rest] at heq
  exact hopens front '\r' back heq rfl

end Escape

/-! ## Templates -/

namespace Lexer

theorem returnsEscaped_of_readTemplate {cooked cooked' : Option String} {raw raw' : String}
    {closed : Bool} (h : readTemplate c cooked raw = .ok (cooked', raw', closed) d)
    (hraw : ReturnsEscaped raw.toList) : ReturnsEscaped raw'.toList := by
  fun_induction readTemplate c cooked raw with
  | case1 | case5 => cases h
  | case2 | case3 =>
    cases h
    exact hraw
  | case4 c cooked raw ch e hnext _ hquote hbrace hescape cs f he _ ih =>
    obtain rfl := eq_of_beq hescape
    refine ih h ?_
    rw [toList_foldl_push, String.toList_push, List.append_assoc]
    exact hraw.escape fun front back heq => .inl (Escape.eq_nil_of_between he heq)
  | case6 c cooked raw ch e hnext _ hquote hbrace hescape x f he _ _ ih =>
    obtain rfl := eq_of_beq hescape
    refine ih h ?_
    rw [toList_foldl_push, String.toList_push, List.append_assoc]
    exact hraw.escape fun front back heq => .inr (Escape.isOpen_of_between he heq)
  | case7 c cooked raw ch e hnext _ hquote hbrace hescape hline _ ih =>
    refine ih h ?_
    rw [String.toList_push]
    exact hraw.push (by decide)
  | case8 c cooked raw ch e hnext _ hquote hbrace hescape hline ih =>
    refine ih h ?_
    rw [String.toList_push]
    exact hraw.push (ne_return_of_isLineEnd hline)

variable {part : TemplatePart} {cooked : Option String} {raw : String}

theorem returnsEscaped_of_readTemplatePart {closed opened : TemplatePart}
    (h : readTemplatePart c closed opened = .ok (.template part cooked raw) d) :
    ReturnsEscaped raw.toList := by
  unfold readTemplatePart at h
  cases hread : readTemplate c (some "") "" with
  | error x e =>
    rw [hread] at h
    cases h
  | ok found e =>
    rw [hread] at h
    cases h
    exact returnsEscaped_of_readTemplate hread .nil

theorem nameToken_ne_template {name : String} {escaped : Bool} :
    nameToken name escaped ≠ .template part cooked raw := by
  unfold nameToken
  repeat' split
  all_goals nofun

theorem returnsEscaped_of_next (h : next c = .ok (.template part cooked raw) d) :
    ReturnsEscaped raw.toList := by
  generalize hresult : next c = result at h
  have hends := nextEnds_next c
  rw [hresult] at hends
  cases hends with
  | endOfInput | lineEnd | comment => cases h
  | token hgap hmove hbegins =>
    generalize htoken : Token.template part cooked raw = token at h
    cases readsAt_of_readAt h with
    | literal hliteral => rw [← htoken] at hliteral; cases hliteral
    | template hread =>
      cases htoken
      exact returnsEscaped_of_readTemplatePart hread
    | escaped => exact (nameToken_ne_template htoken.symm).elim
    | name => exact (nameToken_ne_template htoken.symm).elim
    | punctuator => cases htoken

/-- Whatever is called for. -/
theorem returnsEscaped_of_read {call : Call} (h : call.read c = .ok (.template part cooked raw) d) :
    ReturnsEscaped raw.toList := by
  cases call with
  | next => exact returnsEscaped_of_next h
  | regExp =>
    unfold Call.read readRegExp at h
    dsimp only at h
    split at h <;> cases h
  | continuation => exact returnsEscaped_of_readTemplatePart h

/-- All templates among the tokens. -/
theorem returnsEscaped_of_run {calls : List Call} {found : List (Token × List Char)}
    (h : run calls c = .ok found d) {text : List Char}
    (hmem : (.template part cooked raw, text) ∈ found) : ReturnsEscaped raw.toList := by
  induction calls generalizing c found with
  | nil =>
    cases h
    cases hmem
  | cons call calls ih =>
    obtain ⟨token, e, more, hread, hrun, rfl⟩ := exists_of_run_cons h
    cases hmem with
    | head => exact returnsEscaped_of_read hread
    | tail _ hmem => exact ih hrun hmem

end Lexer

/-! ## Tokens on a line -/

variable {c' : Cursor}

namespace Lexer

/-- The next token that is no line end is the same, and so is what stands before it. -/
theorem unix_nextOnLine (h : c.UnixPlace c') (seen : Bool) :
    UnixLeads (fun found found' => found.1.UnixAlike found'.1 ∧ found'.2 = found.2)
      (nextOnLine c seen) (nextOnLine c' seen) := by
  fun_induction nextOnLine c seen generalizing c' with
  | case1 => exact .error
  | case2 c seen d hnext _ ih =>
    obtain ⟨token, d', hnext', htoken, hd⟩ := (unix_next h).exists_of_ok hnext
    cases htoken
    rw [nextOnLine_of_lineEnd hnext']
    exact ih hd
  | case3 c seen token d hline hnext =>
    obtain ⟨token', d', hnext', htoken, hd⟩ := (unix_next h).exists_of_ok hnext
    have hline' : token' ≠ .lineEnd := by
      rintro rfl
      cases htoken
      exact hline rfl
    rw [nextOnLine_of_token hnext' hline']
    exact .ok ⟨htoken, rfl⟩ hd

/-- Tokens that are read are told by evaluation. -/
theorem exists_of_tokens {source : String} {b : List Token → Bool}
    (h : (match tokens source with
      | .ok found _ => b found
      | .error .. => false) = true) :
    ∃ found d, tokens source = .ok found d ∧ b found = true := by
  split at h
  · next found d hread => exact ⟨found, d, hread, h⟩
  · cases h

end Lexer

/-! ## Readings -/

theorem Token.UnixAlike.alike {token token' : Token} (h : token.UnixAlike token') :
    token.Alike token' := by
  cases h with
  | refl => exact .refl _
  | template => exact .template _ _ _ _

/-- The readings are at the same place of their texts, with the same token at hand. -/
structure Reading.UnixAlike (r r' : Reading) : Prop where
  current : r.current.Alike r'.current
  afterLineEnd_eq : r'.afterLineEnd = r.afterLineEnd
  cursor : r.cursor.UnixPlace r'.cursor

/-- What the first reader finds keeps readings in step. -/
theorem Scan.UnixLeads.alike {α : Type} {same : α → α → Prop}
    {pairs : α → Cursor → α → Cursor → Prop} {result result' : Result α} (h : UnixLeads same result result')
    (hpairs : ∀ {x x' d d'}, same x x' → d.UnixPlace d' → pairs x d x' d') :
    Scan.Alike (fun _ => True) (fun _ _ => True) pairs result result' := by
  cases h with
  | ok hx hd => exact .ok (hpairs hx hd)
  | error => exact .excused trivial

/-- The readings of a text and of the one with line feeds for pairs.  Where the first one fails, nothing
is said of the second one. -/
def Pairing.unix : Pairing :=
  .endingTogether Reading.UnixAlike Token.Alike (fun _ => True) (fun _ _ => True) id
    (·.current) (·.afterLineEnd_eq) (fun h hsame => ⟨hsame, h.afterLineEnd_eq, h.cursor⟩)
    (fun _ _ _ => trivial) (fun _ => trivial)
    (fun h => (Lexer.unix_nextOnLine h.cursor false).alike fun hfound hd =>
      ⟨hfound.1.alike, hfound.2, hd⟩)
    (by
      rintro r r' read (rfl | rfl) h _
      · exact (Lexer.unix_readRegExp h.cursor).alike fun htoken hd =>
          ⟨.of_eq htoken.symm, h.current, h.afterLineEnd_eq, hd⟩
      · exact (Lexer.unix_readTemplatePart h.cursor _ _).alike fun htoken hd =>
          ⟨htoken.alike, h.current, h.afterLineEnd_eq, hd⟩)

/-! ## Programs -/

/-- A program is read in the text with line feeds for pairs too. -/
theorem Grammar.program_eq_ok_of_unixPlace {context : Context} {start start' : Cursor}
    (hstart : start.UnixPlace start') {depth depth' : Nat} (hdepth : start.rest.length < depth)
    (hdepth' : start'.rest.length < depth') {p : Program} {r : Reading}
    (h : program (.ofDepth depth) context ⟨.endOfInput, false, start⟩ = .ok (p, r)) :
    ∃ r', program (.ofDepth depth') context ⟨.endOfInput, false, start'⟩ = .ok (p, r') := by
  have hle : start'.rest.length ≤ start.rest.length := by
    rw [hstart.rest]
    exact Text.length_unixLines_le _
  have hfirst : Scan.Alike _ _ (fun found d found' d' =>
      Pairing.unix.Pairs ⟨found.1, found.2, d⟩ ⟨found'.1, found'.2, d'⟩)
      (Lexer.nextOnLine start false) (Lexer.nextOnLine start' false) :=
    (Lexer.unix_nextOnLine hstart false).alike fun hfound hd => ⟨hfound.1.alike, hfound.2, hd⟩
  obtain ⟨s, houtcome⟩ := outcome_program (P := .unix) (c := context) hdepth hdepth (.inr hfirst)
  rw [h] at houtcome
  -- Both were read with the steps for the longer text, which are enough for the shorter one.
  rw [(program_settles (hle.trans_lt hdepth) hdepth').1]
  generalize program (.ofDepth depth) context ⟨.endOfInput, false, start'⟩ = result at houtcome ⊢
  cases houtcome with
  | ok => exact ⟨_, rfl⟩
  | closing hclosing =>
    cases hclosing with
    | ok hended => exact hended.elim

theorem Program.ofText_withUnixLines {options : ParseOptions} {source : String} {p : Program}
    (hstart : (Cursor.ofText source).UnixPlace (.ofText (Text.withUnixLines source)))
    (h : Program.ofText options source = .ok p) :
    Program.ofText options (Text.withUnixLines source) = .ok p := by
  rw [Program.ofText_eq] at h ⊢
  split at h
  · next r hprogram =>
    cases h
    obtain ⟨r', hprogram'⟩ := Grammar.program_eq_ok_of_unixPlace hstart
      (Nat.lt_add_of_pos_right Nat.zero_lt_two) (Nat.lt_add_of_pos_right Nat.zero_lt_two) hprogram
    rw [hprogram']
  · cases h

/-- Whatever is read of a text is read of the one with line feeds for pairs: by calls for tokens in any
order, as the tokens of the whole text, and as its program.  The tokens are the same, up to the text of
templates that have a carriage return, and so is the program.  A pair may not stand behind another
carriage return, or behind an escape sequence that is open by the text alone.

In any text, a carriage return comes into a template only behind a backslash, or where it breaks an
escape sequence off. -/
theorem Program.reads_withUnixLines (options : ParseOptions) (source : String) :
    (∀ calls found d, Lexer.run calls (.ofText source) = .ok found d →
      ∀ part cooked raw text, (Token.template part cooked raw, text) ∈ found →
        Text.ReturnsEscaped raw.toList) ∧
    (¬['\r', '\r', '\n'] <:+: source.toList →
      ¬Text.BreaksEscape ['\r', '\n'] source.toList →
      (∀ calls found d, Lexer.run calls (.ofText source) = .ok found d →
        ∃ found' d', Lexer.run calls (.ofText (Text.withUnixLines source)) = .ok found' d' ∧
          List.Forall₂ Token.UnixAlike (found.map Prod.fst) (found'.map Prod.fst)) ∧
      (∀ tokens d, Lexer.tokens source = .ok tokens d →
        ∃ tokens' d', Lexer.tokens (Text.withUnixLines source) = .ok tokens' d' ∧
          List.Forall₂ Token.UnixAlike tokens tokens') ∧
      ∀ p, Program.ofText options source = .ok p →
        Program.ofText options (Text.withUnixLines source) = .ok p) := by
  refine ⟨fun calls found d h part cooked raw text hmem => Lexer.returnsEscaped_of_run h hmem,
    fun hsingle hwhole => ?_⟩
  have hstart := Cursor.UnixPlace.ofText hsingle hwhole
  refine ⟨fun calls found d h => ?_, fun tokens d h => ?_, fun p h => ?_⟩
  · obtain ⟨found', d', hfound', halike, -⟩ := (Lexer.unix_run hstart calls).exists_of_ok h
    exact ⟨found', d', hfound', halike⟩
  · obtain ⟨tokens', d', htokens', halike, -⟩ := (Lexer.unix_tokenizes hstart
      (Lexer.tokenizes_tokens source) (Lexer.tokenizes_tokens _)).exists_of_ok h
    exact ⟨tokens', d', htokens', halike⟩
  · exact Program.ofText_withUnixLines hstart h

/-- Line ends in a string, in a template and behind a statement. -/
theorem Program.reads_withUnixLines_pairs :
    Text.withUnixLines "x = `a\\\r\nb\r\n`\r\n+ 'c\\\r\n'" = "x = `a\\\nb\n`\n+ 'c\\\n'" ∧
    ∃ p tokens d tokens' d',
      Program.ofText {} "x = `a\\\r\nb\r\n`\r\n+ 'c\\\r\n'" = .ok p ∧
      Program.ofText {} "x = `a\\\nb\n`\n+ 'c\\\n'" = .ok p ∧
      Lexer.tokens "x = `a\\\r\nb\r\n`\r\n+ 'c\\\r\n'" = .ok tokens d ∧
      Lexer.tokens "x = `a\\\nb\n`\n+ 'c\\\n'" = .ok tokens' d' ∧
      List.Forall₂ Token.UnixAlike tokens tokens' := by
  have htext : Text.withUnixLines "x = `a\\\r\nb\r\n`\r\n+ 'c\\\r\n'" =
      "x = `a\\\nb\n`\n+ 'c\\\n'" := by
    decide +kernel
  obtain ⟨-, hreads⟩ := Program.reads_withUnixLines {} "x = `a\\\r\nb\r\n`\r\n+ 'c\\\r\n'"
  obtain ⟨-, htokens, hprogram⟩ := hreads (by decide +kernel) (by decide +kernel)
  rw [htext] at htokens hprogram
  obtain ⟨tokens, d, hread, -⟩ : ∃ tokens d,
      Lexer.tokens "x = `a\\\r\nb\r\n`\r\n+ 'c\\\r\n'" = .ok tokens d ∧ true = true :=
    Lexer.exists_of_tokens (by decide +kernel)
  have hparses : (match Program.ofText {} "x = `a\\\r\nb\r\n`\r\n+ 'c\\\r\n'" with
      | .ok _ => true
      | .error _ => false) = true := by
    decide +kernel
  obtain ⟨tokens', d', hread', halike⟩ := htokens tokens d hread
  split at hparses
  · next p hparse =>
    exact ⟨htext, p, tokens, d, tokens', d', hparse, hprogram p hparse, hread, hread', halike⟩
  · cases hparses

/-- The texts of a template. -/
def Token.texts? : Token → Option (Option String × String)
  | .template _ cooked raw => some (cooked, raw)
  | _ => none

/-- A pair behind another carriage return leaves a pair, so that two line ends become one.  Where a pair
breaks an escape sequence off, another token may end the line.  And a pair behind a backslash comes into
a template as it is written. -/
theorem Lexer.tokens_withUnixLines_differ :
    (∃ found d found' d', tokens "`\r\r\n`" = .ok found d ∧
      tokens (Text.withUnixLines "`\r\r\n`") = .ok found' d' ∧
      found.filterMap Token.texts? = [(some "\n\n", "\n\n")] ∧
      found'.filterMap Token.texts? = [(some "\n", "\n")]) ∧
    (∃ found d found' d', tokens "a\\u\r\nb" = .ok found d ∧
      tokens (Text.withUnixLines "a\\u\r\nb") = .ok found' d' ∧
      found.length = 4 ∧ found'.length = 3) ∧
    ∃ found d found' d', tokens "`\\\r\n`" = .ok found d ∧
      tokens (Text.withUnixLines "`\\\r\n`") = .ok found' d' ∧
      found.filterMap Token.texts? = [(some "", "\\\r\n")] ∧
      found'.filterMap Token.texts? = [(some "", "\\\n")] := by
  -- The tokens of two texts, as far as both are told by evaluation.
  have hread {α : Type} [DecidableEq α] (f : List Token → α) {source source' : String} {x x' : α}
      (h : (match tokens source with
        | .ok found _ => decide (f found = x)
        | .error .. => false) = true)
      (h' : (match tokens source' with
        | .ok found _ => decide (f found = x')
        | .error .. => false) = true) :
      ∃ found d found' d', tokens source = .ok found d ∧ tokens source' = .ok found' d' ∧
        f found = x ∧ f found' = x' := by
    obtain ⟨found, d, hfound, hx⟩ := exists_of_tokens h
    obtain ⟨found', d', hfound', hx'⟩ := exists_of_tokens h'
    exact ⟨found, d, found', d', hfound, hfound', of_decide_eq_true hx, of_decide_eq_true hx'⟩
  exact ⟨hread _ (by decide +kernel) (by decide +kernel), hread _ (by decide +kernel)
    (by decide +kernel), hread _ (by decide +kernel) (by decide +kernel)⟩

end EcmaEval
