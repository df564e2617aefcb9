import EcmaEval.Proofs.Flags.Readers
import EcmaEval.Proofs.Syntax.ShownToken
import EcmaEval.Proofs.Syntax.Steps
import EcmaEval.Proofs.Text.CodeUnits

/-!
# Plain values as text, and reading them again

A plain value is a tree: `undefined`, `null`, a boolean, an unbounded integer, a string, or an array
of such values.  Its text is an expression again, unless a string in it has a separator that ends
the line.

The text of a plain value is read as its expression, whatever closes the expression behind it.  If a
string in the value has a separator, reading fails where the separator ends the line.

## Main definitions

* `PlainValue`: the trees
* `PlainValue.text`: the text of a tree
* `PlainValue.expression`: the expression that its text is
* `Parse.Rereads`: how reading ends

## Main results

* `PlainValue.begins_text`: the text of a tree begins with its first token
* `PlainValue.rereadsUnary`: the text of a value is an operand
* `Program.ofText_text`: it is a program
-/

namespace EcmaEval

/-- A value that has no identity, or an array of such values. -/
inductive PlainValue where
  | undefined
  | null
  | boolean (value : Bool)
  | bigint (value : Int)
  | string (value : UnitString)
  | array (elements : List PlainValue)

namespace PlainValue

/-- An array is reached from its elements. -/
theorem induction {motive : PlainValue → Prop} (undefined : motive .undefined) (null : motive .null)
    (boolean : ∀ value, motive (.boolean value)) (bigint : ∀ value, motive (.bigint value))
    (string : ∀ value, motive (.string value))
    (array : ∀ elements, (∀ t ∈ elements, motive t) → motive (.array elements)) (t : PlainValue) :
    motive t :=
  @PlainValue.rec motive (fun elements => ∀ t ∈ elements, motive t) undefined
    null boolean bigint string array nofun
    (fun _ _ hhead htail => List.forall_mem_cons.mpr ⟨hhead, htail⟩) t

mutual

/-- The text of a value as it is shown. -/
def text : PlainValue → String
  | undefined => "undefined"
  | null => "null"
  | boolean value => if value then "true" else "false"
  | bigint value => Integer.toText value ++ "n"
  | string value => Text.quote value.text
  | array [] => "[]"
  | array (t :: others) => "[ " ++ t.text ++ textBehind others

/-- The text behind the first element of an array, where others follow it. -/
def textBehind : List PlainValue → String
  | [] => " ]"
  | t :: others => ", " ++ t.text ++ textBehind others

end

theorem toList_textBehind_cons (t : PlainValue) (others : List PlainValue) :
    (textBehind (t :: others)).toList =
      ',' :: ' ' :: (t.text.toList ++ (textBehind others).toList) := by
  have hmark : ", ".toList = [',', ' '] := by decide
  rw [textBehind, String.toList_append, String.toList_append, hmark]
  rfl

theorem toList_text_cons (t : PlainValue) (others : List PlainValue) :
    (text (array (t :: others))).toList =
      '[' :: ' ' :: (t.text.toList ++ (textBehind others).toList) := by
  have hmark : "[ ".toList = ['[', ' '] := by decide
  rw [text, String.toList_append, String.toList_append, hmark]
  rfl

/-- The literal of a natural number as an unbounded integer. -/
def bigintLiteral (n : Nat) : Expression :=
  .literal (.bigint (String.ofList (Nat.toDigits 10 n)))

mutual

/-- The expression that the text of a value is. -/
def expression : PlainValue → Expression
  | undefined => .identifier "undefined"
  | null => .literal .null
  | boolean value => .literal (.boolean value)
  | bigint (.ofNat n) => bigintLiteral n
  | bigint (.negSucc n) => .unary .minus (bigintLiteral (n + 1))
  | string value => .literal (.string value.text)
  | array elements => .array (expressions elements)

/-- The expressions of the elements of an array. -/
def expressions : List PlainValue → List (Option Expression)
  | [] => []
  | t :: others => some t.expression :: expressions others

end

mutual

/-- The strings of a value. -/
def strings : PlainValue → List UnitString
  | string value => [value]
  | array elements => stringsAmong elements
  | _ => []

/-- The strings of some values. -/
def stringsAmong : List PlainValue → List UnitString
  | [] => []
  | t :: others => t.strings ++ stringsAmong others

end

/-- No string of the value has a separator. -/
def IsOnLine (t : PlainValue) : Prop := ∀ s ∈ t.strings, Text.IsOnLine s.text.toList

/-- No string of the values has a separator. -/
def AreOnLine (elements : List PlainValue) : Prop :=
  ∀ s ∈ stringsAmong elements, Text.IsOnLine s.text.toList

theorem areOnLine_cons {t : PlainValue} {others : List PlainValue} :
    AreOnLine (t :: others) ↔ t.IsOnLine ∧ AreOnLine others := by
  unfold AreOnLine IsOnLine
  rw [stringsAmong, List.forall_mem_append]

/-! ## The first token -/

/-- The first token of the text. -/
def token : PlainValue → Token
  | undefined => .identifier "undefined"
  | null => .null
  | boolean value => .boolean value
  | bigint (.ofNat n) => .bigint (String.ofList (Nat.toDigits 10 n))
  | bigint (.negSucc _) => .punctuator .minus
  | string value => .string value.text
  | array _ => .punctuator .leftBracket

/-- The text behind the first token. -/
def behind : PlainValue → List Char
  | bigint (.negSucc n) => Nat.toDigits 10 (n + 1) ++ ['n']
  | array [] => [']']
  | array (t :: others) => ' ' :: (t.text.toList ++ (textBehind others).toList)
  | _ => []

/-- The value is no string with a separator. -/
def HasToken (t : PlainValue) : Prop := ∀ s, t = string s → Text.IsOnLine s.text.toList

/-- A word ends here. -/
def EndsWord (rest : List Char) : Prop :=
  ∀ ch ∈ rest.head?, isIdentifierPart ch = false ∧ ch ≠ '\\'

/-- The characters of the text are those of one name. -/
def isName (word : String) : Bool :=
  match word.toList with
  | [] => false
  | ch :: name => Lexer.isPlainStart ch && isIdentifierStart ch && name.all isIdentifierPart

theorem begins_name (word : String) (hword : isName word = true) {rest : List Char}
    (hrest : EndsWord rest) :
    Lexer.Begins (word.toList ++ rest) (Lexer.nameToken word false) rest := by
  unfold isName at hword
  split at hword
  · cases hword
  · next ch name hchars =>
    simp only [Bool.and_eq_true, List.all_eq_true] at hword
    have hbegins := Lexer.begins_name hword.1.1 hword.1.2 hword.2 hrest
    rw [← hchars, String.ofList_toList, ← List.cons_append, ← hchars] at hbegins
    exact hbegins

theorem toList_toText_ofNat (n : Nat) :
    (Integer.toText (.ofNat n)).toList = Nat.toDigits 10 n := by
  rw [Integer.toText, ← String.toList_ofList (l := Nat.toDigits 10 n)]
  exact congrArg String.toList Nat.toString_eq_ofList_toDigits

theorem toList_toText_negSucc (n : Nat) :
    (Integer.toText (.negSucc n)).toList = '-' :: Nat.toDigits 10 (n + 1) := by
  rw [Integer.toText, ← String.toList_ofList (l := '-' :: Nat.toDigits 10 (n + 1)),
    String.ofList_cons, ← Nat.toString_eq_ofList_toDigits]
  rfl

/-- The text of a value begins with its first token, unless that is a string with a separator. -/
theorem begins_text {t : PlainValue} (ht : t.HasToken) {rest : List Char} (hrest : EndsWord rest) :
    Lexer.Begins (t.text.toList ++ rest) t.token (t.behind ++ rest) := by
  match t with
  | undefined => exact begins_name "undefined" (by decide) hrest
  | null => exact begins_name "null" (by decide) hrest
  | boolean true => exact begins_name "true" (by decide) hrest
  | boolean false => exact begins_name "false" (by decide) hrest
  | bigint (.ofNat n) =>
    rw [text, String.toList_append, toList_toText_ofNat]
    simpa [token, behind] using Lexer.begins_bigint n rest
  | bigint (.negSucc n) =>
    obtain ⟨first, digits, hn⟩ :=
      List.exists_cons_of_ne_nil (Nat.toDigits_ne_nil (n := n + 1) (b := 10))
    have hfirst := Number.isDecimalDigit_of_mem_digits hn List.mem_cons_self
    rw [text, String.toList_append, toList_toText_negSucc, behind, hn]
    simpa [token] using Lexer.begins_minus hfirst (digits ++ 'n' :: rest)
  | string s =>
    rw [text]
    exact Lexer.begins_quote (ht s rfl) rest
  | array [] => exact Lexer.begins_mark .leftBracket (by decide) _
  | array (t :: others) =>
    rw [toList_text_cons]
    exact Lexer.begins_mark .leftBracket (by decide) _

end PlainValue

end EcmaEval

/-! # Reading plain values again -/

namespace EcmaEval

/-- A token is at hand, and a text is behind it. -/
structure Reading.Has (r : Reading) (token : Token) (rest : List Char) : Prop where
  current : r.current = token
  rest : r.cursor.rest = rest

namespace Parse

variable {α β : Type} {p : Parse α} {c : Context} {r s : Reading} {token : Token}
  {text rest : List Char} {cause : LexCause} {good : Prop} {x : α}

theorem exists_advance_of_begins (h : Lexer.Begins text token rest) (htoken : token ≠ .lineEnd)
    (hr : r.cursor.rest.dropWhile Text.isSeparator = text) (c : Context) :
    ∃ d, advance c r = .ok ((), ⟨token, false, d⟩) ∧ d.rest = rest := by
  obtain ⟨d, hd, hrest⟩ := h r.cursor hr
  refine ⟨d, ?_, hrest⟩
  unfold advance
  rw [Lexer.nextOnLine_of_token hd htoken]

theorem advance_of_begins (h : Lexer.Begins text token rest) (htoken : token ≠ .lineEnd)
    (hr : r.cursor.rest.dropWhile Text.isSeparator = text) (c : Context) :
    ∃ s, advance c r = .ok ((), s) ∧ s.Has token rest := by
  obtain ⟨d, hd, hrest⟩ := exists_advance_of_begins h htoken hr c
  exact ⟨_, hd, rfl, hrest⟩

theorem advance_of_breaks (h : Lexer.Breaks text cause)
    (hr : r.cursor.rest.dropWhile Text.isSeparator = text) (c : Context) :
    ∃ e : SyntaxError, advance c r = .error e ∧ e.cause = .lexical cause := by
  obtain ⟨d, hd⟩ := h r.cursor hr
  refine ⟨⟨.lexical cause, d.toPosition, false⟩, ?_, rfl⟩
  unfold advance
  rw [Lexer.nextOnLine_of_error hd]

/-- Reading gives a value and stops at a token, if the text is good.  Otherwise it fails at the end
of a line in a string. -/
inductive Rereads (good : Prop) (x : α) (token : Token) (rest : List Char) :
    Except SyntaxError (α × Reading) → Prop where
  | read {s : Reading} (hgood : good) (hs : s.Has token rest) : Rereads good x token rest (.ok (x, s))
  | broken {e : SyntaxError} (hbad : ¬good) (he : e.cause = .lexical .unterminatedString) :
    Rereads good x token rest (.error e)

theorem Rereads.bind {good' : Prop} {f : α → Parse β} {y : β} {token' : Token} {rest' : List Char}
    (h : Rereads good x token rest (p c r)) (hbad : ¬good → ¬good')
    (hf : ∀ s, good → s.Has token rest → Rereads good' y token' rest' (f x c s)) :
    Rereads good' y token' rest' ((p >>= f) c r) := by
  rw [bind_apply]
  generalize p c r = result at h
  cases h with
  | read hgood hs => exact hf _ hgood hs
  | broken hgood he => exact .broken (hbad hgood) he

/-- What follows reading gives the value in another form. -/
theorem Rereads.bind_pure (h : Rereads good x token rest (p c r)) (f : α → β) :
    Rereads good (f x) token rest ((p >>= fun y => pure (f y)) c r) :=
  h.bind id fun _ hgood hs => .read hgood hs

end Parse

namespace PlainValue

open Parse Grammar

/-! ## What may follow a value -/

/-- The text closes an expression: it is empty, or it begins with a comma or a bracket. -/
inductive Closes : List Char → Token → List Char → Prop where
  | finish : Closes [] .endOfInput []
  | comma (rest : List Char) : Closes (',' :: rest) (.punctuator .comma) rest
  | bracket (rest : List Char) : Closes (' ' :: ']' :: rest) (.punctuator .rightBracket) rest

variable {α : Type} {c : Context} {r : Reading} {token : Token} {behind rest : List Char} {t : PlainValue}
  {others : List PlainValue} {depth : Nat}

theorem Closes.advance (h : Closes behind token rest) (hr : r.cursor.rest = behind) (c : Context) :
    ∃ s, advance c r = .ok ((), s) ∧ s.Has token rest := by
  cases h with
  | finish => exact advance_of_begins Lexer.begins_end nofun (by rw [hr]; rfl) c
  | comma rest => exact advance_of_begins (Lexer.begins_mark .comma (by decide) rest) nofun (by rw [hr]; rfl) c
  | bracket rest =>
    exact advance_of_begins (Lexer.begins_mark .rightBracket (by decide) rest) nofun (by rw [hr]; rfl) c

theorem Closes.closesOperand (h : Closes behind token rest) : token.closesOperand = true := by
  cases h <;> rfl

theorem Closes.assignmentOperator? (h : Closes behind token rest) :
    assignmentOperator? token = none := by
  cases h <;> rfl

theorem Closes.endsWord (h : Closes behind token rest) : EndsWord behind := by
  cases h with
  | finish => exact nofun
  | comma rest => rintro _ ⟨⟩; decide
  | bracket rest => rintro _ ⟨⟩; decide

/-- A value passed, whose expression is known. -/
theorem Closes.rereads {good : Prop} (h : Closes behind token rest) (hgood : good)
    (hr : r.cursor.rest = behind) (x : α) :
    Rereads good x token rest ((Parse.advance >>= fun _ => pure x) c r) := by
  obtain ⟨s, hadvance, hs⟩ := h.advance hr c
  rw [bind_of_ok hadvance]
  exact .read hgood hs

/-! ## Values -/

/-- The text of a value is read as an operand, from its first token on. -/
def RereadsUnary (t : PlainValue) : Prop :=
  ∀ ⦃depth c r behind token rest⦄, t.text.length ≤ depth → c.inGenerator = false → t.HasToken →
    r.Has t.token (t.behind ++ behind) → Closes behind token rest →
    Rereads t.IsOnLine t.expression token rest (unary (.ofDepth depth) c r)

theorem fuel_ofDepth (depth : Nat) : (Phrases.ofDepth depth).fuel = depth := by
  cases depth <;> rfl

/-- A smallest expression is read as an operand. -/
theorem rereads_unary_of_primary (hdepth : 0 < depth) (hr : opensPrimary c r.current = true)
    {good : Prop} {e : Expression} (hclose : Closes behind token rest)
    (h : Rereads good e token rest (primary (.ofDepth depth) c r)) :
    Rereads good e token rest (unary (.ofDepth depth) c r) := by
  generalize hresult : primary (.ofDepth depth) c r = result at h
  have hfuel : 0 < (Phrases.ofDepth depth).fuel := by rwa [fuel_ofDepth]
  cases h with
  | read hgood hs =>
    rw [unary_of_primary hfuel hr hresult (hs.current ▸ hclose.closesOperand)]
    exact .read hgood hs
  | broken hbad he =>
    rw [unary_of_primary_error hr hresult]
    exact .broken hbad he

theorem rereads_assignment (hdepth : 0 < depth) (hc : c.inGenerator = false) {good : Prop}
    {e : Expression} (hclose : Closes behind token rest)
    (h : Rereads good e token rest (unary (.ofDepth depth) c r)) :
    Rereads good e token rest (assignment (.ofDepth depth) c r) := by
  generalize hresult : unary (.ofDepth depth) c r = result at h
  have hfuel : 0 < (Phrases.ofDepth depth).fuel := by rwa [fuel_ofDepth]
  cases h with
  | read hgood hs =>
    rw [assignment_of_conditional hc
      (conditional_of_unary hfuel hresult (hs.current ▸ hclose.closesOperand))
      (hs.current ▸ hclose.assignmentOperator?)]
    exact .read hgood hs
  | broken hbad he =>
    rw [assignment_of_conditional_error hc (conditional_of_unary_error hresult)]
    exact .broken hbad he

/-! ### The beginning of a text -/

/-- A text that begins with a printing character has no blanks in front. -/
theorem dropWhile_isSeparator {ch : Char} (hlow : 0x20 < ch.toNat) (hhigh : ch.toNat < 0x85)
    (cs : List Char) : (ch :: cs).dropWhile Text.isSeparator = ch :: cs := by
  have hmark : ch ≠ Text.byteOrderMark := by
    rintro rfl
    revert hhigh
    decide
  refine List.dropWhile_cons_of_neg ?_
  simp [Text.isSeparator, Text.isWhiteSpace_eq_false hlow hhigh, hmark]

theorem exists_text_eq_cons (t : PlainValue) :
    ∃ ch cs, t.text.toList = ch :: cs ∧ 0x20 < ch.toNat ∧ ch.toNat < 0x85 := by
  match t with
  | undefined => exact ⟨'u', ['n', 'd', 'e', 'f', 'i', 'n', 'e', 'd'], by decide⟩
  | null => exact ⟨'n', ['u', 'l', 'l'], by decide⟩
  | boolean true => exact ⟨'t', ['r', 'u', 'e'], by decide⟩
  | boolean false => exact ⟨'f', ['a', 'l', 's', 'e'], by decide⟩
  | bigint (.ofNat n) =>
    obtain ⟨first, digits, hn⟩ :=
      List.exists_cons_of_ne_nil (Nat.toDigits_ne_nil (n := n) (b := 10))
    have hfirst := Number.isDecimalDigit_iff.mp
      (Number.isDecimalDigit_of_mem_digits hn List.mem_cons_self)
    rw [text, String.toList_append, toList_toText_ofNat, hn]
    exact ⟨first, _, rfl, by omega, by omega⟩
  | bigint (.negSucc n) =>
    rw [text, String.toList_append, toList_toText_negSucc]
    exact ⟨'-', _, rfl, by decide, by decide⟩
  | string s =>
    rw [text, Text.quote, String.toList_ofList]
    exact ⟨'"', _, rfl, by decide, by decide⟩
  | array [] => exact ⟨'[', [']'], by decide⟩
  | array (t :: others) =>
    rw [toList_text_cons]
    exact ⟨'[', _, rfl, by decide, by decide⟩

theorem dropWhile_text (t : PlainValue) (rest : List Char) :
    (t.text.toList ++ rest).dropWhile Text.isSeparator = t.text.toList ++ rest := by
  obtain ⟨ch, cs, htext, hlow, hhigh⟩ := t.exists_text_eq_cons
  rw [htext]
  exact dropWhile_isSeparator hlow hhigh _

theorem length_text_pos (t : PlainValue) : 0 < t.text.length := by
  obtain ⟨ch, cs, htext, -⟩ := t.exists_text_eq_cons
  rw [← String.length_toList, htext]
  exact Nat.succ_pos _

/-! ### The forms of a value -/

/-- A literal is read as itself. -/
theorem rereads_literal {l : Literal} (hdepth : 0 < depth) (htoken : opensPrimary c token = true)
    (hprimary : ∀ inner r, r.current = token →
      primary inner c r = (advance >>= fun _ => pure (.literal l) : Parse Expression) c r)
    {close : Token} (hr : r.Has token behind) (hclose : Closes behind close rest) {good : Prop}
    (hgood : good) : Rereads good (.literal l) close rest (unary (.ofDepth depth) c r) := by
  refine rereads_unary_of_primary hdepth (hr.current ▸ htoken) hclose ?_
  rw [hprimary _ r hr.current]
  exact hclose.rereads hgood hr.rest _

theorem rereads_bigintLiteral (n : Nat) (hdepth : 0 < depth)
    (hr : r.Has (.bigint (String.ofList (Nat.toDigits 10 n))) behind)
    (hclose : Closes behind token rest) {good : Prop} (hgood : good) :
    Rereads good (bigintLiteral n) token rest (unary (.ofDepth depth) c r) :=
  rereads_literal hdepth rfl (fun _ r hcurrent => by rw [primary, current_bind, hcurrent]) hr hclose
    hgood

theorem rereadsUnary_undefined : RereadsUnary undefined := by
  intro depth c r behind token rest hdepth _ _ hr hclose
  have hgood : undefined.IsOnLine := by simp [IsOnLine, strings]
  refine rereads_unary_of_primary (Nat.zero_lt_of_lt hdepth) (hr.current ▸ rfl) hclose ?_
  have hprimary (inner : Phrases) : primary inner c r = named inner c r := by
    rw [primary, current_bind, hr.current]
    rfl
  have hname : c.name? r.current = some "undefined" := by rw [hr.current]; rfl
  obtain ⟨s, hadvance, hs⟩ := hclose.advance hr.rest c
  have harrow : s.current.isMark .arrow = false :=
    isMark_of_closesOperand (hs.current ▸ hclose.closesOperand) rfl
  rw [hprimary, named, expectName, bind_assoc, name?_bind, hname]
  dsimp only
  rw [bind_assoc, bind_of_ok hadvance, pure_bind, atArrow, bind_assoc, atMark_bind, harrow]
  exact .read hgood hs

theorem rereadsUnary_null : RereadsUnary null := by
  intro depth c r behind token rest hdepth _ _ hr hclose
  refine rereads_literal ((length_text_pos _).trans_le hdepth) rfl (fun _ r hcurrent => ?_) hr
    hclose ?_
  · rw [primary, current_bind, hcurrent]
    rfl
  · simp [IsOnLine, strings]

theorem rereadsUnary_boolean (value : Bool) : RereadsUnary (boolean value) := by
  intro depth c r behind token rest hdepth _ _ hr hclose
  refine rereads_literal ((length_text_pos _).trans_le hdepth) rfl (fun _ r hcurrent => ?_) hr
    hclose ?_
  · rw [primary, current_bind, hcurrent]
    rfl
  · simp [IsOnLine, strings]

theorem rereadsUnary_string (s : UnitString) : RereadsUnary (string s) := by
  intro depth c r behind token rest hdepth _ htoken hr hclose
  refine rereads_literal ((length_text_pos _).trans_le hdepth) rfl (fun _ r hcurrent => ?_) hr
    hclose ?_
  · rw [primary, current_bind, hcurrent]
    rfl
  · simpa [IsOnLine, strings] using htoken s rfl

theorem rereadsUnary_bigint (value : Int) : RereadsUnary (bigint value) := by
  intro depth c r behind token rest hdepth _ _ hr hclose
  have hgood : (bigint value).IsOnLine := by simp [IsOnLine, strings]
  cases value with
  | ofNat n => exact rereads_bigintLiteral n ((length_text_pos _).trans_le hdepth) hr hclose hgood
  | negSucc n =>
    -- The sign stands before an operand of its own, which is one level deeper.
    obtain ⟨depth, rfl⟩ : ∃ d, depth = d + 2 := by
      refine Nat.exists_eq_add_of_le' (le_trans ?_ hdepth)
      rw [text, String.length_append, ← String.length_toList, toList_toText_negSucc]
      exact Nat.le_add_left 2 _
    have hdigits : (r.cursor.rest).dropWhile Text.isSeparator =
        Nat.toDigits 10 (n + 1) ++ 'n' :: behind := by
      obtain ⟨first, digits, hn⟩ :=
        List.exists_cons_of_ne_nil (Nat.toDigits_ne_nil (n := n + 1) (b := 10))
      have hfirst := Number.isDecimalDigit_iff.mp
        (Number.isDecimalDigit_of_mem_digits hn List.mem_cons_self)
      rw [hr.rest, PlainValue.behind, hn, List.append_assoc, List.cons_append]
      exact dropWhile_isSeparator (by omega) (by omega) _
    obtain ⟨s, hadvance, hs⟩ := advance_of_begins (Lexer.begins_bigint (n + 1) behind) (by simp) hdigits c
    have hunary : unary (.ofDepth (depth + 2)) c r = (do
        advance
        let operand ← unary (.ofDepth (depth + 1))
        return .unary .minus operand : Parse Expression) c r := by
      rw [unary, current_bind, hr.current]
      rfl
    rw [hunary, bind_of_ok hadvance]
    exact (rereads_bigintLiteral (n + 1) (Nat.succ_pos _) hs hclose hgood).bind_pure
      (Expression.unary .minus)

/-! ### Arrays -/

theorem token_isMark (t : PlainValue) {mark : Punctuator} (hminus : mark ≠ .minus)
    (hbracket : mark ≠ .leftBracket) : t.token.isMark mark = false := by
  match t with
  | undefined | null | boolean _ | bigint (.ofNat _) | string _ => rfl
  | bigint (.negSucc _) => exact beq_false_of_ne hminus.symm
  | array _ => exact beq_false_of_ne hbracket.symm

theorem token_ne_lineEnd (t : PlainValue) : t.token ≠ .lineEnd := by
  match t with
  | undefined | null | boolean _ | bigint (.ofNat _) | string _ | bigint (.negSucc _) | array _ =>
    exact nofun

/-- The text of a value is passed up to its first token, or fails there. -/
theorem advance_text (t : PlainValue) (hrest : EndsWord rest)
    (hr : r.cursor.rest.dropWhile Text.isSeparator = t.text.toList ++ rest) :
    (∃ s, advance c r = .ok ((), s) ∧ t.HasToken ∧ s.Has t.token (t.behind ++ rest)) ∨
      ∃ e : SyntaxError, advance c r = .error e ∧ ¬t.IsOnLine ∧
        e.cause = .lexical .unterminatedString := by
  by_cases ht : t.HasToken
  · obtain ⟨s, hadvance, hs⟩ := advance_of_begins (begins_text ht hrest) t.token_ne_lineEnd hr c
    exact .inl ⟨s, hadvance, ht, hs⟩
  · obtain ⟨s, rfl, hs⟩ : ∃ s, t = string s ∧ ¬Text.IsOnLine s.text.toList := by
      simpa [HasToken] using ht
    obtain ⟨e, hadvance, he⟩ := advance_of_breaks (Lexer.breaks_quote hs rest) (by rw [hr, text]) c
    exact .inr ⟨e, hadvance, fun h => hs (h s List.mem_cons_self), he⟩

/-- An element of an array literal, from a token that begins a value. -/
theorem arrayElement_eq (hr : r.current = t.token) :
    arrayElement (.ofDepth (depth + 1)) c r = (do
      let value ← assignment (.ofDepth depth)
      separator .rightBracket
      return some value : Parse (Option Expression)) c r := by
  have hcomma : r.current.isMark .comma = false := hr ▸ t.token_isMark nofun nofun
  have hellipsis : r.current.isMark .ellipsis = false := hr ▸ t.token_isMark nofun nofun
  rw [arrayElement, skipMark_of_not hcomma, if_neg Bool.false_ne_true, spreadable, bind_assoc,
    skipMark_of_not hellipsis]
  rfl

/-- An element of an array is read, and then what follows it up to the bracket. -/
theorem rereads_element (hc : c.inGenerator = false) {fuel : Nat} (ht : t.RereadsUnary)
    (hdepth : t.text.length ≤ depth) (hclose : Closes behind token rest)
    (hr : r.cursor.rest.dropWhile Text.isSeparator = t.text.toList ++ behind) {good : Prop}
    {values : List (Option Expression)} {close : Token} {rest' : List Char}
    (hothers : ∀ s, s.Has token rest → Rereads good values close rest'
      ((do
        separator .rightBracket
        untilToken (·.isMark .rightBracket) (arrayElement (.ofDepth (depth + 1))) fuel :
          Parse (List (Option Expression))) c s)) :
    Rereads (t.IsOnLine ∧ good) (some t.expression :: values) close rest'
      ((do
        advance
        untilToken (·.isMark .rightBracket) (arrayElement (.ofDepth (depth + 1))) (fuel + 1) :
          Parse (List (Option Expression))) c r) := by
  rcases advance_text (c := c) t hclose.endsWord hr with ⟨s, hadvance, htoken, hs⟩ |
    ⟨e, hadvance, hbad, he⟩
  · have hopen : s.current.isMark .rightBracket = false := hs.current ▸ t.token_isMark nofun nofun
    have hvalue := rereads_assignment ((length_text_pos t).trans_le hdepth) hc hclose
      (ht hdepth hc htoken hs hclose)
    rw [bind_of_ok hadvance, untilToken, current_bind, hopen, if_neg Bool.false_ne_true,
      bind_apply, arrayElement_eq hs.current, ← bind_apply, bind_assoc]
    refine hvalue.bind (fun hbad h => hbad h.1) fun s' hgood hs' => ?_
    rw [bind_assoc]
    simp only [pure_bind]
    rw [← bind_assoc]
    exact (hothers s' hs').bind (fun hbad h => hbad h.2) fun s'' hgood' hs'' =>
      .read ⟨hgood, hgood'⟩ hs''
  · rw [bind_of_error hadvance]
    exact .broken (fun h => hbad h.1) he

/-- The elements of an array are read up to its bracket. -/
theorem rereads_elements (hc : c.inGenerator = false) {fuel : Nat}
    (ht : ∀ u ∈ t :: others, u.RereadsUnary)
    (hdepth : t.text.length + (textBehind others).length ≤ depth) (hfuel : others.length + 1 < fuel)
    (hr : r.cursor.rest.dropWhile Text.isSeparator =
      t.text.toList ++ ((textBehind others).toList ++ rest)) :
    Rereads (AreOnLine (t :: others)) (expressions (t :: others)) (.punctuator .rightBracket) rest
      ((do
        advance
        untilToken (·.isMark .rightBracket) (arrayElement (.ofDepth (depth + 1))) fuel :
          Parse (List (Option Expression))) c r) := by
  simp only [areOnLine_cons, expressions]
  induction others generalizing t r fuel with
  | nil =>
    obtain ⟨fuel, rfl⟩ : ∃ k, fuel = k + 2 := Nat.exists_eq_add_of_le' hfuel
    refine rereads_element hc (ht t List.mem_cons_self) (Nat.le_of_add_right_le hdepth)
      (.bracket rest) hr fun s hs => ?_
    have hmark : s.current.isMark .rightBracket = true := by rw [hs.current]; rfl
    rw [separator_of_isMark hmark, untilToken, current_bind, hmark, if_pos rfl]
    exact .read nofun hs
  | cons u others ih =>
    obtain ⟨fuel, rfl⟩ := Nat.exists_eq_succ_of_ne_zero (Nat.ne_zero_of_lt hfuel)
    rw [toList_textBehind_cons, List.cons_append, List.cons_append] at hr
    refine rereads_element hc (ht t List.mem_cons_self) (Nat.le_of_add_right_le hdepth)
      (.comma _) hr fun s hs => ?_
    have hmark : s.current.isMark .rightBracket = false := by rw [hs.current]; rfl
    have hcomma : s.current.isMark .comma = true := by rw [hs.current]; rfl
    rw [separator_of_not hmark, expect_of_isMark hcomma]
    have hlength : (textBehind (u :: others)).length =
        2 + u.text.length + (textBehind others).length := by
      rw [textBehind, String.length_append, String.length_append, show ", ".length = 2 from rfl]
    rw [areOnLine_cons, expressions]
    refine ih (fun v hv => ht v (List.mem_cons_of_mem _ hv)) (by omega)
      (Nat.lt_of_succ_lt_succ hfuel) ?_
    rw [hs.rest, List.append_assoc]
    exact u.dropWhile_text _

theorem length_textBehind (others : List PlainValue) : others.length + 2 ≤ (textBehind others).length := by
  induction others with
  | nil => decide
  | cons t others ih =>
    rw [textBehind, String.length_append, String.length_append, List.length_cons]
    have := t.length_text_pos
    omega

/-- An array literal, from its bracket on.  Its elements are read where the operator `in` is
allowed. -/
theorem primary_eq_elements (hr : r.current = .punctuator .leftBracket) (inner : Phrases) :
    primary inner c r = (do
      let elements ← (do
        advance
        untilToken (·.isMark .rightBracket) (arrayElement inner) inner.fuel)
      advance
      return .array elements : Parse Expression) { c with noIn := false } r := by
  have hbracket : r.current.isMark .leftBracket = true := by rw [hr]; rfl
  have hprimary : primary inner c r = arrayLiteral inner c r := by
    rw [primary, current_bind, hr]
  rw [hprimary, arrayLiteral, expect_of_isMark hbracket, bind_assoc]
  change (advance >>= fun _ => untilMark .rightBracket (arrayElement inner) inner.fuel >>=
    fun elements => pure (.array elements) : Parse Expression) { c with noIn := false } r = _
  simp only [untilMark, bind_assoc, pure_bind]

theorem rereadsUnary_array {elements : List PlainValue} (ht : ∀ t ∈ elements, t.RereadsUnary) :
    RereadsUnary (array elements) := by
  intro depth c r behind token rest hdepth hc _ hr hclose
  have hpos := (length_text_pos _).trans_le hdepth
  refine rereads_unary_of_primary hpos (hr.current ▸ rfl) hclose ?_
  rw [primary_eq_elements hr.current, fuel_ofDepth]
  -- The bracket behind the elements is passed up to what closes the value.
  suffices helements : Rereads (AreOnLine elements) (expressions elements)
      (.punctuator .rightBracket) behind
      ((do
        advance
        untilToken (·.isMark .rightBracket) (arrayElement (.ofDepth depth)) depth :
          Parse (List (Option Expression))) { c with noIn := false } r) from
    helements.bind (fun hbad h => hbad h) fun s hgood hs => hclose.rereads hgood hs.rest _
  cases elements with
  | nil =>
    obtain ⟨s, hadvance, hs⟩ := advance_of_begins (Lexer.begins_mark .rightBracket (by decide) behind) nofun
      (by rw [hr.rest]; rfl) { c with noIn := false }
    have hmark : s.current.isMark .rightBracket = true := by rw [hs.current]; rfl
    obtain ⟨depth, rfl⟩ := Nat.exists_eq_succ_of_ne_zero hpos.ne'
    rw [bind_of_ok hadvance, untilToken, current_bind, hmark, if_pos rfl]
    exact .read nofun hs
  | cons t others =>
    have hlength := length_textBehind others
    rw [← String.length_toList, toList_text_cons, List.length_cons, List.length_cons,
      List.length_append, String.length_toList, String.length_toList] at hdepth
    obtain ⟨depth, rfl⟩ := Nat.exists_eq_succ_of_ne_zero hpos.ne'
    refine rereads_elements (by exact hc) ht (by omega) (by omega) ?_
    rw [hr.rest, PlainValue.behind, List.cons_append, List.append_assoc]
    exact t.dropWhile_text _

/-- The text of a value is an operand. -/
theorem rereadsUnary (t : PlainValue) : t.RereadsUnary := by
  induction t using PlainValue.induction with
  | undefined => exact rereadsUnary_undefined
  | null => exact rereadsUnary_null
  | boolean value => exact rereadsUnary_boolean value
  | bigint value => exact rereadsUnary_bigint value
  | string s => exact rereadsUnary_string s
  | array elements ih => exact rereadsUnary_array ih

/-! ## Programs -/

/-- No label stands where the text of a value does. -/
theorem atLabel_eq (hr : r.Has t.token t.behind) : atLabel c r = .ok (false, r) := by
  rw [atLabel, name?_bind, hr.current]
  match t with
  | undefined =>
    obtain ⟨line, d, hd, -⟩ := (Lexer.ends_of_end hr.rest).endsOnLine false
    have hpeek : peek c r = .ok ((.endOfInput, line), r) := by
      unfold peek
      rw [hd]
    exact bind_of_ok hpeek
  | null | boolean _ | bigint (.ofNat _) | bigint (.negSucc _) | string _ | array _ => rfl

/-- What begins as a value is no statement but an expression. -/
theorem item_eq (hr : r.current = t.token) (inner : Phrases) :
    item inner c r = expressionStatement inner c r := by
  have hstatement : statement inner c r = expressionStatement inner c r := by
    rw [statement, current_bind, hr]
    match t with
    | undefined | null | boolean _ | bigint (.ofNat _) | bigint (.negSucc _) | string _ | array _ =>
      rfl
  rw [item, current_bind, hr, ← hstatement]
  match t with
  | undefined | null | boolean _ | bigint (.ofNat _) | bigint (.negSucc _) | string _ | array _ => rfl

theorem token_isEnd (t : PlainValue) : t.token.isEnd = false := by
  match t with
  | undefined | null | boolean _ | bigint (.ofNat _) | bigint (.negSucc _) | string _ | array _ => rfl

/-- The text of a value is a statement. -/
theorem rereads_item (hdepth : t.text.length ≤ depth) (hc : c.inGenerator = false)
    (htoken : t.HasToken) (hr : r.Has t.token t.behind) :
    Rereads t.IsOnLine (.expression t.expression) .endOfInput [] (item (.ofDepth depth) c r) := by
  have hpos := (length_text_pos t).trans_le hdepth
  rw [item_eq hr.current, expressionStatement, bind_of_ok (atLabel_eq hr), if_neg Bool.false_ne_true,
    Grammar.expression, bind_assoc]
  have hexpression : Rereads t.IsOnLine t.expression .endOfInput []
      (assignment (.ofDepth depth) c r) := by
    rw [← List.append_nil t.behind] at hr
    exact rereads_assignment hpos hc .finish (t.rereadsUnary hdepth hc htoken hr .finish)
  refine hexpression.bind id fun s hgood hs => ?_
  obtain ⟨fuel, hfuel⟩ : ∃ k, (Phrases.ofDepth depth).fuel = k + 1 := by
    rw [fuel_ofDepth]
    exact Nat.exists_eq_succ_of_ne_zero hpos.ne'
  have hcomma : s.current.isMark .comma = false := by rw [hs.current]; rfl
  have hend : endStatement c s = .ok ((), s) := by
    rw [endStatement, current_bind, hs.current]
    rfl
  have htail : sequenceTail (.ofDepth depth) (Phrases.ofDepth depth).fuel c s = .ok ([], s) := by
    rw [hfuel, sequenceTail, skipMark_of_not hcomma]
    rfl
  rw [bind_assoc, bind_of_ok htail]
  dsimp only
  rw [pure_bind, bind_of_ok hend]
  exact .read hgood hs

end PlainValue

open PlainValue Parse Grammar

theorem PlainValue.rereads_program (options : ParseOptions) (t : PlainValue) (start : Cursor)
    (hstart : start.rest = t.text.toList) {depth : Nat} (hdepth : t.text.length < depth) :
    Rereads t.IsOnLine ⟨[.expression t.expression]⟩ .endOfInput []
      (program (.ofDepth depth) { options } ⟨.endOfInput, false, start⟩) := by
  have htext : start.rest.dropWhile Text.isSeparator = t.text.toList ++ [] := by
    rw [hstart, ← List.append_nil t.text.toList, t.dropWhile_text, List.append_assoc]
    rfl
  obtain ⟨fuel, hfuel⟩ : ∃ k, (Phrases.ofDepth depth).fuel = k + 2 := by
    rw [fuel_ofDepth]
    exact Nat.exists_eq_add_of_le' ((Nat.succ_le_of_lt t.length_text_pos).trans_lt hdepth)
  rw [program]
  have hnil : EndsWord [] := nofun
  rcases advance_text (r := ⟨.endOfInput, false, start⟩) (c := { options }) t hnil htext
    with ⟨s, hadvance, htoken, hs⟩ | ⟨e, hadvance, hbad, he⟩
  · have hopen : s.current.isEnd = false := by
      rw [hs.current, t.token_isEnd]
    rw [bind_of_ok hadvance, hfuel, untilToken, bind_assoc, current_bind, hopen,
      if_neg Bool.false_ne_true, bind_assoc]
    rw [List.append_nil] at hs
    have hitem : Rereads t.IsOnLine (.expression t.expression) .endOfInput []
      (item (.ofDepth depth) { options } s) := rereads_item hdepth.le rfl htoken hs
    refine hitem.bind id fun s' hgood hs' => ?_
    have hclosed : s'.current.isEnd = true := by rw [hs'.current]; rfl
    rw [bind_assoc, untilToken, bind_assoc, current_bind, hclosed, if_pos rfl]
    exact .read hgood hs'
  · rw [bind_of_error hadvance]
    exact .broken hbad he

/-- The text of a value is a program, exactly if no string of it has a separator. -/
theorem Program.ofText_text (options : ParseOptions) (t : PlainValue) :
    (t.IsOnLine → Program.ofText options t.text = .ok ⟨[.expression t.expression]⟩) ∧
      (¬t.IsOnLine → ∃ e, Program.ofText options t.text = .error e ∧
        e.cause = .lexical .unterminatedString) := by
  have hdepth : t.text.length < (Cursor.ofText t.text).rest.length + 2 := by
    rw [Cursor.ofText, String.length_toList]
    omega
  have hprogram := t.rereads_program options (.ofText t.text) rfl hdepth
  rw [ofText_eq]
  generalize program _ _ _ = result at hprogram
  cases hprogram with
  | read hgood hs => exact ⟨fun _ => rfl, fun hbad => absurd hgood hbad⟩
  | broken hbad he => exact ⟨fun hgood => absurd hgood hbad, fun _ => ⟨_, rfl, he⟩⟩

end EcmaEval
