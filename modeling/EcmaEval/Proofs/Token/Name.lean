import EcmaEval.Proofs.Token.Basic

/-!
# Escape sequences and names

A complete escape sequence is read where it stands and nowhere else.  One that is broken off is passed
up to the character that breaks it off, and with that.

An identifier is written letter by letter, and a letter is a character of the text or a complete
escape sequence.  A character of the text is looked at before it is taken for a letter, and what an
escape sequence stands for is not.  Behind the letters an escape sequence that is broken off is passed
without belonging to the name.

## Main definitions

* `Escape.IsCodePoint`: the complete escape sequences of identifiers
* `Lexer.Letter`: a character of a name, with the text that stands for it
* `Lexer.SpellsName`: what stands between two cursors where an identifier is read

## Main results

* `Escape.exists_of_readIdentifierEscape`, `Escape.exists_readIdentifierEscape_eq_ok`: an escape
  sequence of an identifier is read exactly where a complete one stands
* `Escape.exists_of_read_error`: what is passed of an escape sequence that is broken off
* `Lexer.exists_spellsName`: what an identifier takes, and when it is one
-/

namespace EcmaEval

open Scan

variable {c d : Cursor} {ch : Char} {digits rest text : List Char}

/-! ## Code points -/

namespace Escape

/-- A number with one more hexadecimal digit. -/
def appendDigit (value : Nat) (ch : Char) : Nat := value * 16 + (hexValue? ch).getD 0

/-- The number that hexadecimal digits write. -/
def number (digits : List Char) : Nat := digits.foldl appendDigit 0

/-- The text is a complete escape sequence of identifiers, behind its backslash, and stands for the
character. -/
inductive IsCodePoint : List Char → Char → Prop where
  | quad {digits : List Char} (hlength : digits.length = 4) (hdigits : digits.all isHex = true) :
    IsCodePoint ('u' :: digits) (charOf (number digits))
  | braced {digits : List Char} (hne : digits ≠ []) (hdigits : digits.all isHex = true)
    (hbound : number digits ≤ 0x10FFFF) :
    IsCodePoint ('u' :: '\x7b' :: (digits ++ ['\x7d'])) (charOf (number digits))

theorem isHex_of_hexValue? {value : Nat} (h : hexValue? ch = some value) : isHex ch = true := by
  rw [isHex, h]
  rfl

theorem exists_hexValue? (h : isHex ch = true) :
    ∃ digit, hexValue? ch = some digit ∧ ∀ value, appendDigit value ch = value * 16 + digit := by
  obtain ⟨digit, hdigit⟩ := Option.isSome_iff_exists.mp h
  exact ⟨digit, hdigit, fun value => by rw [appendDigit, hdigit]; rfl⟩

theorem appendDigit_of_hexValue? {digit : Nat} (h : hexValue? ch = some digit) (value : Nat) :
    appendDigit value ch = value * 16 + digit := by
  rw [appendDigit, h]
  rfl

/-- More digits write a number that is no smaller. -/
theorem le_foldl_appendDigit (digits : List Char) (value : Nat) :
    value ≤ digits.foldl appendDigit value := by
  induction digits generalizing value with
  | nil => exact Nat.le_refl value
  | cons ch digits ih =>
    refine Nat.le_trans ?_ (ih _)
    unfold appendDigit
    omega

/-! ### Four digits -/

theorem exists_of_readQuad {value count : Nat} (h : readQuad c value count = .ok ch d) :
    ∃ digits, c.Moves digits d ∧ digits.length = count ∧ digits.all isHex = true ∧
      ch = charOf (digits.foldl appendDigit value) := by
  induction count generalizing c value with
  | zero =>
    cases h
    exact ⟨[], .refl _, rfl, rfl, rfl⟩
  | succ count ih =>
    unfold readQuad at h
    split at h
    · cases h
    next ch' e hnext =>
    split at h
    · cases h
    next digit hdigit =>
    obtain ⟨digits, hmove, hlength, hhex, rfl⟩ := ih h
    refine ⟨ch' :: digits, .cons hnext hmove, congrArg (· + 1) hlength, ?_, ?_⟩
    · rw [List.all_cons, isHex_of_hexValue? hdigit, hhex]
      rfl
    · rw [List.foldl_cons, appendDigit_of_hexValue? hdigit]

/-- Where a digit is missing, what stands in its place is passed. -/
theorem exists_of_readQuad_error {value count : Nat} {x : LexError}
    (h : readQuad c value count = .error x d) (hcount : digits.length + count = 4)
    (hdigits : digits.all isHex = true) :
    ∃ taken, c.Moves taken d ∧ Opens ('u' :: digits) taken := by
  induction count generalizing c value digits with
  | zero => cases h
  | succ count ih =>
    unfold readQuad at h
    split at h
    · cases h
      exact ⟨[], .refl _, .nil _⟩
    next ch e hnext =>
    have hopen : isOpen ('u' :: digits) = true := isOpen_quad (by omega) hdigits
    split at h
    · cases h
      exact ⟨[ch], .next? hnext, .cons (fun _ => hopen) (.nil _)⟩
    next digit hdigit =>
    have hhex : (digits ++ [ch]).all isHex = true := by
      rw [List.all_append, hdigits, List.all_cons, isHex_of_hexValue? hdigit]
      rfl
    obtain ⟨taken, hmove, htaken⟩ := ih h (by rw [List.length_append, List.length_singleton]; omega)
      hhex
    exact ⟨ch :: taken, .cons hnext hmove, .cons (fun _ => hopen) htaken⟩

theorem exists_readQuad_eq_ok (hdigits : digits.all isHex = true) (value : Nat)
    (hrest : c.rest = digits ++ rest) :
    ∃ d, readQuad c value digits.length = .ok (charOf (digits.foldl appendDigit value)) d ∧
      d.rest = rest := by
  induction digits generalizing c value with
  | nil => exact ⟨c, rfl, hrest⟩
  | cons ch digits ih =>
    rw [List.all_cons, Bool.and_eq_true] at hdigits
    obtain ⟨e, hnext, he⟩ := Cursor.exists_next? hrest
    obtain ⟨digit, hdigit, hvalue⟩ := exists_hexValue? hdigits.1
    obtain ⟨d, hread, hd⟩ := ih hdigits.2 (value * 16 + digit) he
    refine ⟨d, ?_, hd⟩
    rw [List.length_cons, readQuad, hnext]
    dsimp only
    rw [hdigit, List.foldl_cons, hvalue]
    exact hread

/-! ### Digits in braces -/

theorem exists_of_readBraced {value : Nat} {started : Bool}
    (h : readBraced c value started = .ok ch d) :
    ∃ digits, c.Moves (digits ++ ['\x7d']) d ∧ (started = true ∨ digits ≠ []) ∧
      digits.all isHex = true ∧ (digits ≠ [] → digits.foldl appendDigit value ≤ 0x10FFFF) ∧
      ch = charOf (digits.foldl appendDigit value) := by
  fun_induction readBraced c value started with
  | case1 => cases h
  | case2 c value started ch' e hnext _ hclose =>
    cases h
    obtain ⟨hbrace, hstarted⟩ := Bool.and_eq_true_iff.mp hclose
    obtain rfl := eq_of_beq hbrace
    exact ⟨[], .next? hnext, .inl hstarted, rfl, fun hne => absurd rfl hne, rfl⟩
  | case3 => cases h
  | case4 => cases h
  | case5 c value started ch' e hnext _ hclose digit hdigit hbound ih =>
    obtain ⟨digits, hmove, -, hhex, hvalue, rfl⟩ := ih h
    have hfold : (ch' :: digits).foldl appendDigit value =
        digits.foldl appendDigit (value * 16 + digit) := by
      rw [List.foldl_cons, appendDigit_of_hexValue? hdigit]
    refine ⟨ch' :: digits, .cons hnext hmove, .inr (List.cons_ne_nil _ _), ?_, fun _ => ?_, ?_⟩
    · rw [List.all_cons, isHex_of_hexValue? hdigit, hhex]
      rfl
    · rw [hfold]
      by_cases hnil : digits = []
      · subst hnil
        exact Nat.le_of_not_lt hbound
      · exact hvalue hnil
    · rw [hfold]

/-- What is no digit is passed, and so is the digit with which the number is too large. -/
theorem exists_of_readBraced_error {value : Nat} {started : Bool} {x : LexError}
    (h : readBraced c value started = .error x d) (hdigits : digits.all isHex = true) :
    ∃ taken, c.Moves taken d ∧ Opens ('u' :: '\x7b' :: digits) taken := by
  fun_induction readBraced c value started generalizing digits with
  | case1 =>
    cases h
    exact ⟨[], .refl _, .nil _⟩
  | case2 => cases h
  | case3 c value started ch e hnext =>
    cases h
    exact ⟨[ch], .next? hnext, .cons (fun _ => hdigits) (.nil _)⟩
  | case4 c value started ch e hnext =>
    cases h
    exact ⟨[ch], .next? hnext, .cons (fun _ => hdigits) (.nil _)⟩
  | case5 c value started ch e hnext _ _ digit hdigit _ ih =>
    have hhex : (digits ++ [ch]).all isHex = true := by
      rw [List.all_append, hdigits, List.all_cons, isHex_of_hexValue? hdigit]
      rfl
    obtain ⟨taken, hmove, htaken⟩ := ih h hhex
    exact ⟨ch :: taken, .cons hnext hmove, .cons (fun _ => hdigits) htaken⟩

theorem exists_readBraced_eq_ok (hdigits : digits.all isHex = true) (value : Nat) {started : Bool}
    (hstarted : started = true ∨ digits ≠ [])
    (hbound : digits.foldl appendDigit value ≤ 0x10FFFF)
    (hrest : c.rest = digits ++ '\x7d' :: rest) :
    ∃ d, readBraced c value started = .ok (charOf (digits.foldl appendDigit value)) d ∧
      d.rest = rest := by
  induction digits generalizing c value started with
  | nil =>
    obtain ⟨d, hnext, hd⟩ := Cursor.exists_next? hrest
    obtain rfl : started = true := hstarted.resolve_right fun hne => hne rfl
    exact ⟨d, readBraced_of_next? hnext value true, hd⟩
  | cons ch digits ih =>
    rw [List.all_cons, Bool.and_eq_true] at hdigits
    obtain ⟨e, hnext, he⟩ := Cursor.exists_next? hrest
    obtain ⟨digit, hdigit, hvalue⟩ := exists_hexValue? hdigits.1
    rw [List.foldl_cons, hvalue] at hbound
    have hopen : ¬(ch == '\x7d' && started) = true := by
      rintro hclose
      obtain rfl := eq_of_beq (Bool.and_eq_true_iff.mp hclose).1
      exact absurd hdigits.1 (by decide)
    have hless := Nat.le_trans (le_foldl_appendDigit digits (value * 16 + digit)) hbound
    obtain ⟨d, hread, hd⟩ := ih hdigits.2 (value * 16 + digit) (.inl (Eq.refl true)) hbound he
    refine ⟨d, ?_, hd⟩
    rw [readBraced_of_next? hnext, if_neg hopen, hdigit, List.foldl_cons, hvalue]
    dsimp only
    rw [if_neg (Nat.not_lt.mpr hless)]
    exact hread

/-! ### Escapes of identifiers -/

/-- A complete escape sequence is read. -/
theorem exists_of_readCodePoint (h : readCodePoint c = .ok ch d) :
    ∃ text, IsCodePoint ('u' :: text) ch ∧ c.Moves text d := by
  unfold readCodePoint at h
  split at h
  · next e hskip =>
    obtain ⟨digits, hmove, hne, hhex, hbound, rfl⟩ := exists_of_readBraced h
    have hne := hne.resolve_left Bool.false_ne_true
    exact ⟨_, .braced hne hhex (hbound hne), (Cursor.Moves.skipIf? hskip).trans hmove⟩
  · obtain ⟨digits, hmove, hlength, hhex, rfl⟩ := exists_of_readQuad h
    exact ⟨_, .quad hlength hhex, hmove⟩

/-- An escape sequence that is broken off is passed with what breaks it off. -/
theorem exists_of_readCodePoint_error {x : LexError} (h : readCodePoint c = .error x d) :
    ∃ taken, c.Moves taken d ∧ Opens ['u'] taken := by
  unfold readCodePoint at h
  split at h
  · next e hskip =>
    obtain ⟨taken, hmove, htaken⟩ := exists_of_readBraced_error h (show [].all isHex = true from rfl)
    exact ⟨_, (Cursor.Moves.skipIf? hskip).trans hmove, .cons (fun _ => rfl) htaken⟩
  · exact exists_of_readQuad_error h rfl (show [].all isHex = true from rfl)

theorem exists_of_readIdentifierEscape (h : readIdentifierEscape c = .ok ch d) :
    ∃ text, IsCodePoint text ch ∧ c.Moves text d := by
  unfold readIdentifierEscape at h
  split at h
  · next e hskip =>
    obtain ⟨text, htext, hmove⟩ := exists_of_readCodePoint h
    exact ⟨_, htext, (Cursor.Moves.skipIf? hskip).trans hmove⟩
  · cases h

theorem exists_of_readIdentifierEscape_error {x : LexError}
    (h : readIdentifierEscape c = .error x d) : ∃ taken, c.Moves taken d ∧ Opens [] taken := by
  unfold readIdentifierEscape at h
  split at h
  · next e hskip =>
    obtain ⟨taken, hmove, htaken⟩ := exists_of_readCodePoint_error h
    have hu : Text.isLineEnd 'u' = true → isOpen [] = true := by decide
    exact ⟨_, (Cursor.Moves.skipIf? hskip).trans hmove, .cons hu htaken⟩
  · cases h
    exact ⟨[], .refl _, .nil _⟩

theorem exists_readCodePoint_eq_ok (h : IsCodePoint ('u' :: text) ch) (hrest : c.rest = text ++ rest) :
    ∃ d, readCodePoint c = .ok ch d ∧ d.rest = rest := by
  cases h with
  | quad hlength hhex =>
    have hquad : c.skipIf? '\x7b' = none := by
      obtain ⟨first, digits, rfl⟩ := List.exists_cons_of_length_eq_add_one hlength
      rw [Cursor.skipIf?, Cursor.peek?_of_rest hrest, if_neg]
      intro heq
      obtain rfl := Option.some.inj (eq_of_beq heq)
      rw [List.all_cons, Bool.and_eq_true] at hhex
      exact absurd hhex.1 (by decide)
    obtain ⟨d, hread, hd⟩ := exists_readQuad_eq_ok hhex 0 hrest
    refine ⟨d, ?_, hd⟩
    rw [readCodePoint, hquad]
    dsimp only
    rw [← hlength]
    exact hread
  | braced hne hhex hbound =>
    rw [List.cons_append, List.append_assoc, List.singleton_append] at hrest
    obtain ⟨hbrace, hbrace'⟩ := Cursor.skipIf?_of_rest hrest
    obtain ⟨d, hread, hd⟩ := exists_readBraced_eq_ok hhex 0 (Or.inr hne : false = true ∨ _) hbound hbrace'
    refine ⟨d, ?_, hd⟩
    rw [readCodePoint, hbrace]
    exact hread

theorem exists_readIdentifierEscape_eq_ok (h : IsCodePoint text ch) (hrest : c.rest = text ++ rest) :
    ∃ d, readIdentifierEscape c = .ok ch d ∧ d.rest = rest := by
  obtain ⟨text, rfl⟩ : ∃ text', text = 'u' :: text' := by cases h <;> exact ⟨_, rfl⟩
  obtain ⟨hskip, hrest'⟩ := Cursor.skipIf?_of_rest hrest
  rw [readIdentifierEscape, hskip]
  exact exists_readCodePoint_eq_ok h hrest'

/-! ## Escapes of strings and templates -/

/-- Both characters behind the `x` are passed before they are looked at. -/
theorem exists_of_readHexPair_error {x : LexError} (h : readHexPair c = .error x d) :
    ∃ taken, c.Moves taken d ∧ Opens ['x'] taken := by
  unfold readHexPair at h
  split at h
  · cases h
    exact ⟨[], .refl _, .nil _⟩
  next high e hnext =>
  split at h
  · cases h
    exact ⟨[high], .next? hnext, .cons (fun _ => rfl) (.nil _)⟩
  next low f hnext' =>
  split at h
  · cases h
  · cases h
    exact ⟨[high, low], .cons hnext (.next? hnext'),
      .cons (fun _ => rfl) (.cons (fun _ => rfl) (.nil _))⟩

theorem exists_of_readHexPair {cs : List Char} (h : readHexPair c = .ok cs d) :
    ∃ high low, c.Moves [high, low] d ∧ isHex high = true ∧ isHex low = true := by
  unfold readHexPair at h
  split at h
  · cases h
  next high e hnext =>
  split at h
  · cases h
  next low f hnext' =>
  split at h
  · next hhigh hlow =>
    cases h
    exact ⟨high, low, .cons hnext (.next? hnext'), isHex_of_hexValue? hhigh, isHex_of_hexValue? hlow⟩
  · cases h

theorem readOctal_ne_error {value count : Nat} {x : LexError} :
    readOctal c value count ≠ .error x d := by
  induction count generalizing c value with
  | zero => nofun
  | succ count ih =>
    unfold readOctal
    split
    · split
      · exact ih
      · nofun
    · nofun

/-- Of an escape sequence that is broken off, only what breaks it off may end a line. -/
theorem exists_of_read_error {x : LexError} (h : read c = .error x d) :
    ∃ taken, c.Moves taken d ∧ Opens [] taken := by
  unfold read at h
  split at h
  · cases h
    exact ⟨[], .refl _, .nil _⟩
  next ch e hnext =>
  split at h
  · cases h
  split at h
  · cases h
  split at h
  · exact absurd h readOctal_ne_error
  split at h
  · next hx =>
    obtain rfl := eq_of_beq hx
    obtain ⟨taken, hmove, htaken⟩ := exists_of_readHexPair_error h
    exact ⟨_, .cons hnext hmove, .cons (by decide) htaken⟩
  split at h
  · next hu =>
    obtain rfl := eq_of_beq hu
    cases hread : readCodePoint e with
    | ok ch f =>
      rw [hread] at h
      cases h
    | error y f =>
      rw [hread] at h
      cases h
      obtain ⟨taken, hmove, htaken⟩ := exists_of_readCodePoint_error hread
      exact ⟨_, .cons hnext hmove, .cons (by decide) htaken⟩
  split at h
  · cases h
  · cases h

end Escape

variable {start : Cursor}

namespace Lexer

/-! ## Letters -/

/-- The first element has the one property, and all others have the other one. -/
def IsWord {α : Type} (p q : α → Prop) : List α → Prop
  | [] => False
  | x :: xs => p x ∧ ∀ y ∈ xs, q y

/-- The text is an identifier. -/
def IsIdentifier (text : List Char) : Prop :=
  IsWord (isIdentifierStart · = true) (isIdentifierPart · = true) text

/-- A character of a name, as itself or with the escape sequence that stands for it. -/
inductive Letter where
  | plain (ch : Char)
  | escaped (text : List Char) (ch : Char)

namespace Letter

/-- The character. -/
def char : Letter → Char
  | plain ch | escaped _ ch => ch

/-- The text that stands for the character. -/
def written : Letter → List Char
  | plain ch => [ch]
  | escaped text _ => '\\' :: text

/-- The letter is a character of the class or a complete escape sequence of any character. -/
def IsWritten (p : Char → Bool) : Letter → Prop
  | plain ch => p ch = true
  | escaped text ch => Escape.IsCodePoint text ch

/-- If the letter is an escape sequence, it stands for a character of the class. -/
def Fits (p : Char → Bool) : Letter → Prop
  | plain _ => True
  | escaped _ ch => p ch = true

variable {p : Char → Bool} {letter : Letter}

theorem char_iff_fits (h : letter.IsWritten p) : p letter.char = true ↔ letter.Fits p := by
  cases letter with
  | plain ch => exact iff_of_true h trivial
  | escaped text ch => exact Iff.rfl

end Letter

/-- The escape sequences among the letters stand for characters of an identifier. -/
def LettersFit (letters : List Letter) : Prop :=
  IsWord (Letter.Fits isIdentifierStart) (Letter.Fits isIdentifierPart) letters

/-- The letters are taken from a text for those of a name. -/
def LettersWritten (letters : List Letter) : Prop :=
  IsWord (Letter.IsWritten isIdentifierStart) (Letter.IsWritten isIdentifierPart) letters

/-- A character of the text that is taken for a letter was looked at, so that it depends on the escape
sequences alone whether the letters are those of an identifier. -/
theorem isIdentifier_iff_lettersFit {letters : List Letter} (h : LettersWritten letters) :
    IsIdentifier (letters.map Letter.char) ↔ LettersFit letters := by
  cases letters with
  | nil => exact h.elim
  | cons first letters =>
    refine and_congr (Letter.char_iff_fits h.1) ?_
    rw [List.forall_mem_map]
    exact forall₂_congr fun letter hletter => Letter.char_iff_fits (h.2 letter hletter)

/-- Nothing, or a backslash that begins no complete escape sequence, with what was passed of the text
behind it. -/
def BrokenOff (broken rest : List Char) : Prop :=
  broken = [] ∨ ∃ taken, broken = '\\' :: taken ∧
    ∀ text ch, Escape.IsCodePoint text ch → ¬text <+: taken ++ rest

/-! ## Names -/

/-- What stands between two cursors where a name is read: a gap, the letters of the name and maybe an
escape sequence that is broken off. -/
structure SpellsName (gap : List Char) (letters : List Letter) (broken : List Char)
    (start d : Cursor) (name : String) : Prop where
  moves : start.Moves (gap ++ (letters.flatMap Letter.written ++ broken)) d
  gap : IsGap gap
  written : LettersWritten letters
  broken : BrokenOff broken d.rest
  name : name.toList = letters.map Letter.char

/-- An escape sequence that is not read is broken off. -/
theorem brokenOff_of_error {e : LexError} (h : Escape.readIdentifierEscape c = .error e d) :
    ∃ taken, c.Moves taken d ∧ BrokenOff ('\\' :: taken) d.rest := by
  obtain ⟨taken, hmove, -⟩ := Escape.exists_of_readIdentifierEscape_error h
  refine ⟨taken, hmove, .inr ⟨taken, rfl, ?_⟩⟩
  rintro text ch htext ⟨rest, hprefix⟩
  rw [← hmove.rest] at hprefix
  obtain ⟨d', hread, -⟩ := Escape.exists_readIdentifierEscape_eq_ok htext hprefix.symm
  rw [hread] at h
  cases h

/-- What the rest of a name takes. -/
theorem exists_letters_of_readName (c : Cursor) (name : String) (escaped : Bool) :
    ∃ (letters : List Letter) (broken : List Char),
      c.Moves (letters.flatMap Letter.written ++ broken) (readName c name escaped).2 ∧
      (readName c name escaped).1.1.toList = name.toList ++ letters.map Letter.char ∧
      (∀ letter ∈ letters, letter.IsWritten isIdentifierPart) ∧
      BrokenOff broken (readName c name escaped).2.rest := by
  fun_induction readName c name escaped with
  | case1 | case5 => exact ⟨[], [], .refl _, by simp, List.forall_mem_nil _, .inl rfl⟩
  | case2 c name escaped ch d hnext _ hpart ih =>
    obtain ⟨letters, broken, hmove, hname, hwritten, hbroken⟩ := ih
    refine ⟨.plain ch :: letters, broken, .cons hnext hmove, ?_, ?_, hbroken⟩
    · rw [hname]
      simp [Letter.char]
    · exact List.forall_mem_cons.mpr ⟨hpart, hwritten⟩
  | case3 c name escaped ch d hnext _ hpart hescape esc e he _ ih =>
    obtain ⟨letters, broken, hmove, hname, hwritten, hbroken⟩ := ih
    obtain ⟨text, htext, hmove'⟩ := Escape.exists_of_readIdentifierEscape he
    obtain rfl := eq_of_beq hescape
    refine ⟨.escaped text esc :: letters, broken, ?_, ?_, ?_, hbroken⟩
    · have h := Cursor.Moves.cons hnext (hmove'.trans hmove)
      simpa [Letter.written] using h
    · rw [hname]
      simp [Letter.char]
    · exact List.forall_mem_cons.mpr ⟨htext, hwritten⟩
  | case4 c name escaped ch d hnext _ hpart hescape x e he =>
    obtain ⟨taken, hmove, hbroken⟩ := brokenOff_of_error he
    obtain rfl := eq_of_beq hescape
    exact ⟨[], '\\' :: taken, .cons hnext hmove, by simp, List.forall_mem_nil _, hbroken⟩

theorem eq_of_nameToken_identifier {name name' : String} {escaped : Bool}
    (h : nameToken name escaped = .identifier name') : name = name' := by
  unfold nameToken at h
  repeat' split at h
  all_goals cases h
  all_goals rfl

/-- An identifier is read behind a gap.  All that it takes is letters of the name, up to an escape
sequence that is broken off, and it is an identifier exactly if the escape sequences among them stand for
characters of one. -/
theorem exists_spellsName {name : String} (h : next start = .ok (.identifier name) d) :
    ∃ gap letters broken, SpellsName gap letters broken start d name ∧
      (IsIdentifier name.toList ↔ LettersFit letters) := by
  generalize hresult : next start = result at h
  have hends := nextEnds_next start
  rw [hresult] at hends
  cases hends with
  | endOfInput | lineEnd | comment => cases h
  | @token gap c e ch hgap hmove hbegins =>
    generalize htoken : Token.identifier name = token at h
    -- The rest of the name goes on behind its first letter.
    have hname (first : Letter) {c' : Cursor} {escaped found : Bool} {name' : String}
        (hfirst : first.IsWritten isIdentifierStart) (hmove' : c.Moves first.written c')
        (hread : readName c' first.char.toString escaped = ((name', found), d))
        (heq : name = name') : ∃ gap letters broken, SpellsName gap letters broken start d name ∧
          (IsIdentifier name.toList ↔ LettersFit letters) := by
      have hletters := exists_letters_of_readName c' first.char.toString escaped
      rw [hread] at hletters
      obtain ⟨letters, broken, hrest, htext, hwritten, hbroken⟩ := hletters
      have hall : LettersWritten (first :: letters) := ⟨hfirst, hwritten⟩
      have hchars : name.toList = (first :: letters).map Letter.char := by
        rw [heq, htext, Char.toString_eq_singleton, String.toList_singleton]
        rfl
      refine ⟨gap, first :: letters, broken, ⟨?_, hgap, hall, hbroken, hchars⟩, ?_⟩
      · rw [List.flatMap_cons, List.append_assoc]
        exact hmove.trans (hmove'.trans hrest)
      · rw [hchars]
        exact isIdentifier_iff_lettersFit hall
    cases readsAt_of_readAt h with
    | literal hliteral => rw [← htoken] at hliteral; cases hliteral
    | template | punctuator => cases htoken
    | @escaped first name' d' _ hch hfirst hread =>
      obtain ⟨text, htext, hmove'⟩ := Escape.exists_of_readIdentifierEscape hfirst
      subst hch
      exact hname (.escaped text first) htext (.cons hbegins.next? hmove') hread
        (eq_of_nameToken_identifier htoken.symm).symm
    | name hch hread =>
      exact hname (.plain ch) hch (.next? hbegins.next?) hread
        (eq_of_nameToken_identifier htoken.symm).symm

/-- A backslash behind a name is passed and not in it. -/
theorem exists_spellsName_broken : ∃ d, d.rest = ['x'] ∧
    next (.ofText "a\\u0062\\x") = .ok (.identifier "ab") d ∧
    ∃ gap letters broken, SpellsName gap letters broken (.ofText "a\\u0062\\x") d "ab" ∧
      (IsIdentifier "ab".toList ↔ LettersFit letters) := by
  let c : Cursor := ⟨⟨1, 1, 1⟩, "\\u0062\\x".toList⟩
  have hbegins : BeginsToken (.ofText "a\\u0062\\x") 'a' c :=
    ⟨rfl, by decide, by decide, fun h => absurd h (by decide), fun h => absurd h (by decide)⟩
  have hname : (readName c "a" false).1 = ("ab", true) ∧ (readName c "a" false).2.rest = ['x'] := by
    decide +kernel
  have hread : next (.ofText "a\\u0062\\x") = .ok (.identifier "ab") (readName c "a" false).2 := by
    rw [hbegins.next_eq]
    change readIdentifier c 'a' false = _
    unfold readIdentifier
    change EStateM.Result.ok (nameToken (readName c "a" false).1.1 (readName c "a" false).1.2) _ = _
    rw [hname.1]
    rfl
  exact ⟨_, hname.2, hread, exists_spellsName hread⟩

end Lexer

end EcmaEval
