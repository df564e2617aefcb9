import EcmaEval.Proofs.Conduct.Ancestry
import EcmaEval.Proofs.Run.Discipline
import EcmaEval.Proofs.Store.Lookup
import EcmaEval.Proofs.Syntax.Rereading
import EcmaEval.Session

/-!
# Inspected values evaluate to themselves

A value is inspected as the text of a tree, if it is plain: the objects in it are arrays that hold
their elements as a tree holds its branches.  A new machine evaluates the text to a value of the same
tree.  The text of a string with a line separator or a paragraph separator is no program, because
either ends a line of source text and neither is escaped.

## Main definitions

* `Heap.Holds`: a value is a tree in a heap

## Main results

* `Heap.Holds.toList_inspect`: the text of a value that is a tree
* `Machine.evaluate_inspect`: the text of a value evaluates to the tree of the value
-/

namespace EcmaEval

open List (Forall₂)

namespace Heap

variable {h h' : Heap} {v w : Value} {t u : PlainValue}

/-- The value is a tree in a heap.  No surrogate stands alone in a string of it. -/
inductive Holds (h : Heap) : Value → PlainValue → Prop where
  | undefined : Holds h .undefined .undefined
  | null : Holds h .null .null
  | boolean (value : Bool) : Holds h (.boolean value) (.boolean value)
  | bigint (value : Int) : Holds h (.bigint value) (.bigint value)
  | string {s : UnitString} (hs : s.IsPaired) : Holds h (.string s) (.string s)
  | array {id : ObjectId} {values : Array Value} {elements : List PlainValue}
    (hkind : (h.get id).kind = .array values)
    (helements : Forall₂ (Holds h) values.toList elements) : Holds h (.object id) (.array elements)

/-- A value is one tree. -/
theorem Holds.unique (ht : h.Holds v t) (hu : h.Holds v u) : t = u := by
  induction t using PlainValue.induction generalizing v u with
  | array elements ih =>
    cases ht with
    | array hkind helements =>
      cases hu with
      | array hkind' helements' =>
        obtain rfl := ObjectKind.array.inj (hkind.symm.trans hkind')
        exact congrArg PlainValue.array
          (eq_of_forall₂ helements helements' fun t ht _ _ hxy hxz => ih t ht hxy hxz)
  | _ => cases ht; cases hu; rfl

theorem index_lt_of_kind {id : ObjectId} {values : Array Value}
    (hkind : (h.get id).kind = .array values) : id.index < h.size := by
  by_contra hsize
  rw [h.get_of_size_le (Nat.le_of_not_lt hsize)] at hkind
  cases hkind

/-! ## The text of a tree -/

theorem intercalate_text (t : PlainValue) (others : List PlainValue) :
    ", ".intercalate ((t :: others).map PlainValue.text) ++ " ]" =
      t.text ++ PlainValue.textBehind others := by
  induction others generalizing t with
  | nil => rw [List.map_singleton, String.intercalate_singleton, PlainValue.textBehind]
  | cons u others ih =>
    rw [List.map_cons, List.map_cons, String.intercalate_cons_cons, ← List.map_cons,
      String.append_assoc, ih, PlainValue.textBehind, String.append_assoc, String.append_assoc]

theorem enclose_text (t : PlainValue) (others : List PlainValue) :
    Inspect.enclose "[" "]" ((t :: others).map PlainValue.text) = (PlainValue.array (t :: others)).text := by
  have hopening : "[" ++ " " = "[ " := by decide
  have hclosing : " " ++ "]" = " ]" := by decide
  rw [Inspect.enclose, hopening, String.append_assoc, hclosing, String.append_assoc,
    intercalate_text, PlainValue.text, String.append_assoc]

theorem length_text_lt {elements : List PlainValue} (ht : t ∈ elements) :
    t.text.length < (PlainValue.array elements).text.length := by
  have hbehind : ∀ others : List PlainValue, t ∈ others →
      t.text.length ≤ (PlainValue.textBehind others).length := by
    intro others ht
    induction others with
    | nil => cases ht
    | cons u others ih =>
      rw [PlainValue.textBehind, String.length_append, String.length_append]
      rcases List.mem_cons.mp ht with rfl | ht
      · omega
      · have := ih ht
        omega
  cases elements with
  | nil => cases ht
  | cons u others =>
    rw [PlainValue.text, String.length_append, String.length_append, show "[ ".length = 2 from rfl]
    rcases List.mem_cons.mp ht with rfl | ht
    · omega
    · have := hbehind others ht
      omega

/-- The objects that a text is written inside: they are in the heap, different, and hold trees with
longer texts. -/
structure Around (h : Heap) (path : List ObjectId) (length : Nat) : Prop where
  nodup : path.Nodup
  longer : ∀ x ∈ path, x.index < h.size ∧ ∃ u, h.Holds (.object x) u ∧ length < u.text.length

theorem Around.length_le {path : List ObjectId} {length : Nat} (hpath : h.Around path length) :
    path.length ≤ h.size :=
  length_le_of_nodup hpath.nodup fun x hx => (hpath.longer x hx).1

/-- The text of a tree has no `[Circular]` in it: an object does not hold a tree longer than its
own. -/
theorem Holds.textWithin_eq (hv : h.Holds v t) {path : List ObjectId} {fuel : Nat}
    (hpath : h.Around path t.text.length) (hfuel : fuel + path.length = h.size + 1) :
    Inspect.textWithin h fuel path v = t.text := by
  obtain ⟨fuel, rfl⟩ : ∃ k, fuel = k + 1 :=
    Nat.exists_eq_succ_of_ne_zero (by have := hpath.length_le; omega)
  induction t using PlainValue.induction generalizing v path fuel with
  | array elements ih =>
    cases hv with
    | @array id values _ hkind helements =>
      have hnew : id ∉ path := by
        intro hmem
        obtain ⟨-, u, hu, hlength⟩ := hpath.longer id hmem
        rw [← hu.unique (.array hkind helements)] at hlength
        exact absurd hlength (Nat.lt_irrefl _)
      have hinside {t : PlainValue} (ht : t ∈ elements) : h.Around (id :: path) t.text.length := by
        refine ⟨List.nodup_cons.mpr ⟨hnew, hpath.nodup⟩, List.forall_mem_cons.mpr ⟨?_, ?_⟩⟩
        · exact ⟨index_lt_of_kind hkind, _, .array hkind helements, length_text_lt ht⟩
        · intro x hx
          obtain ⟨hindex, u, hu, hlength⟩ := hpath.longer x hx
          exact ⟨hindex, u, hu, (length_text_lt ht).trans hlength⟩
      have htexts : values.toList.map (Inspect.textWithin h fuel (id :: path)) =
          elements.map PlainValue.text :=
        map_eq_map_of_forall₂ helements fun t ht w hw => by
          obtain ⟨fuel, rfl⟩ : ∃ k, fuel = k + 1 := Nat.exists_eq_succ_of_ne_zero (by
            have := (hinside ht).length_le
            rw [List.length_cons] at this
            omega)
          exact ih t ht hw (hinside ht) fuel (by rw [List.length_cons]; omega)
      rw [Inspect.textWithin, if_neg (by simpa using hnew), Inspect.objectText, hkind]
      dsimp only
      rw [htexts]
      cases elements with
      | nil =>
        obtain rfl : values = #[] := by simpa using helements
        rfl
      | cons t others =>
        rw [if_neg fun hempty => ?_, enclose_text]
        rw [Array.isEmpty_iff.mp hempty] at helements
        cases helements
  | _ => cases hv; rfl

/-- A tree is inspected as its text. -/
theorem Holds.inspect_eq (hv : h.Holds v t) : h.inspect v = t.text :=
  hv.textWithin_eq ⟨List.nodup_nil, nofun⟩ (by simp)

end Heap

/-! ## Evaluating the text -/

/-- The objects of a heap are the first ones of another one. -/
def Heap.IsFrontOf (h h' : Heap) : Prop :=
  h.size ≤ h'.size ∧ ∀ id : ObjectId, id.index < h.size → h'.get id = h.get id

namespace Heap

variable {h h' h'' : Heap} {v : Value} {t : PlainValue}

theorem IsFrontOf.refl (h : Heap) : h.IsFrontOf h := ⟨Nat.le_refl _, fun _ _ => rfl⟩

theorem IsFrontOf.trans (hh' : h.IsFrontOf h') (hh'' : h'.IsFrontOf h'') : h.IsFrontOf h'' :=
  ⟨hh'.1.trans hh''.1, fun id hid => (hh''.2 id (hid.trans_le hh'.1)).trans (hh'.2 id hid)⟩

theorem isFrontOf_allocate (h : Heap) (o : Object) : h.IsFrontOf (h.allocate o).2 := by
  refine ⟨?_, fun id hid => h.get_allocate_of_lt o hid⟩
  rw [size_allocate]
  exact Nat.le_succ _

/-- A tree stays in a heap that gets more objects. -/
theorem Holds.of_isFrontOf (hv : h.Holds v t) (hh' : h.IsFrontOf h') : h'.Holds v t := by
  induction t using PlainValue.induction generalizing v with
  | undefined => cases hv; exact .undefined
  | null => cases hv; exact .null
  | boolean value => cases hv; exact .boolean _
  | bigint value => cases hv; exact .bigint _
  | string s => cases hv with | string hs => exact .string hs
  | array elements ih =>
    cases hv with
    | array hkind helements =>
      refine .array (by rw [hh'.2 _ (index_lt_of_kind hkind), hkind]) ?_
      exact forall₂_imp_of_mem (fun w _ u hu hwu => ih u hu hwu) helements

end Heap

theorem PlainValue.exists_of_mem_stringsAmong {s : UnitString} {elements : List PlainValue}
    (hs : s ∈ stringsAmong elements) : ∃ t ∈ elements, s ∈ t.strings := by
  induction elements with
  | nil => cases hs
  | cons t others ih =>
    rw [stringsAmong] at hs
    rcases List.mem_append.mp hs with hs | hs
    · exact ⟨t, List.mem_cons_self, hs⟩
    · obtain ⟨u, hu, hs⟩ := ih hs
      exact ⟨u, List.mem_cons_of_mem _ hu, hs⟩

theorem PlainValue.mem_stringsAmong {s : UnitString} {elements : List PlainValue} {t : PlainValue}
    (ht : t ∈ elements) (hs : s ∈ t.strings) : s ∈ stringsAmong elements := by
  induction elements with
  | nil => cases ht
  | cons u others ih =>
    rw [stringsAmong]
    rcases List.mem_cons.mp ht with rfl | ht
    · exact List.mem_append_left _ hs
    · exact List.mem_append_right _ (ih ht)

/-- No surrogate stands alone in a string of a tree. -/
theorem Heap.Holds.isPaired {h : Heap} {v : Value} {t : PlainValue} (hv : h.Holds v t) :
    ∀ s ∈ t.strings, s.IsPaired := by
  induction t using PlainValue.induction generalizing v with
  | string s =>
    cases hv with
    | string hs => exact List.forall_mem_singleton.mpr hs
  | array elements ih =>
    cases hv with
    | array hkind helements =>
      intro s hs
      obtain ⟨t, ht, hs⟩ := PlainValue.exists_of_mem_stringsAmong hs
      obtain ⟨w, -, hw⟩ := exists_left_of_forall₂ helements ht
      exact ih t ht hw s hs
  | _ => exact nofun

/-- A machine with the same frames, and with more objects. -/
structure Machine.Gains (m m' : Machine) : Prop where
  heap : m.heap.IsFrontOf m'.heap
  frames : m'.frames = m.frames
  signal : m'.signal = m.signal

theorem Machine.Gains.refl (m : Machine) : m.Gains m := ⟨.refl _, rfl, rfl⟩

theorem Machine.Gains.trans {m m' m'' : Machine} (h : m.Gains m') (h' : m'.Gains m'') :
    m.Gains m'' :=
  ⟨h.heap.trans h'.heap, h'.frames.trans h.frames, h'.signal.trans h.signal⟩

namespace Engine

open Heap

variable {m : Machine} {t : PlainValue} {scope : FrameId} {fuel : Nat} {elements : List PlainValue}

/-- The expression of a tree evaluates to a value that is the tree, in as many steps as its text has
characters. -/
def Evaluates (t : PlainValue) : Prop :=
  ∀ name ⦃fuel scope m⦄, t.text.length ≤ fuel →
    m.frames.lookup? scope "undefined" = some .undefined →
    ∃ v m', (ofFuel fuel).evaluateAs name scope t.expression m = .ok v m' ∧ m'.heap.Holds v t ∧
      m.Gains m'

/-- The expression of a tree is no spread. -/
theorem evaluateList_cons (engine : Engine) (values : Array Value)
    (others : List (Option Expression)) :
    engine.evaluateList scope values (some t.expression :: others) = (do
      let value ← engine.evaluate scope t.expression
      engine.evaluateList scope (values.push value) others) := by
  match t with
  | .undefined | .null | .boolean _ | .bigint (.ofNat _) | .bigint (.negSucc _) | .string _
  | .array _ => rfl

theorem evaluateList_expressions (ht : ∀ t ∈ elements, Evaluates t)
    (hfuel : ∀ t ∈ elements, t.text.length ≤ fuel) (values : Array Value)
    (hlookup : m.frames.lookup? scope "undefined" = some .undefined) :
    ∃ added m', (ofFuel fuel).evaluateList scope values (PlainValue.expressions elements) m =
        .ok (values ++ added) m' ∧
      Forall₂ m'.heap.Holds added.toList elements ∧ m.Gains m' := by
  induction elements generalizing m values with
  | nil => exact ⟨#[], m, by rw [Array.append_empty]; rfl, .nil, .refl m⟩
  | cons t others ih =>
    obtain ⟨v, m₁, hvalue, hv, hm₁⟩ := ht t List.mem_cons_self ""
      (hfuel t List.mem_cons_self) hlookup
    replace hvalue : (ofFuel fuel).evaluate scope t.expression m = .ok v m₁ := hvalue
    obtain ⟨added, m₂, hadded, hothers, hm₂⟩ := ih (fun u hu => ht u (List.mem_cons_of_mem _ hu))
      (fun u hu => hfuel u (List.mem_cons_of_mem _ hu)) (values.push v) (m := m₁)
      (by rw [hm₁.frames, hlookup])
    refine ⟨#[v] ++ added, m₂, ?_, ?_, hm₁.trans hm₂⟩
    · rw [PlainValue.expressions, evaluateList_cons, Discipline.bind_of_ok hvalue, hadded,
        ← Array.append_assoc, Array.push_eq_append]
    · rw [Array.toList_append]
      exact .cons (hv.of_isFrontOf hm₂.heap) hothers

/-- A literal is evaluated in one step. -/
theorem evaluates_of_literal {l : Literal} {v : Value} (hexpression : t.expression = .literal l)
    (hvalue : ∀ m, literalValue l m = .ok v m) (hv : ∀ h : Heap, h.Holds v t) : Evaluates t := by
  intro name fuel scope m hfuel _
  obtain ⟨fuel, rfl⟩ := Nat.exists_eq_succ_of_ne_zero (t.length_text_pos.trans_le hfuel).ne'
  exact ⟨v, m, by rw [hexpression]; exact hvalue m, hv _, .refl m⟩

theorem literalValue_bigint (n : Nat) (m : Machine) :
    literalValue (.bigint (String.ofList (Nat.toDigits 10 n))) m = .ok (.bigint n) m := by
  rw [literalValue, Integer.ofText?_toDigits]
  rfl

theorem evaluates_undefined : Evaluates .undefined := by
  intro name fuel scope m hfuel hlookup
  obtain ⟨fuel, rfl⟩ :=
    Nat.exists_eq_succ_of_ne_zero ((PlainValue.length_text_pos .undefined).trans_le hfuel).ne'
  refine ⟨.undefined, m, ?_, .undefined, .refl m⟩
  change nameValue scope "undefined" m = _
  have hread : Action.readFrames (·.lookup? scope "undefined") m = .ok (some .undefined) m :=
    congrArg (EStateM.Result.ok · m) hlookup
  rw [nameValue, Discipline.bind_of_ok hread]
  rfl

theorem evaluates_bigint (value : Int) : Evaluates (.bigint value) := by
  match value with
  | .ofNat n => exact evaluates_of_literal rfl (literalValue_bigint n) fun _ => .bigint _
  | .negSucc n =>
    intro name fuel scope m hfuel _
    obtain ⟨fuel, rfl⟩ : ∃ k, fuel = k + 2 := by
      refine Nat.exists_eq_add_of_le' (le_trans ?_ hfuel)
      rw [PlainValue.text, String.length_append, ← String.length_toList, PlainValue.toList_toText_negSucc]
      exact Nat.le_add_left 2 _
    refine ⟨.bigint (.negSucc n), m, ?_, .bigint _, .refl m⟩
    have hoperand : (ofFuel (fuel + 1)).evaluate scope (PlainValue.bigintLiteral (n + 1)) m =
        .ok (.bigint (n + 1 : Nat)) m := literalValue_bigint (n + 1) m
    change ((ofFuel (fuel + 1)).evaluate scope (PlainValue.bigintLiteral (n + 1)) >>=
      (ofFuel (fuel + 1)).minus) m = _
    rw [Discipline.bind_of_ok hoperand]
    rfl

theorem evaluates_array (ht : ∀ t ∈ elements, Evaluates t) : Evaluates (.array elements) := by
  intro name fuel scope m hfuel hlookup
  obtain ⟨fuel, rfl⟩ := Nat.exists_eq_succ_of_ne_zero ((PlainValue.length_text_pos _).trans_le hfuel).ne'
  obtain ⟨added, m', hadded, helements, hm'⟩ := evaluateList_expressions ht
    (fun t ht => Nat.le_of_lt_succ ((length_text_lt ht).trans_le hfuel)) #[] hlookup
  rw [Array.empty_append] at hadded
  -- The array comes behind the objects that its elements have made.
  have hgains : m'.heap.IsFrontOf (m'.heap.allocate (.new m'.realm.arrayPrototype (.array added))).2 :=
    isFrontOf_allocate _ _
  refine ⟨.object ⟨m'.heap.size⟩,
    { m' with heap := (m'.heap.allocate (.new m'.realm.arrayPrototype (.array added))).2 }, ?_,
    @Holds.array _ _ added _ ?_ ?_, hm'.trans ⟨hgains, rfl, rfl⟩⟩
  · change ((ofFuel fuel).evaluateList scope #[] (PlainValue.expressions elements) >>=
      Action.newArray) m = _
    rw [Discipline.bind_of_ok hadded]
    rfl
  · rw [get_allocate_self]
    rfl
  · exact forall₂_imp_of_mem (fun _ _ _ _ hv => hv.of_isFrontOf hgains) helements

theorem evaluates (hpaired : ∀ s ∈ t.strings, s.IsPaired) : Evaluates t := by
  induction t using PlainValue.induction with
  | undefined => exact evaluates_undefined
  | null => exact evaluates_of_literal rfl (fun _ => rfl) fun _ => .null
  | boolean value => exact evaluates_of_literal rfl (fun _ => rfl) fun _ => .boolean value
  | bigint value => exact evaluates_bigint value
  | string s =>
    have hs := hpaired s List.mem_cons_self
    refine evaluates_of_literal (v := .string s) rfl (fun m => ?_) fun _ => .string hs
    rw [literalValue, Value.ofText, UnitString.ofString_text hs]
    rfl
  | array elements ih =>
    exact evaluates_array fun t ht =>
      ih t ht fun s hs => hpaired s (PlainValue.mem_stringsAmong ht hs)

/-- A program that is the expression of a tree has the value of the expression. -/
theorem executeProgram_expression (hpaired : ∀ s ∈ t.strings, s.IsPaired)
    (hfuel : t.text.length < fuel) (hsignal : m.signal = none)
    (hlookup : m.frames.lookup? scope "undefined" = some .undefined) :
    ∃ v m', (ofFuel fuel).executeProgram scope ⟨[.expression t.expression]⟩ m = .ok v m' ∧
      m'.heap.Holds v t := by
  obtain ⟨fuel, rfl⟩ := Nat.exists_eq_succ_of_ne_zero (Nat.ne_zero_of_lt hfuel)
  obtain ⟨v, m', hvalue, hv, hm'⟩ := evaluates hpaired "" (Nat.le_of_lt_succ hfuel) hlookup
  have hstatement : (ofFuel (fuel + 1)).execute scope (.expression t.expression) m = .ok v m' :=
    hvalue
  have hquiet : m'.signal = none := hm'.signal.trans hsignal
  have hsignaled : Action.isSignaled m' = .ok false m' := by
    rw [Action.isSignaled, hquiet]
    rfl
  have hlist : (ofFuel (fuel + 1)).executeFrom scope .undefined [.expression t.expression] m =
      .ok v m' := by
    rw [executeFrom, Discipline.bind_of_ok hstatement, Discipline.bind_of_ok hsignaled]
    rfl
  have hhoist : Action.hoist scope [.expression t.expression] m = .ok () m := rfl
  have hbody : (ofFuel (fuel + 1)).executeBody scope [.expression t.expression] m = .ok v m' := by
    rw [executeBody, Discipline.bind_of_ok hhoist]
    exact hlist
  have htake : Action.takeSignal m' = .ok none { m' with signal := none } := by
    rw [Action.takeSignal, hquiet]
  refine ⟨v, { m' with signal := none }, ?_, hv⟩
  rw [executeProgram, Discipline.bind_of_ok hbody, Discipline.bind_of_ok htake]
  rfl

end Engine

namespace Machine

/-- The value is `undefined`. -/
def isUndefined : Value → Bool
  | .undefined => true
  | _ => false

set_option maxRecDepth 100000 in
/-- A new machine binds `undefined` for programs, and has nothing asked for. -/
theorem check_initial :
    ((initial.frames.lookup? initial.realm.programFrame "undefined").any isUndefined &&
      initial.signal.isNone) = true := by
  decide +kernel

theorem lookup?_undefined_initial :
    initial.frames.lookup? initial.realm.programFrame "undefined" = some .undefined := by
  have hcheck := (Bool.and_eq_true_iff.mp check_initial).1
  generalize initial.frames.lookup? _ _ = found at hcheck
  cases found with
  | none => cases hcheck
  | some v => cases v <;> first | rfl | cases hcheck

theorem signal_initial : initial.signal = none :=
  Option.isNone_iff_eq_none.mp (Bool.and_eq_true_iff.mp check_initial).2

/-- Runs the program of a text with the engine of some fuel. -/
def evaluateWithin (fuel : Nat) (m : Machine) (source : String) : RunResult :=
  match Program.ofText m.options source with
  | .ok p => m.perform ((Engine.ofFuel fuel).executeProgram m.realm.programFrame p)
  | .error e => { outcome := .error (.syntactic e), machine := m }

theorem evaluate_eq_evaluateWithin (m : Machine) (source : String) :
    m.evaluate source = m.evaluateWithin Engine.standardFuel source := rfl

/-- **An inspected value evaluates to itself, unless a string in it ends the line.**  Where a value is
a tree of `undefined`, `null`, booleans, unbounded integers, strings without lone surrogates and
arrays of such values, a new machine evaluates its text to a value of the same tree, in at most one
step more than the text has characters.  But the line separator and the paragraph separator are not
escaped in the text of a string, though they end a line of source text; where a string has one, the
text is no program, because the string is not closed on its line. -/
theorem evaluate_inspect {h : Heap} {v : Value} {t : PlainValue} (hv : h.Holds v t) :
    (t.IsOnLine → ∀ fuel, (h.inspect v).length < fuel →
      ∃ w, (initial.evaluateWithin fuel (h.inspect v)).outcome = .ok w ∧
        (initial.evaluateWithin fuel (h.inspect v)).machine.heap.Holds w t) ∧
    (¬t.IsOnLine → ∃ e, (initial.evaluate (h.inspect v)).outcome = .error (.syntactic e) ∧
      e.cause = .lexical .unterminatedString) := by
  obtain ⟨hread, hbroken⟩ := Program.ofText_text initial.options t
  rw [hv.inspect_eq]
  constructor
  · intro hline fuel hfuel
    obtain ⟨w, m', hrun, hw⟩ := Engine.executeProgram_expression hv.isPaired hfuel signal_initial
      lookup?_undefined_initial
    refine ⟨w, ?_⟩
    rw [evaluateWithin, hread hline]
    dsimp only
    rw [perform, hrun]
    exact ⟨rfl, hw⟩
  · intro hline
    obtain ⟨e, hprogram, he⟩ := hbroken hline
    refine ⟨e, ?_, he⟩
    rw [evaluate_eq_evaluateWithin, evaluateWithin, hprogram]

/-- An array of `undefined`, a negative integer, a string with two escapes and an empty array. -/
def nestedArrays : Heap :=
  ⟨#[.new none (.array #[.undefined, .bigint (-5), .string (.ofString "\n\u0001"), .object ⟨1⟩]),
    .new none (.array #[])]⟩

/-- The tree of these arrays. -/
def nestedTree : PlainValue :=
  .array [.undefined, .bigint (-5), .string (.ofString "\n\u0001"), .array []]

theorem evaluate_inspect_nestedArrays :
    (∃ w, (initial.evaluateWithin 50 (nestedArrays.inspect (.object ⟨0⟩))).outcome = .ok w ∧
      (initial.evaluateWithin 50 (nestedArrays.inspect (.object ⟨0⟩))).machine.heap.Holds w
        nestedTree) ∧
    ∃ e, (initial.evaluate (nestedArrays.inspect (.string (.ofString "\u2028")))).outcome =
      .error (.syntactic e) ∧ e.cause = .lexical .unterminatedString := by
  have hpaired (text : String) : (UnitString.ofString text).IsPaired :=
    UnitString.isPaired_iff.mpr ⟨text, rfl⟩
  have htree : nestedArrays.Holds (.object ⟨0⟩) nestedTree := by
    refine .array rfl (.cons .undefined (.cons (.bigint _) (.cons (.string (hpaired _)) (.cons ?_ .nil))))
    exact .array rfl .nil
  refine ⟨(evaluate_inspect htree).1 ?_ 50 ?_, (evaluate_inspect (.string (hpaired _))).2 ?_⟩
  · intro s hs
    obtain rfl : s = .ofString "\n\u0001" := List.mem_singleton.mp hs
    have hchars : "\n\u0001".toList = ['\n', '\x01'] := by decide
    rw [UnitString.text_ofString, hchars]
    simp [Text.IsOnLine]
  · rw [htree.inspect_eq]
    decide
  · intro h
    have hline := h _ List.mem_cons_self
    rw [UnitString.text_ofString] at hline
    exact absurd rfl (hline '\u2028' List.mem_cons_self).1

end Machine

end EcmaEval
