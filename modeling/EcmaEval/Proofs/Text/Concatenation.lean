import EcmaEval.Eval.Call
import EcmaEval.Proofs.Object.Copies
import EcmaEval.Proofs.Text.SplitJoin

/-!
# Strings put together

Strings are put together by a template, by joining an array and by adding them.  All three evaluate
the same expressions in the same order.  A sum has the units of the strings; a template and a joined
array are made of texts, in which no surrogate stands alone.  So the three agree exactly on strings
that are texts, each of them on its own: two halves of a pair that come from two strings are put
together by a sum only.

## Main definitions

* `Expression.templateOf`, `Expression.joinOf`, `Expression.sumOf`: the three ways
* `Engine.HasStrings`: expressions are evaluated to strings, one after the other
* `Machine.JoinsArrays`: arrays find the method `join` of the library

## Main results

* `Engine.hasValue_sum`, `Engine.hasValue_template`, `Engine.hasValue_join`: what each way gives
* `Engine.concatenations_eq_iff`: when they agree
-/

namespace EcmaEval

namespace Expression

/-- A template of the values of some expressions, with no text around them. -/
def templateOf (es : List Expression) : Expression :=
  .template (List.replicate (es.length + 1) (some "")) es

/-- The values of some expressions in an array, which is joined with nothing between them. -/
def joinOf (es : List Expression) : Expression :=
  .call (.member (.array (es.map some)) (.name "join")) [.literal (.string "")]

/-- The values of some expressions with a plus between them.  Without any there is the empty
string. -/
def sumOf : List Expression → Expression
  | [] => .literal (.string "")
  | e :: es => es.foldl (.binary .add) e

end Expression

/-! ## Units of strings in a row -/

namespace UnitString

theorem units_inj {s t : UnitString} : s.units.toList = t.units.toList ↔ s = t := by
  obtain ⟨units⟩ := s
  obtain ⟨units'⟩ := t
  simp

theorem units_foldl_append (vs : List UnitString) (u : UnitString) :
    (vs.foldl (· ++ ·) u).units.toList = u.units.toList ++ (vs.map (·.units.toList)).flatten := by
  induction vs generalizing u with
  | nil => simp
  | cons v vs ih =>
    have happend : (u ++ v).units.toList = u.units.toList ++ v.units.toList := Array.toList_append
    rw [List.foldl_cons, ih, happend, List.map_cons, List.flatten_cons, List.append_assoc]

theorem units_intercalate_text (vs : List UnitString) :
    (ofString ("".intercalate (vs.map (·.text)))).units.toList =
      (vs.map fun v => mend v.units.toList).flatten := by
  have hempty : (ofString "").units.toList = [] := rfl
  rw [units_intercalate, hempty, intercalate_empty, List.map_map]
  congr 2
  funext v
  exact units_ofString_text v

/-- Strings in a row that are mended are the same only if none of them needs mending. -/
theorem flatten_mend_eq_iff (vs : List UnitString) :
    (vs.map fun v => mend v.units.toList).flatten = (vs.map (·.units.toList)).flatten ↔
      ∀ v ∈ vs, v.IsPaired := by
  have hsame := @intercalate_map_eq_iff mend length_mend [] (vs.map (·.units.toList))
  have hnil : mend [] = [] := rfl
  rw [hnil, intercalate_empty, intercalate_empty, List.map_map, List.forall_mem_map] at hsame
  refine hsame.trans ?_
  simp [mend_eq_self_iff, UnitString.IsPaired]

theorem intercalate_empty_cons (s : String) (rest : List String) :
    "".intercalate (s :: rest) = s ++ "".intercalate rest := by
  cases rest with
  | nil => simp
  | cons t rest =>
    refine String.toList_injective ?_
    rw [String.toList_intercalate, String.toList_append, String.toList_intercalate]
    simp [List.intercalate_cons_cons]

end UnitString

/-! ## Evaluation in a row -/

namespace Engine

open EcmaEval.Action UnitString Discipline

/-- The expression is evaluated to the value, with this fuel and with more. -/
def HasValue (fuel : Nat) (scope : FrameId) (e : Expression) (m : Machine) (v : Value)
    (m' : Machine) : Prop :=
  ∀ k, (ofFuel (k + fuel)).evaluate scope e m = .ok v m'

/-- The expressions are evaluated to the strings, one after the other. -/
inductive HasStrings (fuel : Nat) (scope : FrameId) :
    List Expression → Machine → List UnitString → Machine → Prop where
  | nil {m : Machine} : HasStrings fuel scope [] m [] m
  | cons {e : Expression} {es : List Expression} {v : UnitString} {vs : List UnitString}
      {m m₁ m' : Machine} (he : HasValue fuel scope e m (.string v) m₁)
      (hes : HasStrings fuel scope es m₁ vs m') :
      HasStrings fuel scope (e :: es) m (v :: vs) m'

variable {fuel k : Nat} {scope : FrameId} {e l : Expression} {es : List Expression}
  {m m₁ m' : Machine} {u v : UnitString} {vs : List UnitString} {value : Value} {join : ObjectId}

theorem HasValue.mono (h : HasValue fuel scope e m value m') {more : Nat} (hle : fuel ≤ more) :
    HasValue more scope e m value m' := fun k => by
  obtain ⟨rest, rfl⟩ := Nat.exists_eq_add_of_le' hle
  rw [← Nat.add_assoc]
  exact h (k + rest)

theorem HasStrings.mono (h : HasStrings fuel scope es m vs m') {more : Nat}
    (hle : fuel ≤ more) : HasStrings more scope es m vs m' := by
  induction h with
  | nil => exact .nil
  | cons he _ ih => exact .cons (he.mono hle) ih

/-! ### Sums -/

theorem hasValue_add (hl : HasValue fuel scope l m (.string u) m₁)
    (he : HasValue fuel scope e m₁ (.string v) m') :
    HasValue (fuel + 1) scope (.binary .add l e) m (.string (u ++ v)) m' := by
  intro k
  change ((ofFuel (k + fuel)).evaluate scope l >>= fun left =>
    (ofFuel (k + fuel)).evaluate scope e >>= fun right => (ofFuel (k + fuel)).add left right) m = _
  rw [bind_of_ok (hl k), bind_of_ok (he k)]
  rfl

/-- A sum nests to the left, so every operand takes one more step of fuel. -/
theorem hasValue_sum (hl : HasValue fuel scope l m (.string u) m₁)
    (h : HasStrings fuel scope es m₁ vs m') :
    HasValue (fuel + es.length) scope (es.foldl (.binary .add) l) m
      (.string (vs.foldl (· ++ ·) u)) m' := by
  induction es generalizing fuel l m₁ u vs with
  | nil =>
    cases h
    exact hl
  | cons e es ih =>
    cases h with
    | cons he hes =>
      rw [List.length_cons, Nat.add_comm es.length, ← Nat.add_assoc, List.foldl_cons,
        List.foldl_cons]
      exact ih (hasValue_add hl he) (hes.mono (Nat.le_succ fuel))

/-! ### Templates -/

theorem templateText_of_strings (h : HasStrings fuel scope es m vs m') (written : String) :
    (ofFuel (k + fuel)).templateText scope written (List.replicate (es.length + 1) (some "")) es m =
      .ok (written ++ "".intercalate (vs.map (·.text))) m' := by
  induction h generalizing written with
  | nil =>
    change EStateM.Result.ok (written ++ "") _ = _
    rfl
  | @cons e es v vs m m₁ m' he hes ih =>
    rw [List.length_cons, List.replicate_succ]
    change ((ofFuel (k + fuel)).evaluate scope e >>= fun value =>
      (ofFuel (k + fuel)).toText value >>= fun substitution =>
        (ofFuel (k + fuel)).templateText scope (written ++ "" ++ substitution)
          (List.replicate (es.length + 1) (some "")) es) m = _
    have htext : (ofFuel (k + fuel)).toText (.string v) m₁ = .ok v.text m₁ := rfl
    rw [bind_of_ok (he k), bind_of_ok htext, ih, List.map_cons, intercalate_empty_cons,
      String.append_empty, String.append_assoc]

theorem hasValue_template (h : HasStrings fuel scope es m vs m') :
    HasValue (fuel + 1) scope (.templateOf es) m (.ofText ("".intercalate (vs.map (·.text))))
      m' := by
  intro k
  change ((ofFuel (k + fuel)).templateText scope "" _ es >>= fun text =>
    pure (Value.ofText text)) m = _
  rw [bind_of_ok (templateText_of_strings h ""), String.empty_append]
  rfl

/-! ### Arrays -/

theorem evaluateList_of_strings (h : HasStrings fuel scope es m vs m') (values : Array Value) :
    (ofFuel (k + fuel)).evaluateList scope values (es.map some) m =
      .ok (values ++ (vs.map Value.string).toArray) m' := by
  induction h generalizing values with
  | nil =>
    change EStateM.Result.ok values _ = _
    simp
  | @cons e es v vs m m₁ m' he hes ih =>
    -- A spread has no value of its own.
    have hnot : ∀ operand, e ≠ .spread operand := by
      rintro operand rfl
      have hspread := he 1
      rw [Nat.add_comm] at hspread
      cases hspread
    rw [List.map_cons, evaluateList, bind_of_ok (he k), ih]
    · simp
    · exact hnot

theorem hasValue_array (h : HasStrings fuel scope es m vs m') :
    HasValue (fuel + 1) scope (.array (es.map some)) m (.object ⟨m'.heap.size⟩)
      (m'.withArray (vs.map Value.string).toArray) := by
  intro k
  change ((ofFuel (k + fuel)).evaluateList scope #[] (es.map some) >>= newArray) m = _
  rw [bind_of_ok (evaluateList_of_strings h #[]), Array.empty_append]
  rfl

end Engine

/-- Arrays find the method `join` of the library, and what is being joined is there. -/
structure Machine.JoinsArrays (m : Machine) (join : ObjectId) : Prop where
  closed : m.heap.Closed
  prototype_lt : m.realm.arrayPrototype.index < m.heap.size
  found : ∃ writable enumerable,
    m.heap.find? m.realm.arrayPrototype "join" = some (.data (.object join) writable enumerable)
  callable : (m.heap.get join).callable? = some (.native (.builtin (.array .join)))
  joining : ∀ id ∈ m.joining, id.index < m.heap.size

namespace Engine

open EcmaEval.Action UnitString Discipline

variable {fuel k : Nat} {scope : FrameId} {es : List Expression} {m m' : Machine}
  {vs : List UnitString} {join : ObjectId}

section Found

variable (hm : m.JoinsArrays join) (elements : Array Value)
include hm

/-- A new array finds what the prototype of arrays does. -/
theorem find?_join_withArray : ∃ writable enumerable,
    (m.withArray elements).heap.find? ⟨m.heap.size⟩ "join" =
      some (.data (.object join) writable enumerable) := by
  obtain ⟨writable, enumerable, hfound⟩ := hm.found
  refine ⟨writable, enumerable, ?_⟩
  have hsize : (m.withArray elements).heap.size = m.heap.size + 1 := by
    simp [Machine.withArray]
  have hself : (m.withArray elements).heap.get ⟨m.heap.size⟩ =
      .new (some m.realm.arrayPrototype) (.array elements) := m.heap.get_allocate_self _
  rw [Heap.find?, hsize, Heap.findWithin, hself]
  change (m.withArray elements).heap.findWithin "join" m.heap.size m.realm.arrayPrototype = _
  rw [← hfound]
  exact Heap.findWithin_allocate hm.closed _ _ _ hm.prototype_lt

theorem get_join (engine : Engine) :
    engine.get (.object ⟨m.heap.size⟩) "join" (m.withArray elements) =
      .ok (.object join) (m.withArray elements) := by
  obtain ⟨writable, enumerable, hfound⟩ := find?_join_withArray hm elements
  change engine.getProperty _ "join" _ _ = _
  unfold getProperty
  rw [readHeap_bind, hfound]
  rfl

theorem callable?_join_withArray : ((m.withArray elements).heap.get join).callable? =
    some (.native (.builtin (.array .join))) := by
  unfold Machine.withArray
  rw [Heap.get_allocate_of_lt _ _ (Heap.lt_of_callable hm.callable), hm.callable]

end Found

/-- The strings of a new array are joined. -/
theorem call_join (hm : m.JoinsArrays join) (vs : List UnitString) :
    (ofFuel (k + 1)).call join (.object ⟨m.heap.size⟩) [.string ∅]
        (m.withArray (vs.map Value.string).toArray) =
      .ok (.ofText ("".intercalate (vs.map (·.text))))
        (m.withArray (vs.map Value.string).toArray) := by
  have hcallable := callable?_join_withArray hm (vs.map Value.string).toArray
  have helements : ((m.withArray (vs.map Value.string).toArray).heap.get ⟨m.heap.size⟩).elements? =
      some (vs.map Value.string).toArray := Machine.elements?_withArray
  have hidle : (⟨m.heap.size⟩ : ObjectId) ∉ (m.withArray (vs.map Value.string).toArray).joining :=
    fun hmem => absurd (hm.joining _ hmem) (Nat.lt_irrefl _)
  generalize m.withArray (vs.map Value.string).toArray = n at hcallable helements hidle
  have hjoin : (ofFuel k).callArray .join (.object ⟨m.heap.size⟩) [.string ∅]
      { n with newTarget := none } =
      .ok (.ofText ("".intercalate (vs.map (·.text)))) { n with newTarget := none } :=
    callArray_join helements hidle
  change (ofFuel k).callFunction join _ _ n = _
  unfold callFunction
  rw [readHeap_bind, hcallable]
  dsimp only
  unfold underTarget callNative callBuiltin
  dsimp only
  rw [hjoin]

theorem hasValue_join (h : HasStrings fuel scope es m vs m') (hm : m'.JoinsArrays join) :
    HasValue (fuel + 2) scope (.joinOf es) m (.ofText ("".intercalate (vs.map (·.text))))
      (m'.withArray (vs.map Value.string).toArray) := by
  intro k
  have harray := hasValue_array h k
  rw [← Nat.add_assoc] at harray
  have hget := get_join hm (vs.map Value.string).toArray (ofFuel (k + fuel + 1))
  have hjoin := call_join (k := k + fuel) hm vs
  have hcallable := callable?_join_withArray hm (vs.map Value.string).toArray
  generalize m'.withArray (vs.map Value.string).toArray = n at harray hget hjoin hcallable
  have hisCallable : n.heap.isCallable (.object join) = true := by
    rw [Heap.isCallable, Object.isCallable, hcallable]
    rfl
  have hfunction : (ofFuel (k + fuel + 1)).memberFunction scope (.array (es.map some))
      (.name "join") m = .ok (.object ⟨m'.heap.size⟩, .object join, "join") n := by
    change ((ofFuel (k + fuel + 1)).evaluate scope (.array (es.map some)) >>= fun base =>
      (ofFuel (k + fuel + 1)).get base "join" >>= fun f => pure (base, f, "join")) m = _
    rw [bind_of_ok harray, bind_of_ok hget]
    rfl
  have hargs : (ofFuel (k + fuel + 1)).evaluateArguments scope [.literal (.string "")] n =
      .ok [.string ∅] n := rfl
  have hcall : (ofFuel (k + fuel + 1)).callValue (.object join) (.object ⟨m'.heap.size⟩)
      [.string ∅] n = .ok (.ofText ("".intercalate (vs.map (·.text)))) n := by
    unfold callValue
    rw [readHeap_bind, hisCallable]
    exact hjoin
  change ((ofFuel (k + fuel + 1)).memberFunction scope (.array (es.map some)) (.name "join") >>=
    fun found => (ofFuel (k + fuel + 1)).evaluateArguments scope [.literal (.string "")] >>=
      fun args => do
        unless ← readHeap (·.isCallable found.2.1) do throwFault (.memberNotFunction found.2.2)
        (ofFuel (k + fuel + 1)).callValue found.2.1 found.1 args) m = _
  rw [bind_of_ok hfunction, bind_of_ok hargs, readHeap_bind, hisCallable]
  exact hcall

/-! ## Agreement -/

/-- **Three ways to put strings together.**  A template, a joined array and a sum of expressions
that are evaluated to strings all have a value, wherever there is fuel enough.  That of the first two
is one string, of the strings mended; that of the sum has the units of the strings.  They are the
same exactly if no surrogate stands alone in any of the strings. -/
theorem concatenations_eq_iff (h : HasStrings fuel scope es m vs m')
    (hm : m'.JoinsArrays join) :
    ∃ written whole : UnitString,
      HasValue (fuel + es.length + 2) scope (.templateOf es) m (.string written) m' ∧
      HasValue (fuel + es.length + 2) scope (.joinOf es) m (.string written)
        (m'.withArray (vs.map Value.string).toArray) ∧
      HasValue (fuel + es.length + 2) scope (.sumOf es) m (.string whole) m' ∧
      written.units.toList = (vs.map fun v => mend v.units.toList).flatten ∧
      whole.units.toList = (vs.map (·.units.toList)).flatten ∧
      (written = whole ↔ ∀ v ∈ vs, v.IsPaired) := by
  have hsum : ∃ whole : UnitString,
      HasValue (fuel + es.length + 2) scope (.sumOf es) m (.string whole) m' ∧
        whole.units.toList = (vs.map (·.units.toList)).flatten := by
    cases h with
    | nil => exact ⟨∅, fun k => rfl, rfl⟩
    | cons he hes =>
      refine ⟨_, (hasValue_sum he hes).mono (by simp only [List.length_cons]; omega), ?_⟩
      rw [units_foldl_append, List.map_cons, List.flatten_cons]
  obtain ⟨whole, hsum, hwhole⟩ := hsum
  refine ⟨_, whole, (hasValue_template h).mono (by omega), (hasValue_join h hm).mono (by omega),
    hsum, units_intercalate_text vs, hwhole, ?_⟩
  rw [← flatten_mend_eq_iff, ← units_intercalate_text, ← hwhole]
  exact units_inj.symm

end Engine

namespace Machine

/-- The object is the method `join` of the library, and arrays find it. -/
def findsJoin (m : Machine) (join : ObjectId) : Bool :=
  match m.heap.find? m.realm.arrayPrototype "join", (m.heap.get join).callable? with
  | some (.data (.object f) _ _), some (.native (.builtin (.array .join))) => decide (f = join)
  | _, _ => false

/-- At any point of a session arrays are joined by the method that they find. -/
theorem Passed.joinsArrays {suites : Prop} {accepted : Program → Prop} {m : Machine}
    (h : m.Passed suites accepted) {join : ObjectId} (hfound : m.findsJoin join = true)
    (hjoining : ∀ id ∈ m.joining, id.index < m.heap.size) : m.JoinsArrays join := by
  obtain ⟨hidden, hm⟩ := h.sound
  unfold findsJoin at hfound
  split at hfound
  · next hproperty hcallable =>
    rw [of_decide_eq_true hfound] at hproperty
    exact ⟨hm.closed, hm.arrayPrototype_lt, ⟨_, _, hproperty⟩, hcallable, hjoining⟩
  · cases hfound

end Machine

namespace Engine

open UnitString

/-- The two halves of a pair, each as a string of its own. -/
def halves : List Expression :=
  [.member (.literal (.string "😀")) (.computed (.literal (.number 0.0))),
    .member (.literal (.string "😀")) (.computed (.literal (.number 1.0)))]

/-- The halves of a pair are one character where they are added, and two replacement characters in
a template and in a joined array. -/
theorem concatenations_eq_iff_halves :
    HasStrings 2 ⟨0⟩ halves .initial [⟨#[0xD83D]⟩, ⟨#[0xDE00]⟩] .initial ∧
    Machine.initial.JoinsArrays ⟨47⟩ ∧
    ∃ written whole : UnitString,
      HasValue 6 ⟨0⟩ (.templateOf halves) .initial (.string written) .initial ∧
      HasValue 6 ⟨0⟩ (.joinOf halves) .initial (.string written)
        (Machine.initial.withArray #[.string ⟨#[0xD83D]⟩, .string ⟨#[0xDE00]⟩]) ∧
      HasValue 6 ⟨0⟩ (.sumOf halves) .initial (.string whole) .initial ∧
      written.units.toList = [replacementUnit, replacementUnit] ∧ whole = .ofString "😀" ∧
      written ≠ whole := by
  have hhalves : HasStrings 2 ⟨0⟩ halves .initial [⟨#[0xD83D]⟩, ⟨#[0xDE00]⟩] .initial :=
    .cons (fun k => rfl) (.cons (fun k => rfl) .nil)
  have hpassed : Machine.initial.Passed False fun _ => True := .hosted .initial
  have hjoin : Machine.initial.JoinsArrays ⟨47⟩ :=
    hpassed.joinsArrays (by decide +kernel) (by decide +kernel)
  obtain ⟨written, whole, htemplate, hjoined, hsum, hwritten, hwhole, -⟩ :=
    concatenations_eq_iff hhalves hjoin
  have htext : whole = .ofString "😀" := units_inj.mp (hwhole.trans (by decide))
  refine ⟨hhalves, hjoin, written, whole, htemplate, hjoined, hsum, hwritten, htext, ?_⟩
  rintro rfl
  rw [hwritten] at hwhole
  exact absurd hwhole (by decide)

end Engine

end EcmaEval
