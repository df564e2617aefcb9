import Mathlib
import EcmaEval.Session
import EcmaEval.Proofs.Conduct.Arrays

/-!
# Index arguments

Methods of arrays and strings take arguments for where to begin and where to stop.  Some of them convert
such an argument as any value is converted to a number, with calls of the methods of an object.  The
others look only at the number that a primitive value is, and an object counts as no number for them,
which stands for the index zero.

So an argument may be given as its number wherever it is converted, and where it is a primitive value.
The one value that is no number here is an undefined end: it stands for the end of the sequence.

## Main definitions

* `Builtin.TakesIndex`: the index arguments of methods, and whether objects are converted there
* `Engine.beforeIndex`: what a method does before it comes to an index argument
* `Engine.ConvertsQuietly`: a value is a number, and its conversion goes unnoticed

## Main results

* `Engine.callBuiltin_congr`: what a method that converts no objects sees of an index argument
* `Engine.exists_convertsBetween`: how a method that converts objects uses an index argument
* `Engine.callBuiltin_index`: an index argument that is given as its number
-/

namespace EcmaEval

/-! ## The arguments -/

/-- What an index argument tells: where to begin, or where to stop. -/
inductive IndexKind where
  | start
  | stop
  deriving DecidableEq, Repr

/-- A method takes an index as the argument at a place.  It converts an object that is given for it, or
it takes no number from it. -/
inductive Builtin.TakesIndex :
    Builtin → (place : Nat) → IndexKind → (convertsObjects : Bool) → Prop where
  | arraySliceStart : TakesIndex (.array .slice) 0 .start false
  | arraySliceStop : TakesIndex (.array .slice) 1 .stop false
  | splice : TakesIndex (.array .splice) 0 .start false
  | arrayIndexOf : TakesIndex (.array .indexOf) 1 .start false
  | arrayIncludes : TakesIndex (.array .includes) 1 .start false
  | stringSliceStart : TakesIndex (.string (.method .slice)) 0 .start false
  | stringSliceStop : TakesIndex (.string (.method .slice)) 1 .stop false
  | substringStart : TakesIndex (.string (.method .substring)) 0 .start true
  | substringStop : TakesIndex (.string (.method .substring)) 1 .stop true
  | stringIndexOf : TakesIndex (.string (.method .indexOf)) 1 .start true
  | stringIncludes : TakesIndex (.string (.method .includes)) 1 .start true

/-- The value that an action gives on a machine, if it ends with one. -/
def Action.valueOn? {α : Type} (a : Action α) (m : Machine) : Option α :=
  match a m with
  | .ok x _ => some x
  | .error .. => none

namespace Engine

open EcmaEval.Action

/-- What a method does before it converts an index argument: it converts its receiver, and the
arguments in front. -/
def beforeIndex (engine : Engine) (f : Builtin) (this : Value) (args : List Value) (place : Nat) :
    Action Unit := do
  match f with
  | .string (.method method) =>
    let s ← engine.receivedUnits this method
    match method, place with
    | .substring, 1 => let _ ← engine.clampedArgument args[0]? 0 s.size
    | .indexOf, _ | .includes, _ => let _ ← engine.toUnits (Value.argument args 0)
    | _, _ => return
  | _ => return

/-- No conversion tells the second machine from the first. -/
def Unnoticed (engine : Engine) (m m' : Machine) : Prop :=
  ∀ w, (engine.toNumber w).valueOn? m' = (engine.toNumber w).valueOn? m

/-- On a machine, a value converts to a number, and no conversion behind it notices that it did. -/
def ConvertsQuietly (engine : Engine) (v : Value) (x : Float) (m : Machine) : Prop :=
  ∃ m', engine.toNumber v m = .ok x m' ∧ engine.Unnoticed m m'

end Engine

/-! ## Indices -/

namespace Number

theorem relativeIndex_zero (size : Nat) : relativeIndex 0.0 size = 0 := by
  have hinteger : toIntegerOrInfinity 0.0 = 0.0 := by decide +kernel
  have hless : ¬ (0.0 : Float) < 0.0 := by decide +kernel
  have hle : (0.0 : Float) ≤ 0.0 := by decide +kernel
  rw [relativeIndex, hinteger, if_neg hless, clampIndex, if_pos hle]

theorem relativeIndex_nan (size : Nat) : relativeIndex nan size = 0 := by
  have hinteger : toIntegerOrInfinity nan = toIntegerOrInfinity 0.0 := by decide +kernel
  rw [relativeIndex, hinteger]
  exact relativeIndex_zero size

theorem clampIndex_nan (size : Nat) : clampIndex (toIntegerOrInfinity nan) size = 0 := by
  have hle : toIntegerOrInfinity nan ≤ 0.0 := by decide +kernel
  rw [clampIndex, if_pos hle]

theorem clampIndex_zero (size : Nat) : clampIndex (Float.ofNat 0) size = 0 := by
  have hle : Float.ofNat 0 ≤ 0.0 := by decide +kernel
  rw [clampIndex, if_pos hle]

end Number

namespace Engine

open EcmaEval.Action

variable {engine : Engine} {m : Machine} {v : Value} {x : Float} {args : List Value} {default size : Nat}

/-- The number of a primitive value. -/
theorem toNumber_of_primitive (hv : v.isObject = false) (m : Machine) :
    engine.toNumber v m = .ok v.toNumber m := by
  cases v with
  | object id => cases hv
  | _ => rfl

/-- An index that is given as a primitive value names what its number names. -/
theorem indexArgument_toNumber (hgiven : default = 0 ∨ v ≠ .undefined) (size : Nat) :
    indexArgument (some v) size default = indexArgument (some (.number v.toNumber)) size default := by
  cases v with
  | undefined =>
    obtain rfl := hgiven.resolve_right (not_not_intro rfl)
    exact (Number.relativeIndex_nan size).symm
  | _ => rfl

/-- An object names the index zero. -/
theorem indexArgument_of_isObject (hv : v.isObject = true) (size default : Nat) :
    indexArgument (some v) size default = indexArgument (some (.number 0.0)) size default := by
  cases v with
  | object id => exact (Number.relativeIndex_nan size).trans (Number.relativeIndex_zero size).symm
  | _ => cases hv

theorem clampedArgument_of_ne (hv : v ≠ .undefined) (default size : Nat) :
    engine.clampedArgument (some v) default size = engine.toNumber v >>= fun x =>
      pure (Number.clampIndex (Number.toIntegerOrInfinity x) size) := by
  have hinteger : engine.integerArgument (some v) (Float.ofNat default) =
      engine.toNumber v >>= fun x => pure (Number.toIntegerOrInfinity x) := by
    cases v with
    | undefined => exact absurd rfl hv
    | _ => rfl
  rw [clampedArgument, hinteger, bind_assoc]
  simp only [pure_bind]

/-- Where objects are converted, any value names what its number names. -/
theorem clampedArgument_apply {m₁ : Machine} (hx : engine.toNumber v m = .ok x m₁)
    (hgiven : default = 0 ∨ v ≠ .undefined) :
    engine.clampedArgument (some v) default size m =
      .ok (Number.clampIndex (Number.toIntegerOrInfinity x) size) m₁ := by
  -- A missing start is zero, which is what the number of `undefined` names too.
  by_cases hv : v = .undefined
  · subst hv
    obtain rfl := hgiven.resolve_right (not_not_intro rfl)
    cases hx
    have hdefault : engine.clampedArgument (some .undefined) 0 size m =
        .ok (Number.clampIndex (Float.ofNat 0) size) m := rfl
    rw [hdefault, Number.clampIndex_zero]
    exact congrArg (EStateM.Result.ok · m) (Number.clampIndex_nan size).symm
  · rw [clampedArgument_of_ne hv, Discipline.bind_of_ok hx]
    rfl

theorem valueOn?_map {α β : Type} (a : Action α) (f : α → β) (m : Machine) :
    (a >>= fun y => pure (f y)).valueOn? m = (a.valueOn? m).map f := by
  unfold valueOn?
  rw [Discipline.bind_apply]
  cases a m <;> rfl

theorem valueOn?_clampedArgument {m' : Machine} (h : engine.Unnoticed m m') (arg : Option Value)
    (default size : Nat) : (engine.clampedArgument arg default size).valueOn? m' =
      (engine.clampedArgument arg default size).valueOn? m := by
  cases arg with
  | none => rfl
  | some v =>
    by_cases hv : v = .undefined
    · subst hv
      rfl
    · rw [clampedArgument_of_ne hv, valueOn?_map, valueOn?_map, h v]

/-! ## Methods -/

section Equations

variable (this : Value) (args : List Value)

theorem callBuiltin_arraySlice : engine.callBuiltin (.array .slice) this args =
    receivedArray this .slice >>= fun id => elementsOf id >>= fun elements =>
      newArray (elements.extract (indexArgument args[0]? elements.size 0)
        (indexArgument args[1]? elements.size elements.size)) := rfl

theorem callBuiltin_splice : engine.callBuiltin (.array .splice) this args =
    receivedArray this .splice >>= fun id => engine.spliceArray id args := rfl

theorem callBuiltin_arrayIndexOf : engine.callBuiltin (.array .indexOf) this args =
    receivedArray this .indexOf >>= fun id => elementsOf id >>= fun elements =>
      match searchFrom elements (indexArgument args[1]? elements.size 0)
        (·.strictEqual (Value.argument args 0)) with
      | some i => return .ofNat i
      | none => return .number (-1.0) := rfl

theorem callBuiltin_arrayIncludes : engine.callBuiltin (.array .includes) this args =
    receivedArray this .includes >>= fun id => elementsOf id >>= fun elements =>
      return .boolean (searchFrom elements (indexArgument args[1]? elements.size 0)
        (·.sameValueZero (Value.argument args 0))).isSome := rfl

theorem callBuiltin_stringSlice : engine.callBuiltin (.string (.method .slice)) this args =
    engine.receivedUnits this .slice >>= fun s =>
      return .string (s.slice (indexArgument args[0]? s.size 0) (indexArgument args[1]? s.size s.size)) :=
  rfl

theorem callBuiltin_substring : engine.callBuiltin (.string (.method .substring)) this args =
    engine.receivedUnits this .substring >>= fun s =>
      engine.clampedArgument args[0]? 0 s.size >>= fun start =>
        engine.clampedArgument args[1]? s.size s.size >>= fun stop =>
          return .string (s.slice (min start stop) (max start stop)) := rfl

theorem callBuiltin_stringIndexOf : engine.callBuiltin (.string (.method .indexOf)) this args =
    engine.receivedUnits this .indexOf >>= fun s =>
      engine.toUnits (Value.argument args 0) >>= fun search =>
        engine.clampedArgument args[1]? 0 s.size >>= fun start =>
          return indexValue (s.indexOf? search start) := rfl

theorem callBuiltin_stringIncludes : engine.callBuiltin (.string (.method .includes)) this args =
    engine.receivedUnits this .includes >>= fun s =>
      engine.toUnits (Value.argument args 0) >>= fun search =>
        engine.clampedArgument args[1]? 0 s.size >>= fun start =>
          return .boolean (s.indexOf? search start).isSome := rfl

end Equations

theorem exists_of_getElem?_zero (hv : args[0]? = some v) : ∃ rest, args = v :: rest := by
  cases args with
  | nil => cases hv
  | cons first rest => exact ⟨rest, by rw [Option.some.inj hv]⟩

theorem exists_of_getElem?_one (hv : args[1]? = some v) : ∃ first rest, args = first :: v :: rest := by
  cases args with
  | nil => cases hv
  | cons first rest =>
    obtain ⟨rest, rfl⟩ := exists_of_getElem?_zero hv
    exact ⟨first, rest, rfl⟩

theorem set_of_getElem? {place : Nat} (hv : args[place]? = some v) : args.set place v = args := by
  obtain ⟨hplace, rfl⟩ := List.getElem?_eq_some_iff.mp hv
  exact List.set_getElem_self hplace

section Places

variable {f : Builtin} {place : Nat} {kind : IndexKind}

/-- The methods that convert no objects see an index argument as an index alone. -/
theorem callBuiltin_congr {w : Value} (htakes : f.TakesIndex place kind false)
    (hv : args[place]? = some v)
    (hindex : ∀ size default, default = 0 ∨ kind = .stop →
      indexArgument (some v) size default = indexArgument (some w) size default) (this : Value) :
    engine.callBuiltin f this args = engine.callBuiltin f this (args.set place w) := by
  have hstart (size : Nat) : indexArgument (some v) size 0 = indexArgument (some w) size 0 :=
    hindex size 0 (.inl rfl)
  cases htakes with
  | arraySliceStart =>
    obtain ⟨rest, rfl⟩ := exists_of_getElem?_zero hv
    simp only [callBuiltin_arraySlice, List.set_cons_zero, List.getElem?_cons_zero,
      List.getElem?_cons_succ, hstart]
  | arraySliceStop =>
    obtain ⟨first, rest, rfl⟩ := exists_of_getElem?_one hv
    simp only [callBuiltin_arraySlice, List.set_cons_succ, List.set_cons_zero,
      List.getElem?_cons_zero, List.getElem?_cons_succ, hindex _ _ (.inr rfl)]
  | splice =>
    obtain ⟨rest, rfl⟩ := exists_of_getElem?_zero hv
    -- The number of elements to delete comes from the argument behind.
    have hcount (size : Nat) :
        engine.spliceCount (v :: rest) size = engine.spliceCount (w :: rest) size := by
      cases rest <;> rfl
    simp only [callBuiltin_splice, spliceArray, List.set_cons_zero, List.getElem?_cons_zero,
      List.drop_succ_cons, hstart, hcount]
  | arrayIndexOf =>
    obtain ⟨first, rest, rfl⟩ := exists_of_getElem?_one hv
    simp only [callBuiltin_arrayIndexOf, List.set_cons_succ, List.set_cons_zero, Value.argument,
      List.getElem?_cons_zero, List.getElem?_cons_succ, List.getD_cons_zero, hstart]
  | arrayIncludes =>
    obtain ⟨first, rest, rfl⟩ := exists_of_getElem?_one hv
    simp only [callBuiltin_arrayIncludes, List.set_cons_succ, List.set_cons_zero, Value.argument,
      List.getElem?_cons_zero, List.getElem?_cons_succ, List.getD_cons_zero, hstart]
  | stringSliceStart =>
    obtain ⟨rest, rfl⟩ := exists_of_getElem?_zero hv
    simp only [callBuiltin_stringSlice, List.set_cons_zero, List.getElem?_cons_zero,
      List.getElem?_cons_succ, hstart]
  | stringSliceStop =>
    obtain ⟨first, rest, rfl⟩ := exists_of_getElem?_one hv
    simp only [callBuiltin_stringSlice, List.set_cons_succ, List.set_cons_zero,
      List.getElem?_cons_zero, List.getElem?_cons_succ, hindex _ _ (.inr rfl)]

/-- A method whose receiver cannot be converted fails, whatever its arguments are. -/
theorem callBuiltin_of_beforeIndex_error (htakes : f.TakesIndex place kind false) {this : Value}
    {e : Abrupt} {m₁ : Machine} (h : engine.beforeIndex f this args place m = .error e m₁)
    (args' : List Value) : engine.callBuiltin f this args' m = .error e m₁ := by
  have hslice {place : Nat}
      (h : engine.beforeIndex (.string (.method .slice)) this args place m = .error e m₁) :
      engine.callBuiltin (.string (.method .slice)) this args' m = .error e m₁ := by
    have hbefore : engine.beforeIndex (.string (.method .slice)) this args place =
        engine.receivedUnits this .slice >>= fun _ => pure () := rfl
    rw [hbefore, Discipline.bind_apply] at h
    rw [callBuiltin_stringSlice, Discipline.bind_apply]
    cases hreceived : engine.receivedUnits this .slice m with
    | ok s m₂ =>
      rw [hreceived] at h
      cases h
    | error e₂ m₂ =>
      rw [hreceived] at h
      cases h
      rfl
  cases htakes with
  | stringSliceStart => exact hslice h
  | stringSliceStop => exact hslice h
  | _ => cases h

/-- Where objects are not converted, an index that is a primitive value may be given as its number. -/
theorem callBuiltin_primitive (htakes : f.TakesIndex place kind false) (hv : args[place]? = some v)
    (hgiven : kind = .stop → v ≠ .undefined) (hprimitive : v.isObject = false) (this : Value)
    (hnumber : ∀ m₁, engine.beforeIndex f this args place m = .ok () m₁ →
      ∃ m₂, engine.toNumber v m₁ = .ok x m₂) :
    engine.callBuiltin f this args m = engine.callBuiltin f this (args.set place (.number x)) m := by
  cases hbefore : engine.beforeIndex f this args place m with
  | error e m₁ =>
    rw [callBuiltin_of_beforeIndex_error htakes hbefore,
      callBuiltin_of_beforeIndex_error htakes hbefore]
  | ok _ m₁ =>
    obtain ⟨m₂, hx⟩ := hnumber m₁ hbefore
    rw [toNumber_of_primitive hprimitive] at hx
    obtain rfl : v.toNumber = x := by injection hx
    exact congrFun (callBuiltin_congr htakes hv
      (fun size _ hdefault => indexArgument_toNumber (hdefault.imp_right hgiven) size) this) m

/-- A method that converts objects first does what does not depend on the index, then converts the
index, and goes on with that. -/
structure ConvertsBetween (engine : Engine) (f : Builtin) (this : Value) (args : List Value)
    (place : Nat) (kind : IndexKind) {σ : Type} (prepare : Action σ) (fallback size : σ → Nat)
    (goOn : σ → Nat → Action Value) : Prop where
  before : engine.beforeIndex f this args place = prepare >>= fun _ => pure ()
  call : ∀ w, engine.callBuiltin f this (args.set place w) =
    prepare >>= fun s => engine.clampedArgument (some w) (fallback s) (size s) >>= goOn s
  start : kind = .start → ∀ s, fallback s = 0
  behind : ∀ s i m m', engine.Unnoticed m m' → (goOn s i).valueOn? m' = (goOn s i).valueOn? m

theorem exists_convertsBetween (engine : Engine) (htakes : f.TakesIndex place kind true)
    (hv : args[place]? = some v) (this : Value) : ∃ (σ : Type) (prepare : Action σ) (fallback size : σ → Nat)
      (goOn : σ → Nat → Action Value),
      engine.ConvertsBetween f this args place kind prepare fallback size goOn := by
  cases htakes with
  | substringStart =>
    obtain ⟨rest, rfl⟩ := exists_of_getElem?_zero hv
    refine ⟨UnitString, engine.receivedUnits this .substring, fun _ => 0, UnitString.size, fun s start =>
      engine.clampedArgument rest[0]? s.size s.size >>= fun stop =>
        return .string (s.slice (min start stop) (max start stop)), rfl, fun w => ?_, fun _ _ => rfl, ?_⟩
    · simp only [callBuiltin_substring, List.set_cons_zero, List.getElem?_cons_zero,
        List.getElem?_cons_succ]
    · intro s start m m' hunnoticed
      rw [valueOn?_map, valueOn?_map, valueOn?_clampedArgument hunnoticed]
  -- The start is converted in front of the stop, and kept with the receiver.
  | substringStop =>
    obtain ⟨first, rest, rfl⟩ := exists_of_getElem?_one hv
    refine ⟨UnitString × Nat, engine.receivedUnits this .substring >>= fun s =>
        engine.clampedArgument (some first) 0 s.size >>= fun start => pure (s, start),
      fun s => s.1.size, fun s => s.1.size, fun s stop =>
        return .string (s.1.slice (min s.2 stop) (max s.2 stop)),
      ?_, fun w => ?_, nofun, fun _ _ _ _ _ => rfl⟩
    · simp only [bind_assoc, pure_bind]
      rfl
    · simp only [callBuiltin_substring, List.set_cons_succ, List.set_cons_zero, List.getElem?_cons_zero,
        List.getElem?_cons_succ, bind_assoc, pure_bind]
  | stringIndexOf =>
    obtain ⟨first, rest, rfl⟩ := exists_of_getElem?_one hv
    refine ⟨UnitString × UnitString, engine.receivedUnits this .indexOf >>= fun s =>
        engine.toUnits first >>= fun search => pure (s, search),
      fun _ => 0, fun s => s.1.size, fun s start => return indexValue (s.1.indexOf? s.2 start),
      ?_, fun w => ?_, fun _ _ => rfl, fun _ _ _ _ _ => rfl⟩
    · simp only [bind_assoc, pure_bind]
      rfl
    · simp only [callBuiltin_stringIndexOf, List.set_cons_succ, List.set_cons_zero, Value.argument,
        List.getD_cons_zero, List.getElem?_cons_zero, List.getElem?_cons_succ, bind_assoc, pure_bind]
  | stringIncludes =>
    obtain ⟨first, rest, rfl⟩ := exists_of_getElem?_one hv
    refine ⟨UnitString × UnitString, engine.receivedUnits this .includes >>= fun s =>
        engine.toUnits first >>= fun search => pure (s, search),
      fun _ => 0, fun s => s.1.size, fun s start => return .boolean (s.1.indexOf? s.2 start).isSome,
      ?_, fun w => ?_, fun _ _ => rfl, fun _ _ _ _ _ => rfl⟩
    · simp only [bind_assoc, pure_bind]
      rfl
    · simp only [callBuiltin_stringIncludes, List.set_cons_succ, List.set_cons_zero, Value.argument,
        List.getD_cons_zero, List.getElem?_cons_zero, List.getElem?_cons_succ, bind_assoc, pure_bind]

namespace ConvertsBetween

variable {σ : Type} {prepare : Action σ} {fallback size : σ → Nat} {goOn : σ → Nat → Action Value}
  {this : Value} {s : σ} {m₁ m₂ : Machine} {e : Abrupt}

theorem call_of_error (h : engine.ConvertsBetween f this args place kind prepare fallback size goOn)
    (hs : prepare m = .error e m₁) (w : Value) :
    engine.callBuiltin f this (args.set place w) m = .error e m₁ := by
  rw [h.call, Discipline.bind_apply, hs]

/-- The call goes on from where the conversion of the index ends. -/
theorem call_of_ok (h : engine.ConvertsBetween f this args place kind prepare fallback size goOn)
    (hs : prepare m = .ok s m₁) {w : Value} (hx : engine.toNumber w m₁ = .ok x m₂)
    (hgiven : kind = .stop → w ≠ .undefined) :
    engine.callBuiltin f this (args.set place w) m =
      goOn s (Number.clampIndex (Number.toIntegerOrInfinity x) (size s)) m₂ := by
  have hfallback : fallback s = 0 ∨ w ≠ .undefined := by
    cases kind with
    | start => exact .inl (h.start rfl s)
    | stop => exact .inr (hgiven rfl)
  rw [h.call, Discipline.bind_of_ok hs, Discipline.bind_of_ok (clampedArgument_apply hx hfallback)]

end ConvertsBetween

/-- Where objects are converted, an index may be given as its number. -/
theorem valueOn?_converted (htakes : f.TakesIndex place kind true) (hv : args[place]? = some v)
    (hgiven : kind = .stop → v ≠ .undefined) (this : Value)
    (hquiet : ∀ m₁, engine.beforeIndex f this args place m = .ok () m₁ →
      engine.ConvertsQuietly v x m₁) :
    (engine.callBuiltin f this args).valueOn? m =
      (engine.callBuiltin f this (args.set place (.number x))).valueOn? m := by
  obtain ⟨σ, prepare, fallback, size, goOn, h⟩ :=
    exists_convertsBetween engine htakes hv this
  nth_rewrite 1 [← set_of_getElem? hv]
  unfold valueOn?
  cases hs : prepare m with
  | error e m₁ => rw [h.call_of_error hs, h.call_of_error hs]
  | ok s m₁ =>
    obtain ⟨m₂, hx, hunnoticed⟩ := hquiet m₁ (by rw [h.before, Discipline.bind_of_ok hs]; rfl)
    rw [h.call_of_ok hs hx hgiven, h.call_of_ok (w := .number x) (x := x) hs rfl nofun]
    exact h.behind s _ m₁ m₂ hunnoticed

/-- A conversion that leaves the machine as it is makes no difference at all. -/
theorem callBuiltin_converted (htakes : f.TakesIndex place kind true) (hv : args[place]? = some v)
    (hgiven : kind = .stop → v ≠ .undefined) (this : Value)
    (hnumber : ∀ m₁, engine.beforeIndex f this args place m = .ok () m₁ →
      engine.toNumber v m₁ = .ok x m₁) :
    engine.callBuiltin f this args m = engine.callBuiltin f this (args.set place (.number x)) m := by
  obtain ⟨σ, prepare, fallback, size, goOn, h⟩ :=
    exists_convertsBetween engine htakes hv this
  nth_rewrite 1 [← set_of_getElem? hv]
  cases hs : prepare m with
  | error e m₁ => rw [h.call_of_error hs, h.call_of_error hs]
  | ok s m₁ =>
    have hx := hnumber m₁ (by rw [h.before, Discipline.bind_of_ok hs]; rfl)
    rw [h.call_of_ok hs hx hgiven, h.call_of_ok (w := .number x) (x := x) hs rfl nofun]

/-- An index argument that is converted counts as its number; an object that is given to a method that
converts none counts as zero. -/
theorem callBuiltin_index (engine : Engine) {converts : Bool} (htakes : f.TakesIndex place kind converts)
    (hv : args[place]? = some v) (hgiven : kind = .stop → v ≠ .undefined) (this : Value)
    (hquiet : ∀ m₁, engine.beforeIndex f this args place m = .ok () m₁ →
      engine.ConvertsQuietly v x m₁) :
    (converts = true ∨ v.isObject = false →
      (engine.callBuiltin f this args).valueOn? m =
        (engine.callBuiltin f this (args.set place (.number x))).valueOn? m ∧
      ((∀ m₁, engine.beforeIndex f this args place m = .ok () m₁ →
          engine.toNumber v m₁ = .ok x m₁) →
        engine.callBuiltin f this args m = engine.callBuiltin f this (args.set place (.number x)) m)) ∧
    (converts = false → v.isObject = true →
      engine.callBuiltin f this args m = engine.callBuiltin f this (args.set place (.number 0.0)) m) := by
  cases converts with
  | true => exact ⟨fun _ => ⟨valueOn?_converted htakes hv hgiven this hquiet,
      callBuiltin_converted htakes hv hgiven this⟩, nofun⟩
  | false =>
    refine ⟨fun hprimitive => ?_, fun _ hobject => ?_⟩
    · have hsame := callBuiltin_primitive htakes hv hgiven (hprimitive.resolve_left Bool.false_ne_true)
        this fun m₁ hm₁ => (hquiet m₁ hm₁).imp fun _ h => h.1
      exact ⟨by unfold valueOn?; rw [hsame], fun _ => hsame⟩
    · exact congrFun (callBuiltin_congr htakes hv
        (fun size default _ => indexArgument_of_isObject hobject size default) this) m

end Places

/-- A program whose value is an object that is a number: it asks itself whether it has a property of the
name `undefined`. -/
def ownQuestion : String := "({ valueOf: Object.prototype.hasOwnProperty, undefined: 0 })"

/-- The object asks itself for its number, and answers that it has a property. -/
def answersItself (m : Machine) (o : ObjectId) : Bool :=
  match m.heap.find? o "valueOf" with
  | some (.data (.object f) _ _) =>
    match (m.heap.get f).callable? with
    | some (.native (.builtin (.object .hasOwnProperty))) => (m.heap.get o).hasOwn "undefined"
    | _ => false
  | _ => false

/-- The first method that is asked gives the primitive value of an object. -/
theorem primitiveByMethods_of_answer {o f : ObjectId} {method : String} {methods : List String}
    {result : Value} {m₁ m₂ : Machine} (hget : engine.getOf o method m = .ok (.object f) m₁)
    (hcallable : m₁.heap.isCallable (.object f) = true)
    (hcall : engine.callValue (.object f) (.object o) [] m₁ = .ok result m₂)
    (hresult : result.isObject = false) :
    engine.primitiveByMethods o (method :: methods) m = .ok result m₂ := by
  rw [primitiveByMethods, Discipline.bind_of_ok hget, readHeap_bind, hcallable, if_pos rfl,
    Discipline.bind_of_ok hcall, hresult]
  rfl

theorem toNumber_of_answersItself {o : ObjectId} (h : answersItself m o = true) :
    (ofFuel 1).toNumber (.object o) m = .ok 1.0 m := by
  unfold answersItself at h
  split at h
  · next f _ _ hfind =>
    split at h
    · next hcallable =>
      have hget : (ofFuel 1).getOf o "valueOf" m = .ok (.object f) m := by
        unfold getOf getProperty
        rw [readHeap_bind, hfind]
        rfl
      have hfunction : m.heap.isCallable (.object f) = true := by
        change (m.heap.get f).callable?.isSome = true
        rw [hcallable]
        rfl
      have hcall : (ofFuel 1).callValue (.object f) (.object o) [] m = .ok (.boolean true) m := by
        have hrun : (ofFuel 0).callFunction f (.object o) [] m =
            .ok (.boolean ((m.heap.get o).hasOwn "undefined")) m := by
          unfold callFunction
          rw [readHeap_bind, hcallable]
          rfl
        unfold callValue
        rw [readHeap_bind, hfunction]
        exact hrun.trans (by rw [h])
      exact Discipline.bind_of_ok (primitiveByMethods_of_answer hget hfunction hcall rfl)
    · cases h
  · cases h

/-- An object that is the number one begins a part of a string at index one where it is converted, and at
index zero where it is not. -/
theorem callBuiltin_index_object : ∃ (m : Machine) (o : ObjectId),
    (ofFuel 1).ConvertsQuietly (.object o) 1.0 m ∧
    ((ofFuel 1).callBuiltin (.string (.method .substring)) (.string (.ofString "abc"))
      [.object o]).valueOn? m = some (.string (.ofString "bc")) ∧
    ((ofFuel 1).callBuiltin (.string (.method .slice)) (.string (.ofString "abc"))
      [.object o]).valueOn? m = some (.string (.ofString "abc")) := by
  have hchecks : answersItself (Machine.initial.evaluate ownQuestion).machine ⟨122⟩ = true := by
    decide +kernel
  generalize (Machine.initial.evaluate ownQuestion).machine = m at hchecks
  have hquiet : (ofFuel 1).ConvertsQuietly (.object ⟨122⟩) 1.0 m :=
    ⟨m, toNumber_of_answersItself hchecks, fun _ => rfl⟩
  have hargs : [Value.object ⟨122⟩][0]? = some (.object ⟨122⟩) := rfl
  have hsubstring := callBuiltin_index (ofFuel 1) .substringStart hargs nofun
    (.string (.ofString "abc")) (m := m) (x := 1.0) fun m₁ h => by
      cases h
      exact hquiet
  have hslice := callBuiltin_index (ofFuel 1) .stringSliceStart hargs nofun
    (.string (.ofString "abc")) (m := m) (x := 1.0) fun m₁ h => by
      cases h
      exact hquiet
  refine ⟨m, ⟨122⟩, hquiet, (hsubstring.1 (.inl rfl)).1.trans ?_, ?_⟩
  · have hpart : UnitString.slice (.ofString "abc") (min 1 3) (max 1 3) = .ofString "bc" := by
      decide +kernel
    exact congrArg (some ∘ Value.string) hpart
  · unfold valueOn?
    rw [hslice.2 rfl rfl]
    have hwhole : UnitString.slice (.ofString "abc") 0 3 = .ofString "abc" := by decide +kernel
    exact congrArg (some ∘ Value.string) hwhole

end Engine

end EcmaEval
