import EcmaEval.Parser.Statement

/-!
# Flags that are handed back

A method that keeps what surrounds a phrase in flags is compared with a reader that is given a
context: it hands the flags back when it does in every state of the flags what the reader does in
the context that the flags tell, and leaves the flags as it found them.

Methods that hand the flags back do so one behind the other.  A method that writes flags hands them
back when what it writes behind a phrase undoes what it wrote before it.  That is no matter of
course: the head of a `for` does not save the flag that it writes, so that it hands the flag back
only where `in` was an operator before it, and no statement may begin inside of a head.

## Main definitions

* `Flagged.HandsBack`: a method does what a reader does, and hands the flags back
* `Flagged.unlessHead`: another method in the place of one that would begin in the head of a loop

## Main results

* `Flagged.HandsBack.bind`: methods that hand the flags back do so one behind the other
* `Flagged.HandsBack.scope`: flags that are written for a phrase and written back behind it
* `Flagged.HandsBack.forHead`: the flag that is not saved
-/

namespace EcmaEval

namespace Flags

/-- The flags that entering a function leaves. -/
def entered (f : Flags) (isAsync isGenerator isArrow : Bool) : Flags :=
  { f with
    inFunction := true
    inAsync := isAsync
    inGenerator := isGenerator
    loops := 0
    switches := 0
    labels := []
    superProperty := isArrow && f.superProperty
    superCall := isArrow && f.superCall }

/-- The flags that leaving a function leaves: those that were saved before it, but for the one of
the operator `in`, which stays. -/
def left (saved f : Flags) : Flags :=
  { saved with options := f.options, noIn := f.noIn }

end Flags

namespace Flagged

variable {α β : Type} {head : Bool} {q q' : Flagged α} {p p' : Parse α} {f : Flags}

/-- The method `q` does what the reader `p` does in the context that the flags tell, and leaves the
flags as they were.  `head` tells that it may stand in the head of a `for`. -/
class HandsBack (head : Bool) (q : Flagged α) (p : Parse α) : Prop where
  eq_read : ∀ f r, (f.noIn = true → head = true) → q f r = read p f r

/-- What a method returns when it hands the flags back. -/
theorem read_eq_bind (p : Parse α) (f : Flags) (r : Reading) :
    read p f r = p f.context r >>= fun y => .ok ((y.1, f), y.2) := by
  unfold read
  cases p f.context r with
  | error e => rfl
  | ok found => rfl

namespace HandsBack

/-- A reader that writes no flags. -/
instance lift (p : Parse α) : HandsBack head (liftM p : Flagged α) p := ⟨fun _ _ _ => rfl⟩

instance pure (x : α) : HandsBack head (pure x : Flagged α) (pure x) := ⟨fun _ _ _ => rfl⟩

instance bind {g : α → Flagged β} {g' : α → Parse β} [h : HandsBack head q p]
    [k : ∀ x, HandsBack head (g x) (g' x)] : HandsBack head (q >>= g) (p >>= g') where
  eq_read f r hf := by
    change (q f r >>= fun y => g y.1.1 y.1.2 y.2) = _
    rw [h.eq_read f r hf, read_eq_bind, read_eq_bind]
    change _ = (p f.context r >>= fun y => g' y.1 f.context y.2) >>= _
    rw [bind_assoc, bind_assoc]
    refine bind_congr fun y => ?_
    rw [← read_eq_bind]
    exact (k y.1).eq_read f y.2 hf

/-- Behind a failure nothing is read. -/
instance (priority := high) fail_bind (cause : SyntaxCause) {g : α → Flagged β} {k : α → Parse β} :
    HandsBack head ((liftM (Parse.fail cause : Parse α) : Flagged α) >>= g)
      (Parse.fail cause >>= k) :=
  ⟨fun _ _ _ => rfl⟩

instance (priority := high) unexpected_bind {g : α → Flagged β} {k : α → Parse β} :
    HandsBack head ((liftM (Parse.unexpected : Parse α) : Flagged α) >>= g)
      (Parse.unexpected >>= k) :=
  ⟨fun _ _ _ => rfl⟩

instance map (g : α → β) [HandsBack head q p] : HandsBack head (g <$> q) (g <$> p) := by
  rw [map_eq_pure_bind, map_eq_pure_bind]
  infer_instance

instance ite {b : Prop} [Decidable b] [HandsBack head q p] [HandsBack head q' p'] :
    HandsBack head (if b then q else q') (if b then p else p') := by
  split <;> assumption

/-! ## Methods that write flags -/

/-- A method that writes flags, reads a phrase and writes flags behind it hands them back when what
it writes behind the phrase makes them what they were.  The equation `hrun` says what it writes. -/
theorem scope {m : Flagged β} {n : Parse β} (inside : Bool) (enter : Flags → Flags)
    (leave : Flags → Flags → Flags) (change : Context → Context) (k : α → β)
    [h : HandsBack inside q p]
    (hrun : ∀ f r, m f r = q (enter f) r >>= fun y => .ok ((k y.1.1, leave f y.1.2), y.2))
    (hread : n = Parse.within change (k <$> p))
    (hinside : ∀ f, (f.noIn = true → head = true) → (enter f).noIn = true → inside = true)
    (hcontext : ∀ f, (enter f).context = change f.context)
    (hleave : ∀ f, (f.noIn = true → head = true) → leave f (enter f) = f) :
    HandsBack head m n where
  eq_read f r hf := by
    -- The reader has its context from the flags that are written before the phrase.
    have hmap : n f.context r = p (enter f).context r >>= fun y => .ok (k y.1, y.2) := by
      rw [hread, map_eq_pure_bind, hcontext]
      rfl
    rw [hrun, h.eq_read _ r (hinside f hf), read_eq_bind, read_eq_bind, hmap, bind_assoc,
      bind_assoc]
    exact bind_congr fun y => congrArg (fun g => Except.ok ((k y.1, g), y.2)) (hleave f hf)

/-- Between brackets `in` is an operator, and behind them what it was before. -/
instance allowIn [HandsBack false q p] : HandsBack head (allowIn q) p.withIn :=
  scope false (fun f => { f with noIn := false }) (fun saved f => { f with noIn := saved.noIn })
    (fun c => { c with noIn := false }) id (fun _ _ => rfl) (congrArg _ (id_map p).symm)
    (fun _ _ h => absurd h Bool.false_ne_true) (fun _ => rfl) fun _ _ => rfl

/-- The head of a `for` sets the flag and clears it.  It was not set before, because no statement
begins inside of a head. -/
theorem forHead {g : α → Flagged β} {g' : α → Parse β} [HandsBack true q p]
    [k : ∀ x, HandsBack false (g x) (g' x)] :
    HandsBack false
      (do
        modify ({ · with noIn := true })
        let x ← q
        modify ({ · with noIn := false })
        g x)
      (Grammar.withoutIn p >>= g') := by
  have hscope : HandsBack false
      (do
        modify ({ · with noIn := true })
        let x ← q
        modify ({ · with noIn := false })
        return x)
      (Grammar.withoutIn p) := by
    refine scope true (fun f => { f with noIn := true }) (fun _ f => { f with noIn := false })
      (fun c => { c with noIn := true }) id (fun _ _ => rfl) (congrArg _ (id_map p).symm)
      (fun _ _ _ => rfl) (fun _ => rfl) fun f hf => ?_
    -- Clearing the flag puts it back only because it was clear.
    have hnoIn : false = f.noIn := by
      cases hset : f.noIn with
      | false => rfl
      | true => exact hf hset
    dsimp only
    rw [hnoIn]
  have hbind := bind (h := hscope) (k := k)
  simpa only [bind_assoc, pure_bind] using hbind

end HandsBack

/-! ## Statements in the head of a loop -/

/-- Does something else where `in` is no operator. -/
def unlessHead (other phrase : Flagged α) : Flagged α := fun f =>
  if f.noIn then other f else phrase f

/-- A statement does not begin in a head. -/
theorem HandsBack.unlessHead (other : Flagged α) (h : HandsBack false q p) :
    HandsBack false (unlessHead other q) p where
  eq_read f r hf := by
    have hnoIn : ¬f.noIn = true := fun hset => Bool.false_ne_true (hf hset)
    unfold Flagged.unlessHead
    rw [if_neg hnoIn]
    exact h.eq_read f r hf

end Flagged

end EcmaEval
