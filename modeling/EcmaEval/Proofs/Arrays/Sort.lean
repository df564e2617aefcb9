import Mathlib.Data.List.Basic
import Mathlib.Data.List.Permutation
import EcmaEval.Proofs.Conduct.Arrays

/-!
# Merging by answers, and sorting arrays

A merge sort asks whether one element precedes another, and goes by the answers.  Whatever these are,
it only puts the elements in another order.  If they are those of a total preorder, the elements come
in that order, and those that it does not tell apart stay in the order in which they were.

`sort` takes the elements out of an array, compares them by a function of the program or as strings,
and writes them back when all comparisons have ended.  The comparisons that it makes are runs of
code, one behind the other.

## Main definitions

* `MergedBy`, `SortedBy`: what merging and sorting by some answers gives
* `TotalPreorderOn`: a relation is a total preorder on the elements of a list
* `StablyOrders`: elements stand in the order of a relation, and else in the order in which they were
* `Engine.MergeCompares`, `Engine.SortCompares`: the comparisons that merging and sorting make
* `Engine.Arranges`: elements in another order, undefined last
* `Engine.ComparesApart`, `Engine.AnswersBy`, `Engine.ConvertsTo`: what comparisons may be like
* `Engine.unitsLe`: the order of values by the code units of texts

## Main results

* `SortedBy.perm`: sorting is a matter of order only
* `SortedBy.stablyOrders`: sorting by a total preorder
* `Engine.sortedBy_of_sortValues`: the elements are sorted by the answers of the comparisons
* `Engine.SortCompares.fails`, `Engine.exists_of_sortValues_eq_error`: sorting fails just where a
  comparison does
* `Engine.callArray_sort`: what `sort` does to an array
-/

namespace EcmaEval

variable {α : Type}

/-- A list is two lists merged.  The answers tell whether the first element of the right one precedes
that of the left one. -/
inductive MergedBy (answers : α → α → Bool → Prop) : List α → List α → List α → Prop where
  | onlyLeft (left : List α) : MergedBy answers left [] left
  | onlyRight (right : List α) : MergedBy answers [] right right
  | fromRight {l r : α} {left right merged : List α} (hanswer : answers r l true)
    (hrest : MergedBy answers (l :: left) right merged) :
    MergedBy answers (l :: left) (r :: right) (r :: merged)
  | fromLeft {l r : α} {left right merged : List α} (hanswer : answers r l false)
    (hrest : MergedBy answers left (r :: right) merged) :
    MergedBy answers (l :: left) (r :: right) (l :: merged)

/-- A list is another one sorted: its two parts are sorted, and merged. -/
inductive SortedBy (answers : α → α → Bool → Prop) : List α → List α → Prop where
  | short {values : List α} (hlength : values.length ≤ 1) : SortedBy answers values values
  | parts {first second left right merged : List α} (hfirst : SortedBy answers first left)
    (hsecond : SortedBy answers second right) (hmerged : MergedBy answers left right merged) :
    SortedBy answers (first ++ second) merged

/-- A relation is a total preorder on the elements of a list. -/
structure TotalPreorderOn (le : α → α → Bool) (values : List α) : Prop where
  total : ∀ v ∈ values, ∀ w ∈ values, le v w = true ∨ le w v = true
  trans : ∀ u ∈ values, ∀ v ∈ values, ∀ w ∈ values, le u v = true → le v w = true → le u w = true

/-- The elements stand in the order of a relation, and those that it does not tell apart in the order
in which they were. -/
structure StablyOrders (le : α → α → Bool) (values sorted : List α) : Prop where
  pairwise : sorted.Pairwise (le · ·)
  stable : ∀ v ∈ values,
    (sorted.filter fun w => le v w && le w v) = values.filter fun w => le v w && le w v

/-- The answers of a relation: one element precedes another if that is not below it. -/
def strictly (le : α → α → Bool) (v w : α) (answer : Bool) : Prop := answer = !le w v

theorem TotalPreorderOn.of_subset {le : α → α → Bool} {values values' : List α}
    (h : TotalPreorderOn le values) (hsubset : values' ⊆ values) : TotalPreorderOn le values' where
  total v hv w hw := h.total v (hsubset hv) w (hsubset hw)
  trans u hu v hv w hw := h.trans u (hsubset hu) v (hsubset hv) w (hsubset hw)

namespace MergedBy

variable {answers answers' : α → α → Bool → Prop} {le : α → α → Bool} {p : α → Bool}
  {left right merged : List α}

theorem mono (h : MergedBy answers left right merged)
    (himp : ∀ v w answer, answers v w answer → answers' v w answer) :
    MergedBy answers' left right merged := by
  induction h with
  | onlyLeft => exact .onlyLeft _
  | onlyRight => exact .onlyRight _
  | fromRight hanswer _ ih => exact .fromRight (himp _ _ _ hanswer) ih
  | fromLeft hanswer _ ih => exact .fromLeft (himp _ _ _ hanswer) ih

theorem perm (h : MergedBy answers left right merged) : merged.Perm (left ++ right) := by
  induction h with
  | onlyLeft => rw [List.append_nil]
  | onlyRight => exact .refl _
  | fromRight _ _ ih => exact (ih.cons _).trans List.perm_middle.symm
  | fromLeft _ _ ih => exact ih.cons _

/-- Two lists that are in order are merged in order. -/
theorem pairwise (h : MergedBy (strictly le) left right merged)
    (hle : TotalPreorderOn le (left ++ right)) (hleft : left.Pairwise (le · ·))
    (hright : right.Pairwise (le · ·)) : merged.Pairwise (le · ·) := by
  induction h with
  | onlyLeft => exact hleft
  | onlyRight => exact hright
  | @fromRight l r left right merged hanswer hrest ih =>
    rw [List.pairwise_cons] at hright
    have hrl : le r l = true := by
      refine (hle.total r (by simp) l (by simp)).resolve_right fun hlr => ?_
      simp [strictly, hlr] at hanswer
    have hsubset : l :: left ++ right ⊆ l :: left ++ r :: right :=
      ((List.sublist_cons_self r right).append_left _).subset
    refine List.pairwise_cons.mpr ⟨fun z hz => ?_, ih (hle.of_subset hsubset) hleft hright.2⟩
    -- What is left over stands behind the element that is taken, or behind the one compared to it.
    rcases List.mem_append.mp (hrest.perm.mem_iff.mp hz) with hz | hz
    · rcases List.mem_cons.mp hz with rfl | hz
      · exact hrl
      · exact hle.trans r (by simp) l (by simp) z (by simp [hz]) hrl
          (List.rel_of_pairwise_cons hleft hz)
    · exact hright.1 z hz
  | @fromLeft l r left right merged hanswer hrest ih =>
    rw [List.pairwise_cons] at hleft
    have hlr : le l r = true := by simpa [strictly] using hanswer
    refine List.pairwise_cons.mpr ⟨fun z hz => ?_, ih (hle.of_subset (by simp)) hleft.2 hright⟩
    rcases List.mem_append.mp (hrest.perm.mem_iff.mp hz) with hz | hz
    · exact hleft.1 z hz
    · rcases List.mem_cons.mp hz with rfl | hz
      · exact hlr
      · exact hle.trans l (by simp) r (by simp) z (by simp [hz]) hlr
          (List.rel_of_pairwise_cons hright hz)

/-- Of elements that are not told apart, those of the left list come first. -/
theorem filter_eq (h : MergedBy (strictly le) left right merged)
    (hle : TotalPreorderOn le (left ++ right)) (hleft : left.Pairwise (le · ·))
    (hp : ∀ v ∈ left ++ right, ∀ w ∈ left ++ right, p v = true → p w = true → le v w = true) :
    merged.filter p = left.filter p ++ right.filter p := by
  induction h with
  | onlyLeft => simp
  | onlyRight => simp
  | @fromRight l r left right merged hanswer hrest ih =>
    have hsubset : l :: left ++ right ⊆ l :: left ++ r :: right :=
      ((List.sublist_cons_self r right).append_left _).subset
    have hrest := ih (hle.of_subset hsubset) hleft fun v hv w hw => hp v (hsubset hv) w (hsubset hw)
    by_cases hr : p r = true
    · -- The left list has no element of the class, or its first one would not be above the other.
      have hnone : (l :: left).filter p = [] := by
        refine List.filter_eq_nil_iff.mpr fun z hz hpz => ?_
        have hlz : le l z = true := by
          rcases List.mem_cons.mp hz with rfl | hz
          · exact (hle.total z (by simp) z (by simp)).elim id id
          · exact List.rel_of_pairwise_cons hleft hz
        have hzr : le z r = true := hp z (List.mem_append_left _ hz) r (by simp) hpz hr
        have hlr := hle.trans l (by simp) z (List.mem_append_left _ hz) r (by simp) hlz hzr
        simp [strictly, hlr] at hanswer
      rw [List.filter_cons_of_pos hr, hrest, List.filter_cons_of_pos hr, hnone, List.nil_append,
        List.nil_append]
    · rw [List.filter_cons_of_neg hr, hrest, List.filter_cons_of_neg hr]
  | @fromLeft l r left right merged hanswer hrest ih =>
    have hsubset : left ++ r :: right ⊆ l :: left ++ r :: right := List.subset_cons_self _ _
    have hrest := ih (hle.of_subset hsubset) hleft.of_cons fun v hv w hw =>
      hp v (hsubset hv) w (hsubset hw)
    by_cases hl : p l = true
    · rw [List.filter_cons_of_pos hl, hrest, List.filter_cons_of_pos hl, List.cons_append]
    · rw [List.filter_cons_of_neg hl, hrest, List.filter_cons_of_neg hl]

end MergedBy

namespace SortedBy

variable {answers answers' : α → α → Bool → Prop} {le : α → α → Bool} {p : α → Bool}
  {values sorted : List α}

theorem mono (h : SortedBy answers values sorted)
    (himp : ∀ v w answer, answers v w answer → answers' v w answer) :
    SortedBy answers' values sorted := by
  induction h with
  | short hlength => exact .short hlength
  | parts _ _ hmerged ih ih' => exact .parts ih ih' (hmerged.mono himp)

/-- Sorting only puts the elements in another order, whatever the answers are. -/
theorem perm (h : SortedBy answers values sorted) : sorted.Perm values := by
  induction h with
  | short => exact .refl _
  | parts _ _ hmerged ih ih' => exact hmerged.perm.trans (ih.append ih')

/-- A total preorder puts the elements in order. -/
theorem pairwise (h : SortedBy (strictly le) values sorted) (hle : TotalPreorderOn le values) :
    sorted.Pairwise (le · ·) := by
  induction h with
  | @short values hlength =>
    match values, hlength with
    | [], _ => exact .nil
    | [v], _ => exact List.pairwise_singleton _ v
  | parts hfirst hsecond hmerged ih ih' =>
    refine hmerged.pairwise (hle.of_subset ((hfirst.perm.append hsecond.perm).subset))
      (ih (hle.of_subset (List.subset_append_left _ _)))
      (ih' (hle.of_subset (List.subset_append_right _ _)))

/-- Elements that are not told apart stay in order. -/
theorem filter_eq (h : SortedBy (strictly le) values sorted) (hle : TotalPreorderOn le values)
    (hp : ∀ v ∈ values, ∀ w ∈ values, p v = true → p w = true → le v w = true) :
    sorted.filter p = values.filter p := by
  induction h with
  | short => rfl
  | @parts first second left right merged hfirst hsecond hmerged ih ih' =>
    have hsubset := (hfirst.perm.append hsecond.perm).subset
    have hfirst' := ih (hle.of_subset (List.subset_append_left _ _)) fun v hv w hw =>
      hp v (List.mem_append_left _ hv) w (List.mem_append_left _ hw)
    have hsecond' := ih' (hle.of_subset (List.subset_append_right _ _)) fun v hv w hw =>
      hp v (List.mem_append_right _ hv) w (List.mem_append_right _ hw)
    rw [hmerged.filter_eq (hle.of_subset hsubset)
        (hfirst.pairwise (hle.of_subset (List.subset_append_left _ _)))
        fun v hv w hw => hp v (hsubset hv) w (hsubset hw),
      hfirst', hsecond', List.filter_append]

/-- Sorting by a total preorder is stable. -/
theorem stablyOrders (h : SortedBy (strictly le) values sorted) (hle : TotalPreorderOn le values) :
    StablyOrders le values sorted where
  pairwise := h.pairwise hle
  stable v hv := by
    refine h.filter_eq hle fun u hu w hw hvu hvw => ?_
    rw [Bool.and_eq_true] at hvu hvw
    exact hle.trans u hu v hv w hw hvu.2 hvw.1

end SortedBy

end EcmaEval

/-! # Sorting arrays -/

namespace EcmaEval

/-! ## Ends of actions -/

namespace Action

variable {α β : Type} {a : Action α} {f : α → Action β} {g : α → β} {m m' : Machine} {e : Abrupt}
  {K : Machine → Prop}

theorem bind_eq_ok_iff {y : β} :
    (a >>= f) m = .ok y m' ↔ ∃ x m₁, a m = .ok x m₁ ∧ f x m₁ = .ok y m' := by
  rw [Discipline.bind_apply]
  cases a m <;> simp

theorem bind_eq_error_iff :
    (a >>= f) m = .error e m' ↔
      a m = .error e m' ∨ ∃ x m₁, a m = .ok x m₁ ∧ f x m₁ = .error e m' := by
  rw [Discipline.bind_apply]
  cases a m <;> simp

theorem map_eq_ok_iff {y : β} : (g <$> a) m = .ok y m' ↔ ∃ x, a m = .ok x m' ∧ g x = y := by
  rw [map_eq_pure_bind, bind_eq_ok_iff]
  constructor
  · rintro ⟨x, m₁, hx, h⟩
    cases h
    exact ⟨x, hx, rfl⟩
  · rintro ⟨x, hx, rfl⟩
    exact ⟨x, m', hx, rfl⟩

theorem map_eq_error_iff : (g <$> a) m = .error e m' ↔ a m = .error e m' := by
  rw [map_eq_pure_bind, bind_eq_error_iff]
  exact or_iff_left fun ⟨_, _, _, h⟩ => nomatch h

/-- The machine that an action ends in, with a value or without. -/
def final (a : Action α) (m : Machine) : Machine :=
  match a m with
  | .ok _ m' | .error _ m' => m'

theorem final_of_ok {x : α} (h : a m = .ok x m') : a.final m = m' := by
  unfold final
  rw [h]

theorem final_of_error (h : a m = .error e m') : a.final m = m' := by
  unfold final
  rw [h]

/-- What holds behind an action holds behind it and another one, if that one keeps it. -/
theorem final_bind (ha : K (a.final m)) (hf : ∀ x m', a m = .ok x m' → K m' → K ((f x).final m')) :
    K ((a >>= f).final m) := by
  unfold final at ha ⊢
  rw [Discipline.bind_apply]
  cases hresult : a m with
  | ok x m' =>
    rw [hresult] at ha
    exact hf x m' hresult ha
  | error e m' =>
    rw [hresult] at ha
    exact ha

theorem final_map (ha : K (a.final m)) : K ((g <$> a).final m) := by
  rw [map_eq_pure_bind]
  exact final_bind ha fun _ _ _ h => h

end Action

namespace Engine

open EcmaEval.Action

variable {engine : Engine} {comparator : Value} {left right values result : List Value}
  {m m' n : Machine} {v w : Value} {e : Abrupt} {K : Machine → Prop}

/-! ## Merging -/

theorem mergeSorted_nil : engine.mergeSorted comparator [] right = pure right := by
  rw [mergeSorted]

theorem mergeSorted_of_nil : engine.mergeSorted comparator left [] = pure left := by
  cases left <;> rw [mergeSorted]
  exact nofun

theorem mergeSorted_cons_cons (l r : Value) :
    engine.mergeSorted comparator (l :: left) (r :: right) =
      engine.precedes comparator r l >>= fun answer =>
        if answer then List.cons r <$> engine.mergeSorted comparator (l :: left) right
        else List.cons l <$> engine.mergeSorted comparator left (r :: right) := by
  simp only [mergeSorted, map_eq_pure_bind]

/-- Merging two lists from the machine `m` asks whether `v` precedes `w`, on the machine `n`. -/
inductive MergeCompares (engine : Engine) (comparator : Value) :
    List Value → List Value → Machine → (v w : Value) → (n : Machine) → Prop where
  | first {l r : Value} {left right : List Value} {m : Machine} :
    MergeCompares engine comparator (l :: left) (r :: right) m r l m
  | fromRight {l r v w : Value} {left right : List Value} {m m' n : Machine}
    (hanswer : engine.precedes comparator r l m = .ok true m')
    (h : MergeCompares engine comparator (l :: left) right m' v w n) :
    MergeCompares engine comparator (l :: left) (r :: right) m v w n
  | fromLeft {l r v w : Value} {left right : List Value} {m m' n : Machine}
    (hanswer : engine.precedes comparator r l m = .ok false m')
    (h : MergeCompares engine comparator left (r :: right) m' v w n) :
    MergeCompares engine comparator (l :: left) (r :: right) m v w n

/-- The lists are merged by the answers to what is asked. -/
theorem mergedBy_of_mergeSorted
    (h : engine.mergeSorted comparator left right m = .ok result m') :
    MergedBy (fun v w answer => ∃ n n', engine.MergeCompares comparator left right m v w n ∧
      engine.precedes comparator v w n = .ok answer n') left right result := by
  induction left, right using mergeSorted.induct generalizing m result with
  | case1 right =>
    rw [mergeSorted_nil] at h
    cases h
    exact .onlyRight right
  | case2 left hleft =>
    rw [mergeSorted_of_nil] at h
    cases h
    exact .onlyLeft left
  | case3 l left r right ihright ihleft =>
    rw [mergeSorted_cons_cons] at h
    obtain ⟨answer, m₁, hanswer, h⟩ := bind_eq_ok_iff.mp h
    cases answer with
    | true =>
      obtain ⟨rest, hrest, rfl⟩ := map_eq_ok_iff.mp h
      refine .fromRight ⟨m, m₁, .first, hanswer⟩ ((ihright hrest).mono fun v w answer => ?_)
      rintro ⟨n, n', hcompares, hn⟩
      exact ⟨n, n', .fromRight hanswer hcompares, hn⟩
    | false =>
      obtain ⟨rest, hrest, rfl⟩ := map_eq_ok_iff.mp h
      refine .fromLeft ⟨m, m₁, .first, hanswer⟩ ((ihleft hrest).mono fun v w answer => ?_)
      rintro ⟨n, n', hcompares, hn⟩
      exact ⟨n, n', .fromLeft hanswer hcompares, hn⟩

/-- If merging fails, a comparison has failed. -/
theorem exists_of_mergeSorted_eq_error
    (h : engine.mergeSorted comparator left right m = .error e m') :
    ∃ v w n, engine.MergeCompares comparator left right m v w n ∧
      engine.precedes comparator v w n = .error e m' := by
  induction left, right using mergeSorted.induct generalizing m with
  | case1 right =>
    rw [mergeSorted_nil] at h
    cases h
  | case2 left hleft =>
    rw [mergeSorted_of_nil] at h
    cases h
  | case3 l left r right ihright ihleft =>
    rw [mergeSorted_cons_cons] at h
    rcases bind_eq_error_iff.mp h with hfirst | ⟨answer, m₁, hanswer, h⟩
    · exact ⟨r, l, m, .first, hfirst⟩
    · cases answer with
      | true =>
        obtain ⟨v, w, n, hcompares, hn⟩ := ihright (map_eq_error_iff.mp h)
        exact ⟨v, w, n, .fromRight hanswer hcompares, hn⟩
      | false =>
        obtain ⟨v, w, n, hcompares, hn⟩ := ihleft (map_eq_error_iff.mp h)
        exact ⟨v, w, n, .fromLeft hanswer hcompares, hn⟩

/-- What each comparison keeps, merging keeps. -/
theorem final_mergeSorted (hm : K m) (hkeeps : ∀ v w n,
    engine.MergeCompares comparator left right m v w n → K n →
      K ((engine.precedes comparator v w).final n)) :
    K ((engine.mergeSorted comparator left right).final m) := by
  induction left, right using mergeSorted.induct generalizing m with
  | case1 right => rwa [mergeSorted_nil]
  | case2 left hleft => rwa [mergeSorted_of_nil]
  | case3 l left r right ihright ihleft =>
    rw [mergeSorted_cons_cons]
    refine final_bind (hkeeps r l m .first hm) fun answer m₁ hanswer hm₁ => ?_
    cases answer with
    | true =>
      exact final_map (ihright hm₁ fun v w n h => hkeeps v w n (.fromRight hanswer h))
    | false =>
      exact final_map (ihleft hm₁ fun v w n h => hkeeps v w n (.fromLeft hanswer h))

namespace MergeCompares

/-- A comparison that fails ends the merge. -/
theorem fails (h : engine.MergeCompares comparator left right m v w n)
    (hn : engine.precedes comparator v w n = .error e m') :
    engine.mergeSorted comparator left right m = .error e m' := by
  induction h with
  | first => exact mergeSorted_cons_cons .. ▸ bind_eq_error_iff.mpr (.inl hn)
  | fromRight hanswer _ ih | fromLeft hanswer _ ih =>
    rw [mergeSorted_cons_cons]
    exact bind_eq_error_iff.mpr (.inr ⟨_, _, hanswer, map_eq_error_iff.mpr (ih hn)⟩)

/-- An element of the right list is compared to one of the left list. -/
theorem mem (h : engine.MergeCompares comparator left right m v w n) : v ∈ right ∧ w ∈ left := by
  induction h with
  | first => exact ⟨List.mem_cons_self, List.mem_cons_self⟩
  | fromRight _ _ ih => exact ⟨List.mem_cons_of_mem _ ih.1, ih.2⟩
  | fromLeft _ _ ih => exact ⟨ih.1, List.mem_cons_of_mem _ ih.2⟩

end MergeCompares

/-! ## Sorting -/

theorem sortValues_of_length_le (hlength : values.length ≤ 1) :
    engine.sortValues comparator values = pure values := by
  rw [sortValues, dif_pos hlength]

theorem sortValues_of_lt_length (hlength : 1 < values.length) :
    engine.sortValues comparator values = (do
      let left ← engine.sortValues comparator (values.take (values.length / 2))
      let right ← engine.sortValues comparator (values.drop (values.length / 2))
      engine.mergeSorted comparator left right) := by
  rw [sortValues, dif_neg (Nat.not_le_of_lt hlength)]

/-- Sorting a list from the machine `m` asks whether `v` precedes `w`, on the machine `n`. -/
inductive SortCompares (engine : Engine) (comparator : Value) :
    List Value → Machine → (v w : Value) → (n : Machine) → Prop where
  | first {values : List Value} {m n : Machine} {v w : Value} (hlength : 1 < values.length)
    (h : SortCompares engine comparator (values.take (values.length / 2)) m v w n) :
    SortCompares engine comparator values m v w n
  | second {values left : List Value} {m m₁ n : Machine} {v w : Value}
    (hlength : 1 < values.length)
    (hleft : engine.sortValues comparator (values.take (values.length / 2)) m = .ok left m₁)
    (h : SortCompares engine comparator (values.drop (values.length / 2)) m₁ v w n) :
    SortCompares engine comparator values m v w n
  | merge {values left right : List Value} {m m₁ m₂ n : Machine} {v w : Value}
    (hlength : 1 < values.length)
    (hleft : engine.sortValues comparator (values.take (values.length / 2)) m = .ok left m₁)
    (hright : engine.sortValues comparator (values.drop (values.length / 2)) m₁ = .ok right m₂)
    (h : MergeCompares engine comparator left right m₂ v w n) :
    SortCompares engine comparator values m v w n

/-- The elements are sorted by the answers to what is asked. -/
theorem sortedBy_of_sortValues (h : engine.sortValues comparator values m = .ok result m') :
    SortedBy (fun v w answer => ∃ n n', engine.SortCompares comparator values m v w n ∧
      engine.precedes comparator v w n = .ok answer n') values result := by
  induction values using sortValues.induct generalizing m m' result with
  | case1 values hlength =>
    rw [sortValues_of_length_le hlength] at h
    cases h
    exact .short hlength
  | case2 values hlength _ _ ihfirst ihsecond =>
    have hlength := Nat.lt_of_not_le hlength
    rw [sortValues_of_lt_length hlength] at h
    obtain ⟨left, m₁, hleft, h⟩ := bind_eq_ok_iff.mp h
    obtain ⟨right, m₂, hright, h⟩ := bind_eq_ok_iff.mp h
    rw [← List.take_append_drop (values.length / 2) values]
    refine .parts ((ihfirst hleft).mono ?_) ((ihsecond hright).mono ?_)
      ((mergedBy_of_mergeSorted h).mono ?_)
    all_goals
      rintro v w answer ⟨n, n', hcompares, hn⟩
      rw [List.take_append_drop]
    · exact ⟨n, n', .first hlength hcompares, hn⟩
    · exact ⟨n, n', .second hlength hleft hcompares, hn⟩
    · exact ⟨n, n', .merge hlength hleft hright hcompares, hn⟩

/-- If sorting fails, a comparison has failed. -/
theorem exists_of_sortValues_eq_error (h : engine.sortValues comparator values m = .error e m') :
    ∃ v w n, engine.SortCompares comparator values m v w n ∧
      engine.precedes comparator v w n = .error e m' := by
  induction values using sortValues.induct generalizing m with
  | case1 values hlength =>
    rw [sortValues_of_length_le hlength] at h
    cases h
  | case2 values hlength _ _ ihfirst ihsecond =>
    have hlength := Nat.lt_of_not_le hlength
    rw [sortValues_of_lt_length hlength] at h
    rcases bind_eq_error_iff.mp h with h | ⟨left, m₁, hleft, h⟩
    · obtain ⟨v, w, n, hcompares, hn⟩ := ihfirst h
      exact ⟨v, w, n, .first hlength hcompares, hn⟩
    · rcases bind_eq_error_iff.mp h with h | ⟨right, m₂, hright, h⟩
      · obtain ⟨v, w, n, hcompares, hn⟩ := ihsecond h
        exact ⟨v, w, n, .second hlength hleft hcompares, hn⟩
      · obtain ⟨v, w, n, hcompares, hn⟩ := exists_of_mergeSorted_eq_error h
        exact ⟨v, w, n, .merge hlength hleft hright hcompares, hn⟩

/-- What each comparison keeps, sorting keeps. -/
theorem final_sortValues (hm : K m) (hkeeps : ∀ v w n,
    engine.SortCompares comparator values m v w n → K n →
      K ((engine.precedes comparator v w).final n)) :
    K ((engine.sortValues comparator values).final m) := by
  induction values using sortValues.induct generalizing m with
  | case1 values hlength => rwa [sortValues_of_length_le hlength]
  | case2 values hlength _ _ ihfirst ihsecond =>
    have hlength := Nat.lt_of_not_le hlength
    rw [sortValues_of_lt_length hlength]
    refine final_bind (ihfirst hm fun v w n h => hkeeps v w n (.first hlength h))
      fun left m₁ hleft hm₁ => ?_
    refine final_bind (ihsecond hm₁ fun v w n h => hkeeps v w n (.second hlength hleft h))
      fun right m₂ hright hm₂ => ?_
    exact final_mergeSorted hm₂ fun v w n h => hkeeps v w n (.merge hlength hleft hright h)

namespace SortCompares

/-- A comparison that fails ends the sort. -/
theorem fails (h : engine.SortCompares comparator values m v w n)
    (hn : engine.precedes comparator v w n = .error e m') :
    engine.sortValues comparator values m = .error e m' := by
  induction h with
  | first hlength _ ih =>
    rw [sortValues_of_lt_length hlength]
    exact bind_eq_error_iff.mpr (.inl (ih hn))
  | second hlength hleft _ ih =>
    rw [sortValues_of_lt_length hlength]
    exact bind_eq_error_iff.mpr (.inr ⟨_, _, hleft, bind_eq_error_iff.mpr (.inl (ih hn))⟩)
  | merge hlength hleft hright h =>
    rw [sortValues_of_lt_length hlength]
    exact bind_eq_error_iff.mpr (.inr ⟨_, _, hleft,
      bind_eq_error_iff.mpr (.inr ⟨_, _, hright, h.fails hn⟩)⟩)

/-- Elements of the list are compared. -/
theorem mem (h : engine.SortCompares comparator values m v w n) : v ∈ values ∧ w ∈ values := by
  induction h with
  | first _ _ ih => exact ⟨List.mem_of_mem_take ih.1, List.mem_of_mem_take ih.2⟩
  | second _ _ _ ih => exact ⟨List.mem_of_mem_drop ih.1, List.mem_of_mem_drop ih.2⟩
  | merge _ hleft hright h =>
    have hv := (sortedBy_of_sortValues hright).perm.mem_iff.mp h.mem.1
    have hw := (sortedBy_of_sortValues hleft).perm.mem_iff.mp h.mem.2
    exact ⟨List.mem_of_mem_drop hv, List.mem_of_mem_take hw⟩

end SortCompares

/-! ## Arrays -/

variable {id : ObjectId} {elements : Array Value} {args : List Value}

/-- The elements of an array that are compared. -/
def definedElements (elements : Array Value) : List Value :=
  elements.toList.filter (!·.isUndefined)

/-- The elements that come last. -/
def undefinedElements (elements : Array Value) : List Value :=
  elements.toList.filter (·.isUndefined)

theorem callArray_sort_apply (harray : (m.heap.get id).elements? = some elements)
    (hcomparator : (Value.argument args 0).isUndefined = true ∨
      m.heap.isCallable (.argument args 0) = true) :
    engine.callArray .sort (.object id) args m = (do
      let sorted ← engine.sortValues (.argument args 0) (definedElements elements)
      modifyElements id fun _ => (sorted ++ undefinedElements elements).toArray
      return Value.object id : Action Value) m := by
  unfold callArray
  dsimp only
  rw [Discipline.bind_apply, receivedArray_of_elements harray]
  have hparts : elements.toList.partition (!·.isUndefined) =
      (definedElements elements, undefinedElements elements) := by
    rw [List.partition_eq_filter_filter]
    refine congrArg (Prod.mk _) (List.filter_congr fun v _ => ?_)
    exact Bool.not_not _
  unfold sortArray elementsOf
  simp only [bind_assoc, readHeap_bind, Bool.or_eq_true]
  rw [if_pos hcomparator]
  simp only [bind_assoc, readHeap_bind, harray, Option.getD_some, hparts]

/-- The array holds the elements that it held, in another order: first `sorted`, which has all that
are not undefined, and the others behind it. -/
structure Arranges (elements : Array Value) (sorted : List Value) (elements' : Array Value) :
    Prop where
  perm : elements'.toList.Perm elements.toList
  toList_eq : elements'.toList =
    sorted ++ List.replicate (elements.toList.countP (·.isUndefined)) .undefined
  defined : ∀ v ∈ sorted, v.isUndefined = false

theorem arranges_of_perm {sorted : List Value} (h : sorted.Perm (definedElements elements)) :
    Arranges elements sorted (sorted ++ undefinedElements elements).toArray where
  perm := (h.append_right _).trans (List.perm_append_comm.trans (List.filter_append_perm _ _))
  toList_eq := by
    refine congrArg (sorted ++ ·) (List.eq_replicate_iff.mpr ⟨?_, fun v hv => ?_⟩)
    · exact List.countP_eq_length_filter.symm
    · cases v <;> first | rfl | exact nomatch (List.mem_filter.mp hv).2
  defined v hv := by simpa using (List.mem_filter.mp (h.mem_iff.mp hv)).2

/-! ## Comparisons -/

theorem compareUnits_eq_lt_iff {us vs : List UInt16} :
    UnitString.compareUnits us vs = .lt ↔ us < vs := by
  induction us generalizing vs with
  | nil => cases vs <;> simp [UnitString.compareUnits]
  | cons u us ih =>
    cases vs with
    | nil => simp [UnitString.compareUnits]
    | cons v vs =>
      rw [UnitString.compareUnits, List.cons_lt_cons_iff]
      split
      · next hlt => simp [hlt]
      · next hle =>
        split
        · next hlt =>
          have hne : u ≠ v := fun heq => UInt16.lt_irrefl v (heq ▸ hlt)
          simp [hle, hne]
        · next hge =>
          have heq : u = v := UInt16.le_antisymm (UInt16.not_lt.mp hge) (UInt16.not_lt.mp hle)
          simp [heq, ih]

/-- The order of values by the code units of texts that they have. -/
def unitsLe (text : Value → UnitString) (v w : Value) : Bool :=
  decide ((text v).units.toList ≤ (text w).units.toList)

theorem totalPreorderOn_unitsLe (text : Value → UnitString) (values : List Value) :
    TotalPreorderOn (unitsLe text) values where
  total v _ w _ := by
    simp only [unitsLe, decide_eq_true_eq]
    exact List.le_total _ _
  trans u _ v _ w _ huv hvw := by
    simp only [unitsLe, decide_eq_true_eq] at *
    exact List.le_trans huv hvw

/-- Two values are compared as strings, if there is no comparator. -/
theorem precedes_undefined {text : Value → UnitString} {n₁ n₂ : Machine}
    (hv : engine.toUnits v n = .ok (text v) n₁) (hw : engine.toUnits w n₁ = .ok (text w) n₂) :
    engine.precedes .undefined v w n = .ok (!unitsLe text w v) n₂ := by
  have hanswer : ((text v).compare (text w) == .lt) = !unitsLe text w v := by
    rw [Bool.eq_iff_iff, beq_iff_eq, UnitString.compare, compareUnits_eq_lt_iff, unitsLe,
      Bool.not_eq_true', decide_eq_false_iff_not, List.not_le]
  have hprecedes : engine.precedes .undefined v w = (do
      let s ← engine.toUnits v
      let t ← engine.toUnits w
      return s.compare t == .lt) := rfl
  rw [← hanswer, hprecedes, Discipline.bind_apply, hv]
  dsimp only
  rw [Discipline.bind_apply, hw]
  rfl

/-! ## What `sort` does -/

section Comparisons

variable (engine comparator m id elements)

/-- No comparison that the sort makes changes the elements of the array. -/
def ComparesApart : Prop :=
  ∀ v w n, engine.SortCompares comparator (definedElements elements) m v w n →
    (((engine.precedes comparator v w).final n).heap.get id).elements? = (n.heap.get id).elements?

/-- The comparisons that the sort makes have the answers of a relation: one element precedes another
if that is not below it. -/
def AnswersBy (le : Value → Value → Bool) : Prop :=
  ∀ v w n, engine.SortCompares comparator (definedElements elements) m v w n →
    ∃ n', engine.precedes comparator v w n = .ok (!le w v) n'

/-- Wherever the sort converts two values that it compares, they have these texts. -/
def ConvertsTo (text : Value → UnitString) : Prop :=
  ∀ v w n, engine.SortCompares comparator (definedElements elements) m v w n →
    ∃ n₁ n₂, engine.toUnits v n = .ok (text v) n₁ ∧ engine.toUnits w n₁ = .ok (text w) n₂

end Comparisons

theorem callArray_sort_eq_error_iff (harray : (m.heap.get id).elements? = some elements)
    (hcomparator : (Value.argument args 0).isUndefined = true ∨
      m.heap.isCallable (.argument args 0) = true) :
    engine.callArray .sort (.object id) args m = .error e m' ↔
      ∃ v w n, engine.SortCompares (.argument args 0) (definedElements elements) m v w n ∧
        engine.precedes (.argument args 0) v w n = .error e m' := by
  rw [callArray_sort_apply harray hcomparator, bind_eq_error_iff]
  constructor
  · rintro (h | ⟨sorted, n, _, h⟩)
    · exact exists_of_sortValues_eq_error h
    · cases h
  · rintro ⟨v, w, n, hcompares, hn⟩
    exact .inl (hcompares.fails hn)

/-- Sorting itself leaves the array alone, if all comparisons do. -/
theorem final_sortValues_elements? (harray : (m.heap.get id).elements? = some elements)
    (hapart : engine.ComparesApart comparator m id elements) :
    (((engine.sortValues comparator (definedElements elements)).final m).heap.get id).elements? =
      some elements :=
  final_sortValues (K := fun n => (n.heap.get id).elements? = some elements) harray
    fun v w n hcompares hn => (hapart v w n hcompares).trans hn

/-- The array behind a sort that has ended. -/
theorem exists_of_callArray_sort (harray : (m.heap.get id).elements? = some elements)
    (hcomparator : (Value.argument args 0).isUndefined = true ∨
      m.heap.isCallable (.argument args 0) = true)
    (hapart : engine.ComparesApart (.argument args 0) m id elements)
    (h : engine.callArray .sort (.object id) args m = .ok v m') :
    v = .object id ∧ ∃ sorted,
      (m'.heap.get id).elements? = some (sorted ++ undefinedElements elements).toArray ∧
      SortedBy (fun v w answer => ∃ n n',
        engine.SortCompares (.argument args 0) (definedElements elements) m v w n ∧
          engine.precedes (.argument args 0) v w n = .ok answer n')
        (definedElements elements) sorted := by
  rw [callArray_sort_apply harray hcomparator] at h
  obtain ⟨sorted, n, hsorted, h⟩ := bind_eq_ok_iff.mp h
  cases h
  have hkeeps : (n.heap.get id).elements? = some elements := by
    rw [← final_of_ok hsorted]
    exact final_sortValues_elements? harray hapart
  refine ⟨rfl, sorted, ?_, sortedBy_of_sortValues hsorted⟩
  have hid : id.index < n.heap.size := n.heap.lt_size_of_elements? hkeeps
  change ((n.heap.modify id _).get id).elements? = _
  rw [Heap.get_modify_self _ hid, Object.elements?_withElements, hkeeps]
  rfl

/-- A sort that fails has written nothing. -/
theorem elements?_of_callArray_sort_eq_error (harray : (m.heap.get id).elements? = some elements)
    (hcomparator : (Value.argument args 0).isUndefined = true ∨
      m.heap.isCallable (.argument args 0) = true)
    (hapart : engine.ComparesApart (.argument args 0) m id elements)
    (h : engine.callArray .sort (.object id) args m = .error e m') :
    (m'.heap.get id).elements? = some elements := by
  rw [callArray_sort_apply harray hcomparator, bind_eq_error_iff] at h
  rcases h with h | ⟨_, _, _, h⟩
  · rw [← final_of_error h]
    exact final_sortValues_elements? harray hapart
  · cases h

/-- If the comparisons have the answers of a total preorder, the sort ends, and it is stable. -/
theorem exists_callArray_sort_of_answersBy (harray : (m.heap.get id).elements? = some elements)
    (hcomparator : (Value.argument args 0).isUndefined = true ∨
      m.heap.isCallable (.argument args 0) = true)
    (hapart : engine.ComparesApart (.argument args 0) m id elements) {le : Value → Value → Bool}
    (hle : TotalPreorderOn le (definedElements elements))
    (hanswers : engine.AnswersBy (.argument args 0) m elements le) :
    ∃ m' sorted elements', engine.callArray .sort (.object id) args m = .ok (.object id) m' ∧
      (m'.heap.get id).elements? = some elements' ∧ Arranges elements sorted elements' ∧
      StablyOrders le (definedElements elements) sorted := by
  cases hsort : engine.callArray .sort (.object id) args m with
  | error e m' =>
    obtain ⟨v, w, n, hcompares, hn⟩ := (callArray_sort_eq_error_iff harray hcomparator).mp hsort
    obtain ⟨n', hn'⟩ := hanswers v w n hcompares
    exact nomatch hn.symm.trans hn'
  | ok v m' =>
    obtain ⟨rfl, sorted, helements, hsorted⟩ :=
      exists_of_callArray_sort harray hcomparator hapart hsort
    refine ⟨m', sorted, _, rfl, helements, arranges_of_perm hsorted.perm, ?_⟩
    refine (hsorted.mono ?_).stablyOrders hle
    rintro v w answer ⟨n, n', hcompares, hn⟩
    obtain ⟨n'', hn'⟩ := hanswers v w n hcompares
    cases hn.symm.trans hn'
    rfl

/-- **Sorting an array.**  A sort fails just where one of its comparisons does.  If none of these
changes the array, then a sort that fails leaves it as it was, and one that ends puts its elements in
another order, undefined last, whatever the answers are.  If these are the answers of a total
preorder, the sort ends, the elements stand in that order, and those that it does not tell apart in
the order in which they were.  So they do without a comparator, by the code units of their texts, if
each has the same text wherever it is converted. -/
theorem callArray_sort (harray : (m.heap.get id).elements? = some elements)
    (hcomparator : (Value.argument args 0).isUndefined = true ∨
      m.heap.isCallable (.argument args 0) = true) :
    (∀ e m', engine.callArray .sort (.object id) args m = .error e m' ↔
      ∃ v w n, engine.SortCompares (.argument args 0) (definedElements elements) m v w n ∧
        engine.precedes (.argument args 0) v w n = .error e m') ∧
    (engine.ComparesApart (.argument args 0) m id elements →
      (∀ e m', engine.callArray .sort (.object id) args m = .error e m' →
        (m'.heap.get id).elements? = some elements) ∧
      (∀ v m', engine.callArray .sort (.object id) args m = .ok v m' →
        v = .object id ∧ ∃ sorted elements', (m'.heap.get id).elements? = some elements' ∧
          Arranges elements sorted elements') ∧
      (∀ le, TotalPreorderOn le (definedElements elements) →
        engine.AnswersBy (.argument args 0) m elements le →
        ∃ m' sorted elements', engine.callArray .sort (.object id) args m = .ok (.object id) m' ∧
          (m'.heap.get id).elements? = some elements' ∧ Arranges elements sorted elements' ∧
          StablyOrders le (definedElements elements) sorted) ∧
      (Value.argument args 0 = .undefined → ∀ text, engine.ConvertsTo .undefined m elements text →
        ∃ m' sorted elements', engine.callArray .sort (.object id) args m = .ok (.object id) m' ∧
          (m'.heap.get id).elements? = some elements' ∧ Arranges elements sorted elements' ∧
          StablyOrders (unitsLe text) (definedElements elements) sorted)) := by
  refine ⟨fun e m' => callArray_sort_eq_error_iff harray hcomparator, fun hapart => ⟨fun e m' h => ?_,
    fun v m' h => ?_, fun le hle hanswers => ?_, fun hnone text htext => ?_⟩⟩
  · exact elements?_of_callArray_sort_eq_error harray hcomparator hapart h
  · obtain ⟨hv, sorted, helements, hsorted⟩ :=
      exists_of_callArray_sort harray hcomparator hapart h
    exact ⟨hv, sorted, _, helements, arranges_of_perm hsorted.perm⟩
  · exact exists_callArray_sort_of_answersBy harray hcomparator hapart hle hanswers
  · refine exists_callArray_sort_of_answersBy harray hcomparator hapart
      (totalPreorderOn_unitsLe text _) fun v w n hcompares => ?_
    rw [hnone] at hcompares ⊢
    obtain ⟨n₁, n₂, hv, hw⟩ := htext v w n hcompares
    exact ⟨n₂, precedes_undefined hv hw⟩

/-- A machine with one array, of three elements.  The one in the middle is undefined. -/
def tripleMachine : Machine :=
  { Machine.empty with
    heap := ⟨#[.new none (.array #[.boolean true, .undefined, .boolean false])]⟩ }

/-- The elements that are compared are no objects, and converting them runs no code. -/
theorem toUnits_of_mem_triple (hv : v ∈ [Value.boolean true, .boolean false]) :
    standard.toUnits v n = .ok (unitsOfPrimitive v) n := by
  rcases List.mem_pair.mp hv with rfl | rfl <;> rfl

/-- The texts decide, and what is undefined comes last. -/
theorem callArray_sort_triple :
    (tripleMachine.heap.get ⟨0⟩).elements? =
        some #[.boolean true, .undefined, .boolean false] ∧
      ((Value.argument [] 0).isUndefined = true ∨
        tripleMachine.heap.isCallable (.argument [] 0) = true) ∧
      ∃ m, standard.callArray .sort (.object ⟨0⟩) [] tripleMachine = .ok (.object ⟨0⟩) m ∧
        (m.heap.get ⟨0⟩).elements? = some #[.boolean false, .boolean true, .undefined] := by
  have harray : (tripleMachine.heap.get ⟨0⟩).elements? =
      some #[.boolean true, .undefined, .boolean false] := rfl
  have hnone : (Value.argument [] 0).isUndefined = true ∨
      tripleMachine.heap.isCallable (.argument [] 0) = true := .inl rfl
  refine ⟨harray, hnone, ?_⟩
  have hconverts : standard.ConvertsTo .undefined tripleMachine
      #[.boolean true, .undefined, .boolean false] unitsOfPrimitive := fun v w n h =>
    ⟨n, n, toUnits_of_mem_triple h.mem.1, toUnits_of_mem_triple h.mem.2⟩
  have hapart : standard.ComparesApart .undefined tripleMachine ⟨0⟩
      #[.boolean true, .undefined, .boolean false] := fun v w n h => by
    rw [final_of_ok (precedes_undefined (toUnits_of_mem_triple h.mem.1)
      (toUnits_of_mem_triple h.mem.2))]
  obtain ⟨m, sorted, elements', hsort, helements, harranges, hsorted⟩ :=
    ((callArray_sort harray hnone).2 hapart).2.2.2 rfl _ hconverts
  have hperm : sorted.Perm [.boolean true, .boolean false] :=
    (List.perm_append_right_iff [.undefined]).mp
      ((harranges.toList_eq ▸ harranges.perm).trans ((List.Perm.swap ..).cons _))
  -- The other order does not go by the texts.
  have hsorted : sorted = [.boolean false, .boolean true] :=
    (List.perm_pair.mp hperm).resolve_left fun heq => by
      have hle := hsorted.pairwise
      rw [heq] at hle
      exact nomatch List.rel_of_pairwise_cons hle List.mem_cons_self
  refine ⟨m, hsort, helements.trans (congrArg some (Array.toList_inj.mp ?_))⟩
  rw [harranges.toList_eq, hsorted]
  rfl

end Engine

end EcmaEval
