import EcmaEval.Object.Property
import EcmaEval.Store.NameMap

/-!
# Tables of properties

The properties of an object are kept in two containers: a mapping from the names to the properties,
and a list of the names in the order in which they came.  Nothing but the operations keeps the two in
step, and each of them changes both by hand: a name is put into the list only if the mapping does not
have it, and taken out of the list only if the mapping has it.

## Main definitions

* `PropertyStore`: the two containers
* `PropertyStore.insert`, `PropertyStore.write`, `PropertyStore.erase`: put, write and remove a
  property
* `PropertyStore.Agrees`: the list has the names of the mapping, each of them once
* `PropertyTable`: two containers that agree

## Main results

* `PropertyStore.Agrees.insert`, `PropertyStore.Agrees.write`, `PropertyStore.Agrees.erase`: the
  operations keep the containers in step
-/

namespace EcmaEval

/-- Properties under names, in two containers. -/
structure PropertyStore where
  /-- The properties under their names. -/
  values : NameMap Property
  /-- The names in the order in which they came. -/
  names : List String

namespace PropertyStore

/-- No properties. -/
def empty : PropertyStore := ⟨∅, []⟩

/-- The property under a name. -/
def get? (t : PropertyStore) (name : String) : Option Property := t.values.get? name

/-- There is a property under the name. -/
def contains (t : PropertyStore) (name : String) : Bool := t.values.contains name

/-- The store with a property under a name.  A name without a property comes last. -/
def insert (t : PropertyStore) (name : String) (property : Property) : PropertyStore where
  values := t.values.insert name property
  names := if t.contains name then t.names else t.names ++ [name]

/-- The store with a value written to a name: to the property that is there if it can take the value,
and else to a new one. -/
def write (t : PropertyStore) (name : String) (value : Value) : PropertyStore :=
  match t.get? name with
  -- The property is changed where it is, and the names are not looked at.
  | some property => { t with values := t.values.insert name (property.write value) }
  | none => t.insert name (.plain value)

/-- The store without a property. -/
def erase (t : PropertyStore) (name : String) : PropertyStore :=
  if t.contains name then ⟨t.values.erase name, t.names.filter (· ≠ name)⟩ else t

/-- The names of the properties in order, all or only those of listed ones.  A name without a property
is passed over. -/
def listed (t : PropertyStore) (onlyEnumerable : Bool) : List String :=
  t.names.filter fun name =>
    match t.get? name with
    | some property => !onlyEnumerable || property.enumerable
    | none => false

/-- The two containers have the same names, and each of them stands once in the order. -/
structure Agrees (t : PropertyStore) : Prop where
  nodup : t.names.Nodup
  mem_iff : ∀ name, name ∈ t.names ↔ t.contains name = true

theorem contains_eq (t : PropertyStore) (name : String) :
    t.contains name = (t.get? name).isSome := rfl

@[simp] theorem get?_insert (t : PropertyStore) (name other : String) (property : Property) :
    (t.insert name property).get? other = if other = name then some property else t.get? other :=
  t.values.get?_insert name other property

/-- A name that is there keeps its place, and another one comes last. -/
theorem names_insert (t : PropertyStore) (name : String) (property : Property) :
    (t.insert name property).names = if t.contains name then t.names else t.names ++ [name] := rfl

theorem get?_write (t : PropertyStore) (name other : String) (value : Value) :
    (t.write name value).get? other =
      if other = name then some (((t.get? name).map (·.write value)).getD (.plain value))
      else t.get? other := by
  unfold write
  cases h : t.get? name with
  | none => exact t.get?_insert name other (.plain value)
  | some property => exact t.values.get?_insert name other (property.write value)

theorem names_write (t : PropertyStore) (name : String) (value : Value) :
    (t.write name value).names = if t.contains name then t.names else t.names ++ [name] := by
  unfold write
  rw [contains_eq]
  cases h : t.get? name with
  | none => rw [names_insert, contains_eq, h]
  | some property => rfl

@[simp] theorem get?_erase (t : PropertyStore) (name other : String) :
    (t.erase name).get? other = if other = name then none else t.get? other := by
  unfold erase
  split
  · exact t.values.get?_erase name other
  · next habsent =>
    split
    · next heq =>
      rw [contains_eq, Option.not_isSome_iff_eq_none] at habsent
      rw [heq, habsent]
    · rfl

namespace Agrees

variable {t : PropertyStore}

theorem empty : PropertyStore.empty.Agrees where
  nodup := List.nodup_nil
  mem_iff _ := iff_of_false List.not_mem_nil Bool.false_ne_true

/-- The names stay, or one that was absent comes behind them. -/
theorem push (h : t.Agrees) {t' : PropertyStore} (name : String)
    (hnames : t'.names = if t.contains name then t.names else t.names ++ [name])
    (hget : ∀ other, t'.contains other = true ↔ other = name ∨ t.contains other = true) :
    t'.Agrees := by
  cases hfound : t.contains name with
  | true =>
    rw [hfound, if_pos rfl] at hnames
    refine ⟨hnames ▸ h.nodup, fun other => ?_⟩
    rw [hnames, hget, h.mem_iff, or_iff_right_of_imp]
    rintro rfl
    exact hfound
  | false =>
    rw [hfound, if_neg Bool.false_ne_true] at hnames
    have hout : name ∉ t.names := by
      intro hmem
      cases hfound.symm.trans ((h.mem_iff name).mp hmem)
    refine ⟨hnames ▸ List.nodup_append.mpr ⟨h.nodup, List.pairwise_singleton _ name, ?_⟩, fun other => ?_⟩
    · rintro other hother last hlast rfl
      exact hout (List.mem_singleton.mp hlast ▸ hother)
    · rw [hnames, hget, List.mem_append, List.mem_singleton, h.mem_iff, or_comm]

theorem insert (h : t.Agrees) (name : String) (property : Property) :
    (t.insert name property).Agrees := by
  refine h.push name rfl fun other => ?_
  rw [contains_eq, get?_insert, contains_eq]
  by_cases heq : other = name <;> simp [heq]

theorem write (h : t.Agrees) (name : String) (value : Value) : (t.write name value).Agrees := by
  refine h.push name (t.names_write name value) fun other => ?_
  rw [contains_eq, get?_write, contains_eq]
  by_cases heq : other = name <;> simp [heq]

theorem erase (h : t.Agrees) (name : String) : (t.erase name).Agrees := by
  have hmem (other : String) :
      (t.erase name).contains other = true ↔ other ≠ name ∧ t.contains other = true := by
    rw [contains_eq, get?_erase, contains_eq]
    by_cases heq : other = name <;> simp [heq]
  cases hfound : t.contains name with
  | true =>
    have hnames : (t.erase name).names = t.names.filter (· ≠ name) := by
      rw [PropertyStore.erase, hfound, if_pos rfl]
    refine ⟨hnames ▸ h.nodup.filter _, fun other => ?_⟩
    rw [hnames, hmem, List.mem_filter, h.mem_iff, decide_eq_true_eq, and_comm]
  | false =>
    rw [PropertyStore.erase, hfound, if_neg Bool.false_ne_true]
    exact h

end Agrees

end PropertyStore

/-- Properties under names, in two containers that agree. -/
structure PropertyTable extends PropertyStore where
  agrees : toPropertyStore.Agrees

namespace PropertyTable

instance : EmptyCollection PropertyTable := ⟨⟨.empty, .empty⟩⟩

instance : Inhabited PropertyTable := ⟨∅⟩

/-- The table with a property under a name. -/
def insert (t : PropertyTable) (name : String) (property : Property) : PropertyTable :=
  ⟨t.toPropertyStore.insert name property, t.agrees.insert name property⟩

/-- The table with a value written to a name. -/
def write (t : PropertyTable) (name : String) (value : Value) : PropertyTable :=
  ⟨t.toPropertyStore.write name value, t.agrees.write name value⟩

/-- The table without a property. -/
def erase (t : PropertyTable) (name : String) : PropertyTable :=
  ⟨t.toPropertyStore.erase name, t.agrees.erase name⟩

end PropertyTable

end EcmaEval
