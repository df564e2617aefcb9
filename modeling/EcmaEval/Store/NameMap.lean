/-!
# Maps from names

Properties and variables are kept in mappings from names.  A mapping is known by the values of its
names: in what order they were put into it, it does not tell.

A set of names is a search tree.

## Main definitions

* `NameMap`: a mapping from names to values
* `NameMap.insert`, `NameMap.erase`: write and remove an entry
* `NameSet`: a set of names

## Main results

* `get?_insert`: an entry is what was written last, and other entries stay
* `get?_erase`: an erased name has no entry, and other entries stay
-/

namespace EcmaEval

variable {α : Type}

/-- The value in the first pair of a name. -/
def lookupEntry (name : String) : List (String × α) → Option α
  | [] => none
  | entry :: rest => if entry.1 = name then some entry.2 else lookupEntry name rest

/-- A list of pairs with `name` bound to `value`: in place of its first pair, or at the end. -/
def insertEntry (name : String) (value : α) : List (String × α) → List (String × α)
  | [] => [(name, value)]
  | entry :: rest =>
    if entry.1 = name then (name, value) :: rest else entry :: insertEntry name value rest

theorem mem_names_insertEntry {name other : String} {value : α} {entries : List (String × α)} :
    other ∈ (insertEntry name value entries).map Prod.fst ↔
      other = name ∨ other ∈ entries.map Prod.fst := by
  induction entries with
  | nil => simp [insertEntry]
  | cons entry rest ih =>
    unfold insertEntry
    split
    · next h => simp [h]
    · simp only [List.map_cons, List.mem_cons, ih]
      exact or_left_comm

theorem nodup_names_insertEntry {name : String} {value : α} {entries : List (String × α)}
    (h : (entries.map Prod.fst).Nodup) : ((insertEntry name value entries).map Prod.fst).Nodup := by
  induction entries with
  | nil => simp [insertEntry]
  | cons entry rest ih =>
    obtain ⟨hout, hin⟩ := List.nodup_cons.1 h
    unfold insertEntry
    split
    · next hn => subst hn; exact List.nodup_cons.2 ⟨hout, hin⟩
    · next hn =>
      refine List.nodup_cons.2 ⟨fun hm => ?_, ih hin⟩
      exact (mem_names_insertEntry.1 hm).elim hn hout

/-- A mapping from names to values. -/
structure NameMap (α : Type) where
  /-- The names with their values. -/
  entries : List (String × α)
  /-- Every name stands once. -/
  distinct : (entries.map Prod.fst).Nodup

namespace NameMap

/-- The mapping without names. -/
def empty : NameMap α := ⟨[], List.nodup_nil⟩

instance : EmptyCollection (NameMap α) := ⟨empty⟩

instance : Inhabited (NameMap α) := ⟨∅⟩

/-- The value of a name. -/
def get? (m : NameMap α) (name : String) : Option α :=
  lookupEntry name m.entries

/-- The name is in the mapping. -/
def contains (m : NameMap α) (name : String) : Bool :=
  (m.get? name).isSome

/-- The mapping with a name bound to a value. -/
def insert (m : NameMap α) (name : String) (value : α) : NameMap α :=
  ⟨insertEntry name value m.entries, nodup_names_insertEntry m.distinct⟩

/-- The mapping without a name. -/
def erase (m : NameMap α) (name : String) : NameMap α :=
  ⟨m.entries.filter fun entry => entry.1 ≠ name, by
    have h := m.distinct
    rw [List.Nodup, List.pairwise_map] at h ⊢
    exact h.filter _⟩

theorem lookupEntry_insertEntry (entries : List (String × α)) (name other : String) (value : α) :
    lookupEntry other (insertEntry name value entries) =
      if other = name then some value else lookupEntry other entries := by
  induction entries with
  | nil => simp [insertEntry, lookupEntry, eq_comm]
  | cons entry rest ih =>
    by_cases hk : entry.1 = name
    · by_cases h : other = name
      · simp [insertEntry, lookupEntry, hk, h]
      · simp [insertEntry, lookupEntry, hk, h, Ne.symm h]
    · by_cases h : entry.1 = other
      · simp [insertEntry, lookupEntry, hk, ← h]
      · simp [insertEntry, lookupEntry, hk, h, ih]

/-- A name has the value last written to it, and other names keep theirs. -/
theorem get?_insert (m : NameMap α) (name other : String) (value : α) :
    (m.insert name value).get? other = if other = name then some value else m.get? other :=
  lookupEntry_insertEntry m.entries name other value

theorem lookupEntry_filter_ne (entries : List (String × α)) (name other : String) :
    lookupEntry other (entries.filter fun entry => entry.1 ≠ name) =
      if other = name then none else lookupEntry other entries := by
  induction entries with
  | nil => simp [lookupEntry]
  | cons entry rest ih =>
    by_cases hk : entry.1 = name
    · by_cases h : other = name
      · simpa [lookupEntry, hk, h] using ih
      · simpa [lookupEntry, hk, h, Ne.symm h] using ih
    · by_cases h : entry.1 = other
      · simp [lookupEntry, hk, ← h]
      · simpa [lookupEntry, hk, h] using ih

/-- A name that is taken out has no value, and other names keep theirs. -/
theorem get?_erase (m : NameMap α) (name other : String) :
    (m.erase name).get? other = if other = name then none else m.get? other :=
  lookupEntry_filter_ne m.entries name other

end NameMap

/-- A set of names.  The names before that of a node are on its left. -/
inductive NameSet where
  | empty
  | node (left : NameSet) (name : String) (right : NameSet)

namespace NameSet

/-- The name is in the set. -/
def contains (name : String) : NameSet → Bool
  | empty => false
  | node left root right =>
    if name = root then true
    else if name < root then left.contains name
    else right.contains name

/-- The set with another name. -/
def insert (name : String) : NameSet → NameSet
  | empty => node empty name empty
  | node left root right =>
    if name = root then node left root right
    else if name < root then node (left.insert name) root right
    else node left root (right.insert name)

-- No order among the names of the tree is asked for: a name is looked for on the way on which it
-- would be added.
@[simp] theorem contains_insert (s : NameSet) (name other : String) :
    (s.insert name).contains other = (decide (other = name) || s.contains other) := by
  induction s with
  | empty => by_cases h : other = name <;> simp [insert, contains, h]
  | node left root right ihl ihr =>
    rw [insert]
    split
    · next hroot => by_cases h : other = name <;> simp [contains, h, hroot]
    · next hroot =>
      split
      · next hlt =>
        rw [contains, contains, ihl]
        by_cases h : other = name
        · rw [h, if_neg hroot, if_pos hlt]
          simp
        · simp [h]
      · next hlt =>
        rw [contains, contains, ihr]
        by_cases h : other = name
        · rw [h, if_neg hroot, if_neg hlt]
          simp
        · simp [h]

end NameSet

end EcmaEval
