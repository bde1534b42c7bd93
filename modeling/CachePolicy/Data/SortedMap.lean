import CachePolicy.Data.Instances

/-!
# Maps in the order of their keys

A map lists its keys in their order, each of them once.  The order belongs to the
type, so two maps with the same values under the same keys are equal, and what a
map lists does not depend on the history of its keys.
-/

namespace CachePolicy

/-- A map from keys to values. -/
structure SortedMap (κ α : Type) [LT κ] where
  /-- Every key with its value. -/
  pairs : List (κ × α)
  ordered : pairs.Pairwise fun a b => a.1 < b.1

namespace SortedMap

variable {κ α : Type}

theorem lookup_cons_eq [DecidableEq κ] (key other : κ) (value : α) (entries : List (κ × α)) :
    ((key, value) :: entries).lookup other =
      if other = key then some value else entries.lookup other := by
  rw [List.lookup_cons]
  by_cases h : other = key
  · simp [h]
  · rw [beq_false_of_ne h, if_neg h]

theorem lookup_filter_ne [DecidableEq κ] (key other : κ) (entries : List (κ × α)) :
    (entries.filter (·.1 != key)).lookup other =
      if other = key then none else entries.lookup other := by
  induction entries with
  | nil => simp
  | cons entry rest ih =>
    obtain ⟨first, old⟩ := entry
    by_cases gone : first = key
    · rw [List.filter_cons_of_neg (by simp [gone]), ih, lookup_cons_eq, gone]
      split <;> rfl
    · rw [List.filter_cons_of_pos (by simp [gone]), lookup_cons_eq, lookup_cons_eq, ih]
      by_cases h : other = first
      · simp [h, gone]
      · simp [h]

variable [LT κ]

/-- A map without keys. -/
def empty : SortedMap κ α := ⟨[], .nil⟩

instance : Inhabited (SortedMap κ α) := ⟨empty⟩

/-- The keys in order. -/
def keys (map : SortedMap κ α) : List κ := map.pairs.map (·.1)

variable [DecidableEq κ]

/-- The value of a key. -/
def get? (map : SortedMap κ α) (key : κ) : Option α := map.pairs.lookup key

/-- Whether a key has a value. -/
def contains (map : SortedMap κ α) (key : κ) : Bool := (map.get? key).isSome

/-- Take a key out. -/
def erase (map : SortedMap κ α) (key : κ) : SortedMap κ α :=
  ⟨map.pairs.filter (·.1 != key), map.ordered.filter _⟩

@[simp] theorem get?_empty (key : κ) : (empty : SortedMap κ α).get? key = none := rfl

@[simp] theorem get?_erase (map : SortedMap κ α) (key other : κ) :
    (map.erase key).get? other = if other = key then none else map.get? other :=
  lookup_filter_ne key other map.pairs

/-! ### Inserting -/

variable [DecidableLT κ]

/-- Entries with the value of a key put in its place. -/
def insertEntry (key : κ) (value : α) : List (κ × α) → List (κ × α)
  | [] => [(key, value)]
  | (other, old) :: rest =>
    if other = key then (key, value) :: rest
    else if key < other then (key, value) :: (other, old) :: rest
    else (other, old) :: insertEntry key value rest

theorem mem_insertEntry {key : κ} {value : α} {entries : List (κ × α)} {entry : κ × α}
    (h : entry ∈ insertEntry key value entries) : entry = (key, value) ∨ entry ∈ entries := by
  induction entries with
  | nil => exact .inl (by simpa [insertEntry] using h)
  | cons first rest ih =>
    obtain ⟨other, old⟩ := first
    unfold insertEntry at h
    split at h
    · exact (List.mem_cons.mp h).imp_right (List.mem_cons_of_mem _)
    · split at h
      · exact List.mem_cons.mp h
      · rcases List.mem_cons.mp h with same | later
        · exact .inr (same ▸ List.mem_cons_self)
        · exact (ih later).imp_right (List.mem_cons_of_mem _)

theorem lookup_insertEntry (key other : κ) (value : α) (entries : List (κ × α)) :
    (insertEntry key value entries).lookup other =
      if other = key then some value else entries.lookup other := by
  induction entries with
  | nil => rw [insertEntry, lookup_cons_eq]
  | cons entry rest ih =>
    obtain ⟨first, old⟩ := entry
    unfold insertEntry
    split
    · next same =>
      subst same
      rw [lookup_cons_eq, lookup_cons_eq]
      split <;> rfl
    · next differs =>
      split
      · rw [lookup_cons_eq]
      · rw [lookup_cons_eq, lookup_cons_eq, ih]
        by_cases h : other = first
        · simp [h, differs]
        · simp [h]

variable [Trans (fun a b : κ => a < b) (fun a b : κ => a < b) (fun a b : κ => a < b)]
  [Std.Trichotomous (fun a b : κ => a < b)]

theorem pairwise_insertEntry (key : κ) (value : α) {entries : List (κ × α)}
    (ordered : entries.Pairwise fun a b => a.1 < b.1) :
    (insertEntry key value entries).Pairwise fun a b => a.1 < b.1 := by
  induction entries with
  | nil => exact List.pairwise_singleton _ _
  | cons first rest ih =>
    obtain ⟨other, old⟩ := first
    obtain ⟨below, tail⟩ := List.pairwise_cons.mp ordered
    unfold insertEntry
    split
    · next same => exact List.pairwise_cons.mpr ⟨fun entry h => same ▸ below entry h, tail⟩
    · next differs =>
      split
      · next before =>
        refine List.pairwise_cons.mpr ⟨fun entry h => ?_, ordered⟩
        rcases List.mem_cons.mp h with rfl | later
        · exact before
        · exact Std.lt_trans before (below entry later)
      · next notBefore =>
        refine List.pairwise_cons.mpr ⟨fun entry h => ?_, ih tail⟩
        rcases mem_insertEntry h with rfl | later
        · rcases Std.lt_trichotomy other key with lt | eq | gt
          · exact lt
          · exact absurd eq differs
          · exact absurd gt notBefore
        · exact below entry later

/-- Give a key a value. -/
def insert (map : SortedMap κ α) (key : κ) (value : α) : SortedMap κ α :=
  ⟨insertEntry key value map.pairs, pairwise_insertEntry key value map.ordered⟩

/-- Give keys their values, one after the other. -/
def insertAll (map : SortedMap κ α) (entries : List (κ × α)) : SortedMap κ α :=
  entries.foldl (fun map entry => map.insert entry.1 entry.2) map

@[simp] theorem get?_insert (map : SortedMap κ α) (key other : κ) (value : α) :
    (map.insert key value).get? other = if other = key then some value else map.get? other :=
  lookup_insertEntry key other value map.pairs

@[simp] theorem insertAll_nil (map : SortedMap κ α) : map.insertAll [] = map := rfl

@[simp] theorem insertAll_cons (map : SortedMap κ α) (entry : κ × α) (rest : List (κ × α)) :
    map.insertAll (entry :: rest) = (map.insert entry.1 entry.2).insertAll rest := rfl

end SortedMap

end CachePolicy
