import CachePolicy.Data.SortedMap
import Mathlib.Data.List.Nodup

/-!
# Keys of maps

The keys that a map lists are those that have a value, each of them once.  Maps with the
same values are equal.  Giving many keys their values at once is giving each of them its
own.  Taking a key out undoes whatever was last done to it.
-/

namespace CachePolicy.SortedMap

variable {α : Type}

section Keys

variable {κ : Type} [LT κ]

theorem pairwise_keys (map : SortedMap κ α) : map.keys.Pairwise (· < ·) :=
  List.pairwise_map.mpr map.ordered

theorem nodup_keys [Std.Irrefl (fun a b : κ => a < b)] (map : SortedMap κ α) : map.keys.Nodup := by
  refine map.pairwise_keys.imp fun {a b} less => ?_
  rintro rfl
  exact Std.Irrefl.irrefl (r := fun a b : κ => a < b) _ less

end Keys

theorem mem_map_fst_iff_lookup {κ : Type} [DecidableEq κ] {key : κ}
    {entries : List (κ × α)} :
    key ∈ entries.map (·.1) ↔ ∃ value, entries.lookup key = some value := by
  induction entries with
  | nil => simp
  | cons entry rest ih =>
      obtain ⟨first, value⟩ := entry
      rw [List.map_cons, List.mem_cons, ih, lookup_cons_eq]
      by_cases same : key = first
      · simp [same]
      · simp [same]

theorem mem_iff_lookup {κ : Type} [DecidableEq κ] {entries : List (κ × α)}
    (distinct : (entries.map (·.1)).Nodup) {key : κ} {value : α} :
    (key, value) ∈ entries ↔ entries.lookup key = some value := by
  induction entries with
  | nil => simp
  | cons entry rest ih =>
      obtain ⟨first, other⟩ := entry
      rw [List.map_cons, List.nodup_cons] at distinct
      rw [List.mem_cons, lookup_cons_eq, ih distinct.2, Prod.mk.injEq]
      by_cases same : key = first
      · subst same
        have absent : ¬ rest.lookup key = some value := fun found =>
          distinct.1 (mem_map_fst_iff_lookup.mpr ⟨value, found⟩)
        simp [absent, eq_comm]
      · simp [same]

theorem mem_pairs_iff {κ : Type} [LT κ] [DecidableEq κ] [Std.Irrefl (fun a b : κ => a < b)]
    {map : SortedMap κ α} {key : κ} {value : α} :
    (key, value) ∈ map.pairs ↔ map.get? key = some value :=
  mem_iff_lookup map.nodup_keys

theorem mem_keys_iff {map : SortedMap String α} {key : String} :
    key ∈ map.keys ↔ map.contains key = true := by
  rw [contains, Option.isSome_iff_exists]
  exact mem_map_fst_iff_lookup

/-- Maps with the same values are equal. -/
theorem ext_get? {first second : SortedMap String α}
    (same : ∀ key, first.get? key = second.get? key) : first = second := by
  have nodup (map : SortedMap String α) : map.pairs.Nodup := .of_map _ map.nodup_keys
  have listed (pair : String × α) : pair ∈ first.pairs ↔ pair ∈ second.pairs := by
    obtain ⟨key, value⟩ := pair
    rw [mem_pairs_iff, mem_pairs_iff, same]
  have perm : first.pairs.Perm second.pairs :=
    (List.perm_ext_iff_of_nodup (nodup first) (nodup second)).mpr listed
  have pairs : first.pairs = second.pairs := by
    apply perm.eq_of_pairwise _ first.ordered second.ordered
    intro one other _ _ less greater
    exact absurd (String.lt_trans less greater) (String.lt_irrefl _)
  cases first
  cases second
  cases pairs
  rfl

theorem get?_insertAll {entries : List (String × α)} (distinct : (entries.map (·.1)).Nodup)
    (map : SortedMap String α) (key : String) :
    (map.insertAll entries).get? key = (entries.lookup key).or (map.get? key) := by
  induction entries generalizing map with
  | nil => rfl
  | cons entry rest ih =>
      obtain ⟨first, value⟩ := entry
      rw [List.map_cons, List.nodup_cons] at distinct
      rw [insertAll_cons, ih distinct.2, lookup_cons_eq, get?_insert]
      by_cases same : key = first
      · subst same
        have absent : rest.lookup key = none := by
          cases found : rest.lookup key with
          | none => rfl
          | some other => exact absurd (mem_map_fst_iff_lookup.mpr ⟨other, found⟩) distinct.1
        simp [absent]
      · simp [same]

/-! ## Taking keys out -/

section Erase

variable {κ : Type} [LT κ] [DecidableEq κ]

theorem erase_eq_self {map : SortedMap κ α} {key : κ} (absent : map.get? key = none) :
    map.erase key = map := by
  obtain ⟨pairs, ordered⟩ := map
  have kept : pairs.filter (·.1 != key) = pairs := by
    refine List.filter_eq_self.mpr fun pair listed => bne_iff_ne.mpr ?_
    rintro rfl
    obtain ⟨value, found⟩ := mem_map_fst_iff_lookup.mp (List.mem_map_of_mem listed)
    cases absent.symm.trans found
  simp only [erase, kept]

variable [DecidableLT κ]

theorem filter_insertEntry (key : κ) (value : α) (entries : List (κ × α)) :
    (insertEntry key value entries).filter (·.1 != key) = entries.filter (·.1 != key) := by
  induction entries with
  | nil => simp [insertEntry]
  | cons entry rest ih =>
      obtain ⟨other, old⟩ := entry
      rw [insertEntry]
      split
      · next same => simp [same]
      · split
        · simp
        · rw [List.filter_cons, List.filter_cons, ih]

variable [Trans (fun a b : κ => a < b) (fun a b : κ => a < b) (fun a b : κ => a < b)]
  [Std.Trichotomous (fun a b : κ => a < b)]

@[simp] theorem erase_insert (map : SortedMap κ α) (key : κ) (value : α) :
    (map.insert key value).erase key = map.erase key := by
  simp only [erase, insert, filter_insertEntry]

end Erase

end CachePolicy.SortedMap
