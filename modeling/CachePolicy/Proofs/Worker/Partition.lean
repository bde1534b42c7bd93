import CachePolicy.Worker.Fetch

/-!
# What becomes of a partition

A partition changes in few ways: a response is stored in it and it is swept, an entry
that is too old is dropped when it is met, or it is swept on its own.  `Kept` collects
these changes for a partition with some bounds, together with every moment at which the
clock was looked at and every response that was stored.

Whatever the clock does, a partition holds one entry for a URL, complete responses only,
and no more entries than its bounds allow.
-/

namespace CachePolicy

/-! ## Spans of time -/

theorem span_nonneg (seconds : UInt64) : 0 ≤ span seconds := Int.natCast_nonneg _

theorem span_le (seconds : UInt64) : span seconds ≤ seconds.toNat * 1000 := by
  rw [span]
  have capped : min seconds.toNat longestSpan ≤ seconds.toNat := Nat.min_le_left _ _
  omega

/-- A number of seconds, capped, is that many or no less than any age.  The age is counted in units
of which `second` make a second. -/
theorem le_min_longestSpan_iff {second age : Int} (positive : 0 ≤ second)
    (short : age ≤ longestSpan * second) (seconds : Nat) :
    age ≤ (min seconds longestSpan : Nat) * second ↔ age ≤ seconds * second := by
  obtain less | more := Nat.le_total seconds longestSpan
  · rw [Nat.min_eq_left less]
  · rw [Nat.min_eq_right more]
    have wider : (longestSpan : Int) * second ≤ seconds * second :=
      Int.mul_le_mul_of_nonneg_right (Int.ofNat_le.mpr more) positive
    omega

/-- An age within the longest span is compared with the number of seconds itself. -/
theorem le_span_iff {age : Int} (short : age ≤ longestSpan * 1000) (seconds : UInt64) :
    age ≤ span seconds ↔ age ≤ seconds.toNat * 1000 := by
  rw [← le_min_longestSpan_iff (by decide) short, span, Int.natCast_mul]
  rfl

/-! ## Sweeps -/

namespace Expiration

variable (bounds : Expiration) (moment : Moment) (entries : List CachedEntry)

theorem newest_sublist : (bounds.newest entries).Sublist entries := by
  rw [newest]
  cases bounds.normalized.maxEntries with
  | none => exact List.Sublist.refl entries
  | some most => exact List.drop_sublist _ _

theorem swept_sublist_fresh :
    (bounds.swept moment entries).Sublist (entries.filter (bounds.isFresh moment)) :=
  bounds.newest_sublist _

theorem swept_sublist : (bounds.swept moment entries).Sublist entries :=
  (bounds.swept_sublist_fresh moment entries).trans List.filter_sublist

variable {bounds moment entries}

theorem isFresh_of_mem_swept {entry : CachedEntry}
    (member : entry ∈ bounds.swept moment entries) : bounds.isFresh moment entry = true :=
  (List.mem_filter.mp ((bounds.swept_sublist_fresh moment entries).subset member)).2

theorem length_swept_le {most : UInt32} (bounded : bounds.normalized.maxEntries = some most) :
    (bounds.swept moment entries).length ≤ most.toNat := by
  rw [swept, newest, bounded]
  simp only [List.length_drop]
  omega

/-- A bound on the number of entries leaves room for one. -/
theorem one_le_of_maxEntries {most : UInt32} (bounded : bounds.normalized.maxEntries = some most) :
    1 ≤ most.toNat := by
  rw [normalized] at bounded
  have positive : 0 < most := by
    simpa using (Option.filter_eq_some_iff.mp bounded).2
  exact UInt32.lt_iff_toNat_lt.mp positive

theorem isFresh_of_maxAge {entry : CachedEntry} {seconds : UInt64}
    (bounded : bounds.normalized.maxAgeSeconds = some seconds) :
    bounds.isFresh moment entry = true ↔ moment - entry.storedAt ≤ span seconds := by
  rw [isFresh, bounded]
  exact decide_eq_true_iff

/-- An entry is fresh as it is stored. -/
theorem isFresh_self (bounds : Expiration) (entry : CachedEntry) :
    bounds.isFresh entry.storedAt entry = true := by
  rw [isFresh]
  cases bounds.normalized.maxAgeSeconds with
  | none => rfl
  | some seconds =>
      simp only [Int.sub_self, decide_eq_true_iff]
      exact span_nonneg seconds

/-- A sweep spares the newest entry if it is fresh. -/
theorem getLast?_swept_append {entry : CachedEntry}
    (fresh : bounds.isFresh moment entry = true) :
    (bounds.swept moment (entries ++ [entry])).getLast? = some entry := by
  have parts : (entries ++ [entry]).filter (bounds.isFresh moment) =
      entries.filter (bounds.isFresh moment) ++ [entry] := by
    rw [List.filter_append, List.filter_cons_of_pos fresh, List.filter_nil]
  rw [swept, parts, newest]
  cases bounded : bounds.normalized.maxEntries with
  | none => exact List.getLast?_concat
  | some most =>
      have room := one_le_of_maxEntries bounded
      have spared : (entries.filter (bounds.isFresh moment) ++ [entry]).length - most.toNat ≤
          (entries.filter (bounds.isFresh moment)).length := by
        rw [List.length_append, List.length_singleton]
        omega
      simp only
      rw [List.drop_append_of_le_length spared]
      exact List.getLast?_concat

/-- The bounds of a rule bound what they say. -/
theorem normalized_of_effectiveExpiration {rule : CachingRule}
    (bounded : rule.effectiveExpiration = some bounds) : bounds.normalized = bounds := by
  rw [CachingRule.effectiveExpiration] at bounded
  cases given : rule.expiration with
  | none =>
      rw [given] at bounded
      cases bounded
  | some limits =>
      rw [given] at bounded
      simp only [Option.ite_none_right_eq_some, Option.some.injEq] at bounded
      rw [← bounded.2, normalized_normalized]

end Expiration

/-- The entries that a sweep leaves, where nothing is swept that has no bounds. -/
def tidied (bounds : Option Expiration) (moment : Moment) (entries : List CachedEntry) :
    List CachedEntry :=
  match bounds with
  | some bounds => bounds.swept moment entries
  | none => entries

theorem tidied_sublist (bounds : Option Expiration) (moment : Moment)
    (entries : List CachedEntry) : (tidied bounds moment entries).Sublist entries := by
  cases bounds with
  | none => exact List.Sublist.refl entries
  | some bounds => exact bounds.swept_sublist moment entries

theorem getLast?_tidied_append (bounds : Option Expiration) (entries : List CachedEntry)
    (entry : CachedEntry) :
    (tidied bounds entry.storedAt (entries ++ [entry])).getLast? = some entry := by
  cases bounds with
  | none => exact List.getLast?_concat
  | some limits => exact Expiration.getLast?_swept_append (limits.isFresh_self entry)

/-! ## Changes of a partition -/

/-- How the entries of a partition with some bounds come about, with the moments at which
the clock was looked at and the responses that were stored, both in order. -/
inductive Kept (bounds : Option Expiration) :
    List Moment → List CachedEntry → List CachedEntry → Prop where
  | empty : Kept bounds [] [] []
  | read {moments : List Moment} {stored entries : List CachedEntry} (moment : Moment) :
      Kept bounds moments stored entries →
      Kept bounds (moments ++ [moment]) stored entries
  | dropped {moments : List Moment} {stored entries : List CachedEntry} {moment : Moment}
      {limits : Expiration} {entry : CachedEntry} :
      moment ∈ moments → bounds = some limits → entry ∈ entries →
      limits.isFresh moment entry = false →
      Kept bounds moments stored entries →
      Kept bounds moments stored (Storage.without entry.url entries)
  | stored {moments : List Moment} {stored entries : List CachedEntry} (moment : Moment)
      (url : String) {response : Response} :
      response.isCacheable = true →
      Kept bounds moments stored entries →
      Kept bounds (moments ++ [moment]) (stored ++ [⟨url, response, moment⟩])
        (tidied bounds moment (Storage.without url entries ++ [⟨url, response, moment⟩]))
  | swept {moments : List Moment} {stored entries : List CachedEntry} {moment : Moment}
      {limits : Expiration} :
      moment ∈ moments → bounds = some limits →
      Kept bounds moments stored entries →
      Kept bounds moments stored (limits.swept moment entries)

/-- What every partition with some bounds satisfies. -/
structure Tidy (bounds : Option Expiration) (entries : List CachedEntry) : Prop where
  distinct : (entries.map (·.url)).Nodup
  complete : ∀ entry ∈ entries, entry.response.isCacheable = true
  bounded : ∀ limits most, bounds = some limits → limits.normalized.maxEntries = some most →
    entries.length ≤ most.toNat

namespace Storage

theorem without_sublist (url : String) (entries : List CachedEntry) :
    (without url entries).Sublist entries :=
  List.filter_sublist

theorem mem_without {url : String} {entries : List CachedEntry} {entry : CachedEntry} :
    entry ∈ without url entries ↔ entry ∈ entries ∧ entry.url ≠ url := by
  simp [without]

/-- Storing a response anew keeps the URLs distinct. -/
theorem nodup_without_append (url : String) {entries : List CachedEntry}
    (distinct : (entries.map (·.url)).Nodup) (response : Response) (moment : Moment) :
    ((without url entries ++ [CachedEntry.mk url response moment]).map (·.url)).Nodup := by
  rw [List.map_append, List.nodup_append]
  refine ⟨distinct.sublist ((without_sublist url entries).map _), List.pairwise_singleton _ _, ?_⟩
  intro first firstMember second secondMember same
  obtain ⟨entry, member, rfl⟩ := List.mem_map.mp firstMember
  rw [List.map_singleton, List.mem_singleton] at secondMember
  exact (mem_without.mp member).2 (same.trans secondMember)

end Storage

namespace Tidy

variable {bounds : Option Expiration} {entries less : List CachedEntry}

theorem empty : Tidy bounds [] where
  distinct := List.nodup_nil
  complete _ member := absurd member List.not_mem_nil
  bounded _ _ _ _ := Nat.zero_le _

/-- Taking entries away leaves a partition tidy. -/
theorem sublist (tidy : Tidy bounds entries) (fewer : less.Sublist entries) :
    Tidy bounds less where
  distinct := tidy.distinct.sublist (fewer.map _)
  complete entry member := tidy.complete entry (fewer.subset member)
  bounded limits most same limit :=
    Nat.le_trans fewer.length_le (tidy.bounded limits most same limit)

/-- Storing a response leaves one entry too many at most, and the sweep takes it away. -/
theorem store (tidy : Tidy bounds entries) {response : Response}
    (complete : response.isCacheable = true) (url : String) (moment : Moment) :
    Tidy bounds
      (tidied bounds moment (Storage.without url entries ++ [⟨url, response, moment⟩])) where
  distinct := by
    have before := Storage.nodup_without_append url tidy.distinct response moment
    exact before.sublist ((tidied_sublist _ _ _).map _)
  complete entry member := by
    have before := (tidied_sublist _ _ _).subset member
    rw [List.mem_append, List.mem_singleton] at before
    rcases before with old | rfl
    · exact tidy.complete entry (Storage.mem_without.mp old).1
    · exact complete
  bounded limits most same limit := by
    rw [same, tidied]
    exact Expiration.length_swept_le limit

end Tidy

namespace Kept

variable {bounds : Option Expiration} {moments : List Moment}
variable {stored entries : List CachedEntry}

/-- Whatever happens to a partition, it is tidy. -/
theorem tidy (kept : Kept bounds moments stored entries) : Tidy bounds entries := by
  induction kept with
  | empty => exact .empty
  | read _ _ ih => exact ih
  | dropped _ _ _ _ _ ih => exact ih.sublist (Storage.without_sublist _ _)
  | stored moment url complete _ ih => exact ih.store complete url moment
  | swept _ _ _ ih => exact ih.sublist (Expiration.swept_sublist _ _ _)

/-- To look at the clock changes nothing. -/
theorem reads (kept : Kept bounds moments stored entries) (more : List Moment) :
    Kept bounds (moments ++ more) stored entries := by
  induction more generalizing moments with
  | nil =>
      rw [List.append_nil]
      exact kept
  | cons moment rest ih =>
      rw [← List.singleton_append, ← List.append_assoc]
      exact ih (kept.read moment)

/-- A response is stored at one of the moments at which the clock was looked at. -/
theorem storedAt_sublist (kept : Kept bounds moments stored entries) :
    (stored.map (·.storedAt)).Sublist moments := by
  induction kept with
  | empty => exact List.Sublist.refl []
  | read moment _ ih => exact ih.trans (List.sublist_append_left _ _)
  | dropped _ _ _ _ _ ih => exact ih
  | stored moment url _ _ ih =>
      rw [List.map_append]
      exact ih.append (List.Sublist.refl [moment])
  | swept _ _ _ ih => exact ih

/-- A partition holds nothing but what was stored in it. -/
theorem subset_stored (kept : Kept bounds moments stored entries) : entries ⊆ stored := by
  induction kept with
  | empty => exact List.Subset.refl []
  | read _ _ ih => exact ih
  | dropped _ _ _ _ _ ih =>
      intro entry member
      exact ih (Storage.mem_without.mp member).1
  | stored moment url _ _ ih =>
      intro entry member
      have before := (tidied_sublist _ _ _).subset member
      rw [List.mem_append] at before ⊢
      exact before.imp_left fun old => ih (Storage.mem_without.mp old).1
  | swept _ _ _ ih =>
      intro entry member
      exact ih ((Expiration.swept_sublist _ _ _).subset member)

end Kept

end CachePolicy
