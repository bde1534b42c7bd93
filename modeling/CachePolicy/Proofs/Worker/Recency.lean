import CachePolicy.Proofs.Worker.Partition
import Mathlib.Data.Finset.Card
import Mathlib.Data.List.Perm.Subperm

/-!
# Which responses a partition still holds

While the clock does not go back, what a partition holds can be read off from what was
stored in it: of the responses that were stored last for their URLs, those that are
neither too old nor followed by too many others.

That nothing else is dropped is an invariant of `Kept`.  It says of every moment not
before those at which the clock was looked at which responses are there, since a sweep
drops what would be too old anyway by any later moment.
-/

namespace CachePolicy

/-! ## The last responses for their URLs -/

/-- The responses that were stored last for their URLs, in the order in which they were
stored. -/
def latest (stored : List CachedEntry) : List CachedEntry :=
  stored.foldl (fun kept entry => Storage.without entry.url kept ++ [entry]) []

@[simp] theorem latest_nil : latest [] = [] := rfl

theorem latest_append_singleton (stored : List CachedEntry) (entry : CachedEntry) :
    latest (stored ++ [entry]) = Storage.without entry.url (latest stored) ++ [entry] := by
  rw [latest, List.foldl_append]
  rfl

theorem latest_sublist (stored : List CachedEntry) : (latest stored).Sublist stored := by
  induction stored using List.reverseRecOn with
  | nil => exact List.Sublist.refl []
  | append_singleton stored entry ih =>
      rw [latest_append_singleton]
      exact ((Storage.without_sublist _ _).trans ih).append (List.Sublist.refl [entry])

theorem nodup_latest (stored : List CachedEntry) : ((latest stored).map (·.url)).Nodup := by
  induction stored using List.reverseRecOn with
  | nil => exact List.nodup_nil
  | append_singleton stored entry ih =>
      rw [latest_append_singleton]
      exact Storage.nodup_without_append entry.url ih entry.response entry.storedAt

/-- Every URL has a last response. -/
theorem mem_urls_latest {stored : List CachedEntry} {url : String} :
    url ∈ (latest stored).map (·.url) ↔ url ∈ stored.map (·.url) := by
  induction stored using List.reverseRecOn with
  | nil => rfl
  | append_singleton stored entry ih =>
      rw [latest_append_singleton, List.map_append, List.map_append, List.mem_append,
        List.mem_append, ← ih]
      simp only [List.mem_map, Storage.mem_without, List.mem_singleton]
      constructor
      · rintro (⟨other, ⟨member, -⟩, rfl⟩ | last)
        · exact .inl ⟨other, member, rfl⟩
        · exact .inr last
      · rintro (⟨other, member, rfl⟩ | last)
        · by_cases same : other.url = entry.url
          · exact .inr ⟨entry, rfl, same.symm⟩
          · exact .inl ⟨other, ⟨member, same⟩, rfl⟩
        · exact .inr last

theorem length_latest (stored : List CachedEntry) :
    (latest stored).length = (stored.map (·.url)).toFinset.card := by
  have same : (stored.map (·.url)).toFinset = ((latest stored).map (·.url)).toFinset := by
    ext url
    rw [List.mem_toFinset, List.mem_toFinset]
    exact mem_urls_latest.symm
  rw [same, List.toFinset_card_of_nodup (nodup_latest stored), List.length_map]

/-- What is stored after the last response for a URL comes after it. -/
theorem exists_latest_eq (before : List CachedEntry) {entry : CachedEntry}
    {after : List CachedEntry} (last : ∀ later ∈ after, later.url ≠ entry.url) :
    ∃ front, latest (before ++ entry :: after) = front ++ entry :: latest after := by
  induction after using List.reverseRecOn with
  | nil => exact ⟨_, latest_append_singleton before entry⟩
  | append_singleton after newest ih =>
      obtain ⟨front, split⟩ := ih fun later member => last later (List.mem_append_left _ member)
      have other : entry.url ≠ newest.url := (last newest (by simp)).symm
      refine ⟨Storage.without newest.url front, ?_⟩
      rw [← List.cons_append, ← List.append_assoc, latest_append_singleton, split,
        latest_append_singleton, Storage.without, List.filter_append,
        List.filter_cons_of_pos (by simpa using other), List.append_assoc]
      rfl

theorem exists_split_of_mem_latest {stored : List CachedEntry} {entry : CachedEntry}
    (member : entry ∈ latest stored) :
    ∃ before after, stored = before ++ entry :: after ∧
      ∀ later ∈ after, later.url ≠ entry.url := by
  induction stored using List.reverseRecOn with
  | nil => exact absurd member List.not_mem_nil
  | append_singleton stored newest ih =>
      rw [latest_append_singleton, List.mem_append, List.mem_singleton] at member
      rcases member with old | rfl
      · obtain ⟨present, other⟩ := Storage.mem_without.mp old
        obtain ⟨before, after, rfl, last⟩ := ih present
        refine ⟨before, after ++ [newest], by simp, ?_⟩
        intro later found
        rw [List.mem_append, List.mem_singleton] at found
        rcases found with earlier | rfl
        · exact last later earlier
        · exact other.symm
      · exact ⟨stored, [], rfl, fun later found => absurd found List.not_mem_nil⟩

/-! ## What a sweep spares -/

/-- An entry is within bounds at a moment: it is not too old, as any age beyond the longest
span is (see `le_span_iff`), and not followed by too many newer ones. -/
structure Spared (bounds : Option Expiration) (moment : Moment) (entry : CachedEntry)
    (newer : Nat) : Prop where
  fresh : ∀ limits seconds, bounds = some limits →
    limits.normalized.maxAgeSeconds = some seconds → moment - entry.storedAt ≤ span seconds
  room : ∀ limits most, bounds = some limits →
    limits.normalized.maxEntries = some most → newer < most.toNat

theorem Expiration.isFresh_iff {limits : Expiration} {moment : Moment} {entry : CachedEntry} :
    limits.isFresh moment entry = true ↔ ∀ seconds,
      limits.normalized.maxAgeSeconds = some seconds → moment - entry.storedAt ≤ span seconds := by
  cases aged : limits.normalized.maxAgeSeconds with
  | none => simp [isFresh, aged]
  | some seconds => simp [isFresh, aged]

namespace Spared

variable {bounds : Option Expiration} {moment earlier : Moment} {entry : CachedEntry}
variable {newer fewer : Nat}

theorem isFresh (spared : Spared bounds moment entry newer) {limits : Expiration}
    (bounded : bounds = some limits) : limits.isFresh moment entry = true :=
  Expiration.isFresh_iff.mpr fun seconds => spared.fresh limits seconds bounded

/-- What is within bounds was so before, when there were no more newer entries. -/
theorem mono (spared : Spared bounds moment entry newer) (before : earlier ≤ moment)
    (less : fewer ≤ newer) : Spared bounds earlier entry fewer where
  fresh limits seconds bounded aged := by
    have fresh := spared.fresh limits seconds bounded aged
    exact Int.le_trans (Int.sub_le_sub_right before entry.storedAt) fresh
  room limits most bounded limit :=
    Nat.lt_of_le_of_lt less (spared.room limits most bounded limit)

end Spared

theorem exists_split_of_sublist {entries before after : List CachedEntry} {entry : CachedEntry}
    (sublist : entries.Sublist (before ++ entry :: after))
    (distinct : (before ++ entry :: after).Nodup) (member : entry ∈ entries) :
    ∃ first last, entries = first ++ entry :: last ∧ last.Sublist after := by
  rw [List.nodup_append] at distinct
  obtain ⟨-, ends, apart⟩ := distinct
  obtain ⟨first, rest, rfl, early, late⟩ := List.sublist_append_iff.mp sublist
  rw [List.mem_append] at member
  rcases member with front | back
  · exact absurd rfl (apart entry (early.subset front) entry List.mem_cons_self)
  · rcases List.sublist_cons_iff.mp late with skipped | ⟨last, rfl, tail⟩
    · exact absurd (skipped.subset back) (List.nodup_cons.mp ends).1
    · exact ⟨first, last, rfl, tail⟩

/-- A sweep spares every entry that is within bounds. -/
theorem mem_tidied {bounds : Option Expiration} {moment : Moment}
    {entries before after : List CachedEntry} {entry : CachedEntry}
    (sublist : entries.Sublist (before ++ entry :: after))
    (distinct : (before ++ entry :: after).Nodup) (member : entry ∈ entries)
    (spared : Spared bounds moment entry after.length) :
    entry ∈ tidied bounds moment entries := by
  cases bounds with
  | none => exact member
  | some limits =>
      obtain ⟨first, last, rfl, late⟩ := exists_split_of_sublist sublist distinct member
      have fresh := spared.isFresh rfl
      rw [tidied, Expiration.swept, List.filter_append, List.filter_cons_of_pos fresh,
        Expiration.newest]
      cases limit : limits.normalized.maxEntries with
      | none => simp
      | some most =>
          have room := spared.room limits most rfl limit
          have newer : (last.filter (limits.isFresh moment)).length ≤ after.length :=
            (List.length_filter_le _ _).trans late.length_le
          simp only
          rw [List.drop_append_of_le_length]
          · exact List.mem_append_right _ List.mem_cons_self
          · rw [List.length_append, List.length_cons]
            omega

/-! ## The invariant -/

/-- A partition follows what was stored: it holds last responses for their URLs, in
order, and all of them that are within bounds. -/
structure Follows (bounds : Option Expiration) (moments : List Moment)
    (stored entries : List CachedEntry) : Prop where
  sublist : entries.Sublist (latest stored)
  spared : ∀ before entry after moment, latest stored = before ++ entry :: after →
    (∀ earlier ∈ moments, earlier ≤ moment) → Spared bounds moment entry after.length →
    entry ∈ entries

theorem Storage.length_le_without {entries : List CachedEntry}
    (distinct : (entries.map (·.url)).Nodup) (url : String) :
    entries.length ≤ (without url entries).length + 1 := by
  induction entries with
  | nil => exact Nat.zero_le _
  | cons entry rest ih =>
      rw [List.map_cons, List.nodup_cons] at distinct
      by_cases same : entry.url = url
      · have kept : without url rest = rest := by
          apply List.filter_eq_self.mpr
          intro other member
          have differs : other.url ≠ url := by
            intro equal
            exact distinct.1 (List.mem_map.mpr ⟨other, member, equal.trans same.symm⟩)
          simpa using differs
        rw [without, List.filter_cons_of_neg (by simp [same]), ← without, kept,
          List.length_cons]
      · have shorter := ih distinct.2
        rw [without, List.filter_cons_of_pos (by simp [same]), ← without, List.length_cons,
          List.length_cons]
        omega

namespace Follows

variable {bounds : Option Expiration} {moments : List Moment}
variable {stored entries : List CachedEntry}

theorem empty : Follows bounds [] [] [] where
  sublist := List.Sublist.refl []
  spared before entry after moment split := by
    rw [latest_nil] at split
    exact absurd split (by simp)

theorem read (follows : Follows bounds moments stored entries) (moment : Moment) :
    Follows bounds (moments ++ [moment]) stored entries where
  sublist := follows.sublist
  spared before entry after later split none :=
    follows.spared before entry after later split fun earlier member =>
      none earlier (List.mem_append_left _ member)

/-- Dropping an entry that is too old at some moment drops nothing that is within bounds
at any later one. -/
theorem drop (follows : Follows bounds moments stored entries)
    (distinct : (entries.map (·.url)).Nodup) {moment : Moment} (seen : moment ∈ moments)
    {limits : Expiration} (bounded : bounds = some limits) {old : CachedEntry}
    (member : old ∈ entries) (stale : limits.isFresh moment old = false) :
    Follows bounds moments stored (Storage.without old.url entries) where
  sublist := (Storage.without_sublist _ _).trans follows.sublist
  spared before entry after later split none spared := by
    have found := follows.spared before entry after later split none spared
    refine Storage.mem_without.mpr ⟨found, ?_⟩
    intro same
    obtain rfl := List.inj_on_of_nodup_map distinct found member same
    have fresh := (spared.mono (none moment seen) (Nat.le_refl _)).isFresh bounded
    rw [stale] at fresh
    cases fresh

/-- A sweep at some moment drops nothing that is within bounds at any later one. -/
theorem tidy (follows : Follows bounds moments stored entries) {moment : Moment}
    (seen : moment ∈ moments) :
    Follows bounds moments stored (tidied bounds moment entries) where
  sublist := (tidied_sublist _ _ _).trans follows.sublist
  spared before entry after later split none spared := by
    have distinct := (nodup_latest stored).of_map
    have found := follows.spared before entry after later split none spared
    have sublist := follows.sublist
    rw [split] at distinct sublist
    exact mem_tidied sublist distinct found (spared.mono (none moment seen) (Nat.le_refl _))

/-- Storing a response moves its URL to the end, so every other entry has as many newer
ones as before or one more. -/
theorem put (follows : Follows bounds moments stored entries) (entry : CachedEntry) :
    Follows bounds moments (stored ++ [entry])
      (Storage.without entry.url entries ++ [entry]) where
  sublist := by
    rw [latest_append_singleton]
    exact (follows.sublist.filter _).append (List.Sublist.refl [entry])
  spared before other after moment split none spared := by
    rw [latest_append_singleton] at split
    rcases List.eq_nil_or_concat after with rfl | ⟨newer, newest, rfl⟩
    · have ends := (List.append_inj' split rfl).2
      rw [List.cons.injEq] at ends
      rw [← ends.1]
      exact List.mem_append_right _ List.mem_cons_self
    · rw [List.concat_eq_append, ← List.cons_append, ← List.append_assoc] at split
      obtain ⟨kept, -⟩ := List.append_inj' split rfl
      obtain ⟨front, back, parts, -, rest⟩ := List.filter_eq_append_iff.mp kept
      obtain ⟨skipped, last, rfl, -, differs, remain⟩ := List.filter_eq_cons_iff.mp rest
      have distinct := nodup_latest stored
      rw [parts, ← List.append_assoc] at distinct
      rw [← List.append_assoc] at parts
      have lastDistinct : (last.map (·.url)).Nodup := by
        refine distinct.sublist (List.Sublist.map _ ?_)
        exact (List.sublist_cons_self other last).trans (List.sublist_append_right _ _)
      have few : last.length ≤ (newer.concat newest).length := by
        have shorter := Storage.length_le_without lastDistinct entry.url
        rw [Storage.without, remain] at shorter
        simpa using shorter
      have found := follows.spared _ other last moment parts none
        (spared.mono (Int.le_refl _) few)
      apply List.mem_append_left
      exact List.mem_filter.mpr ⟨found, differs⟩

end Follows

/-- Whatever happens to a partition, it follows what is stored in it. -/
theorem Kept.follows {bounds : Option Expiration} {moments : List Moment}
    {stored entries : List CachedEntry} (kept : Kept bounds moments stored entries) :
    Follows bounds moments stored entries := by
  induction kept with
  | empty => exact .empty
  | read moment _ ih => exact ih.read moment
  | dropped seen bounded member stale before ih =>
      exact ih.drop before.tidy.distinct seen bounded member stale
  | stored moment url complete _ ih =>
      exact ((ih.read moment).put ⟨url, _, moment⟩).tidy (by simp)
  | swept seen bounded _ ih =>
      subst bounded
      exact ih.tidy seen

/-! ## What is found -/

/-- A partition full of newer responses that are not too old has no room for an older
one. -/
theorem Follows.room {bounds : Option Expiration} {moments : List Moment}
    {stored entries : List CachedEntry} (follows : Follows bounds moments stored entries)
    {moment : Moment} (late : ∀ earlier ∈ moments, earlier ≤ moment)
    {front newer : List CachedEntry} {entry : CachedEntry}
    (split : latest stored = front ++ entry :: newer) (member : entry ∈ entries)
    (ordered : ∀ later ∈ newer, entry.storedAt ≤ later.storedAt)
    (fresh : ∀ limits, bounds = some limits → limits.isFresh moment entry = true)
    {limits : Expiration} (bounded : bounds = some limits) {most : UInt32}
    (limit : limits.normalized.maxEntries = some most) (few : entries.length ≤ most.toNat) :
    newer.length < most.toNat := by
  by_contra full
  obtain ⟨older, newest, rfl, count⟩ : ∃ older newest, newer = older ++ newest ∧
      newest.length = most.toNat := by
    refine ⟨_, _, (List.take_append_drop (newer.length - most.toNat) newer).symm, ?_⟩
    rw [List.length_drop]
    omega
  have present : newest ⊆ entries := by
    intro later found
    obtain ⟨skipped, rest, rfl⟩ := List.append_of_mem found
    have parts : latest stored =
        (front ++ entry :: (older ++ skipped)) ++ later :: rest := by simp [split]
    apply follows.spared _ later rest moment parts late
    constructor
    · intro others seconds same aged
      have age := Expiration.isFresh_iff.mp (fresh others same) seconds aged
      have newer := ordered later (List.mem_append_right _ found)
      exact Int.le_trans (Int.sub_le_sub_left newer moment) age
    · intro others other same limited
      rw [bounded] at same
      cases same
      rw [limit] at limited
      cases limited
      rw [← count, List.length_append, List.length_cons]
      omega
  have distinct : (entry :: newest).Nodup := by
    have all := (nodup_latest stored).of_map
    rw [split] at all
    refine all.sublist (List.Sublist.trans ?_ (List.sublist_append_right _ _))
    exact (List.sublist_append_right older newest).cons_cons entry
  have more := (distinct.subperm (List.cons_subset.mpr ⟨member, present⟩)).length_le
  rw [List.length_cons] at more
  omega

/-- A response is held for a URL: it was stored last for it, and is within bounds, where
the number of other URLs for which responses were stored later counts. -/
def Held (bounds : Option Expiration) (stored : List CachedEntry) (moment : Moment)
    (url : String) (response : Response) : Prop :=
  ∃ before entry after, stored = before ++ entry :: after ∧ entry.url = url ∧
    entry.response = response ∧ (∀ later ∈ after, later.url ≠ url) ∧
    Spared bounds moment entry (after.map (·.url)).toFinset.card

theorem find?_eq_some_of_mem {entries : List CachedEntry} {entry : CachedEntry}
    (distinct : (entries.map (·.url)).Nodup) (member : entry ∈ entries) :
    entries.find? (·.url == entry.url) = some entry := by
  cases found : entries.find? (·.url == entry.url) with
  | none =>
      have absent := List.find?_eq_none.mp found entry member
      exact absurd (beq_self_eq_true entry.url) absent
  | some other =>
      have same : other.url = entry.url := by simpa using List.find?_some found
      rw [List.inj_on_of_nodup_map distinct (List.mem_of_find?_eq_some found) member same]

/-- While the clock does not go back, a look-up finds a response that is not too old just
when the response is held. -/
theorem Kept.find?_iff_held {bounds : Option Expiration} {moments : List Moment}
    {stored entries : List CachedEntry} (kept : Kept bounds moments stored entries)
    {moment : Moment} (ordered : (moments ++ [moment]).Pairwise (· ≤ ·)) (url : String)
    (response : Response) :
    (∃ entry, entries.find? (·.url == url) = some entry ∧ entry.response = response ∧
      ∀ limits, bounds = some limits → limits.isFresh moment entry = true) ↔
      Held bounds stored moment url response := by
  have tidy := kept.tidy
  have follows := kept.follows
  obtain ⟨sorted, -, late⟩ := List.pairwise_append.mp ordered
  have late : ∀ earlier ∈ moments, earlier ≤ moment :=
    fun earlier member => late earlier member moment List.mem_cons_self
  constructor
  · rintro ⟨entry, found, rfl, fresh⟩
    have member := List.mem_of_find?_eq_some found
    have same : entry.url = url := by simpa using List.find?_some found
    subst same
    obtain ⟨before, after, rfl, last⟩ :=
      exists_split_of_mem_latest (follows.sublist.subset member)
    obtain ⟨front, split⟩ := exists_latest_eq before last
    refine ⟨before, entry, after, rfl, rfl, rfl, last, ?_, ?_⟩
    · intro limits seconds bounded aged
      exact Expiration.isFresh_iff.mp (fresh limits bounded) seconds aged
    · intro limits most bounded limit
      have times := sorted.sublist kept.storedAt_sublist
      rw [List.map_append, List.map_cons, List.pairwise_append, List.pairwise_cons] at times
      have ordered : ∀ later ∈ latest after, entry.storedAt ≤ later.storedAt := by
        intro later newer
        apply times.2.1.1
        exact List.mem_map_of_mem ((latest_sublist after).subset newer)
      rw [← length_latest]
      exact follows.room late split member ordered fresh bounded limit
        (tidy.bounded limits most bounded limit)
  · rintro ⟨before, entry, after, rfl, rfl, rfl, last, spared⟩
    obtain ⟨front, split⟩ := exists_latest_eq before last
    rw [← length_latest] at spared
    have member := follows.spared front entry (latest after) moment split late spared
    exact ⟨entry, find?_eq_some_of_mem tidy.distinct member, rfl,
      fun limits bounded => spared.isFresh bounded⟩

end CachePolicy
