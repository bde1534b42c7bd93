import CachePolicy.Proofs.Worker.Ages
import CachePolicy.Proofs.Worker.Sweeping

/-!
# What a sweep leaves of a partition

A sweep leaves the last of the fresh entries, as many as the bound on their number has room for.
It never drops more than there is, and a second sweep at the same moment finds nothing to drop.

A later sweep may find fewer fresh entries, and then an entry that the first one dropped for want
of room would have had room.  Where entries stand in the order of their times this makes no
difference: the fresh ones come last at every moment, so whatever is dropped for want of room is
older than what the later sweep leaves.
-/

namespace CachePolicy

/-! ## Step by step -/

/-- The difference of two counts, of which the second has to be the smaller one. -/
def difference? (whole part : Nat) : Option Nat :=
  if part ≤ whole then some (whole - part) else none

/-- A list without its first entries, of which it has to have as many. -/
def withoutFirst? (count : Nat) (entries : List CachedEntry) : Option (List CachedEntry) :=
  if count ≤ entries.length then some (entries.drop count) else none

namespace Expiration

variable (bounds : Expiration) (moment : Moment) (entries : List CachedEntry)

/-- Sweep entries one step after the other; this fails if a step asks for more than there is. -/
def sweep? : Option (SweepReport × List CachedEntry) := do
  let fresh := entries.filter (bounds.isFresh moment)
  let expired ← difference? entries.length fresh.length
  match bounds.normalized.maxEntries with
  | none => return (⟨entries.length, expired, 0⟩, fresh)
  | some most =>
    if most.toNat < fresh.length then
      let excess ← difference? fresh.length most.toNat
      let left ← withoutFirst? excess fresh
      return (⟨entries.length, expired, excess⟩, left)
    else return (⟨entries.length, expired, 0⟩, fresh)

/-- No step of a sweep asks for more than there is. -/
theorem sweep?_eq_some :
    bounds.sweep? moment entries =
      some (SweepReport.of bounds moment entries, bounds.swept moment entries) := by
  have fewer : (entries.filter (bounds.isFresh moment)).length ≤ entries.length :=
    List.length_filter_le _ _
  rw [sweep?, SweepReport.of, swept, difference?, if_pos fewer]
  generalize entries.filter (bounds.isFresh moment) = fresh
  simp only [newest]
  cases bounds.normalized.maxEntries with
  | none => simp
  | some most =>
      by_cases full : most.toNat < fresh.length
      · have dropped : fresh.length - most.toNat ≤ fresh.length := Nat.sub_le _ _
        have excess : fresh.length - (fresh.length - (fresh.length - most.toNat)) =
            fresh.length - most.toNat := by omega
        simp [full, difference?, Nat.le_of_lt full, withoutFirst?, dropped, excess]
      · have none : fresh.length - most.toNat = 0 := by omega
        simp [full, none]

/-! ## The last of the fresh entries -/

/-- How many of some entries the bound on their number has room for; a bound of zero is none. -/
def room (count : Nat) : Nat :=
  match bounds.maxEntries with
  | none => count
  | some most => if most = 0 then count else min most.toNat count

theorem newest_suffix : bounds.newest entries <:+ entries := by
  rw [newest]
  cases bounds.normalized.maxEntries with
  | none => exact List.suffix_refl entries
  | some most => exact List.drop_suffix _ entries

theorem length_newest : (bounds.newest entries).length = bounds.room entries.length := by
  rw [newest, room, normalized]
  cases bounds.maxEntries with
  | none => rfl
  | some most =>
      by_cases zero : most = 0
      · subst zero
        rfl
      · have positive : 0 < most := UInt32.pos_iff_ne_zero.mpr zero
        simp only [Option.filter_some, positive, decide_true, ↓reduceIte, List.length_drop, zero]
        omega

variable {bounds moment entries}

/-- Where there is room for fewer than remain, there was room for no more before. -/
theorem room_eq_of_le {fewer more : Nat} (spare : bounds.room more ≤ fewer)
    (less : fewer ≤ more) : bounds.room fewer = bounds.room more := by
  rw [room] at spare ⊢
  rw [room]
  cases limit : bounds.maxEntries with
  | none =>
      rw [limit] at spare
      exact Nat.le_antisymm less spare
  | some most =>
      simp only [limit] at spare ⊢
      split
      · next unbounded =>
          rw [if_pos unbounded] at spare
          exact Nat.le_antisymm less spare
      · next bounded =>
          rw [if_neg bounded] at spare
          omega

/-- What is left of some entries after a sweep at a moment, and what is reported of it. -/
structure LeavesNewest (bounds : Expiration) (moment : Moment) (entries : List CachedEntry)
    (report : SweepReport) (left : List CachedEntry) : Prop where
  /-- The last of the fresh entries are left, in their order. -/
  newest : left <:+ entries.filter (bounds.isFresh moment)
  count : left.length = bounds.room (entries.countP (bounds.isFresh moment))
  scanned : report.scanned = entries.length
  expired : report.expired = entries.countP (!bounds.isFresh moment ·)
  parts : report.scanned = report.expired + report.evicted + left.length

variable (bounds moment entries)

theorem leavesNewest_swept :
    bounds.LeavesNewest moment entries (SweepReport.of bounds moment entries)
      (bounds.swept moment entries) where
  newest := bounds.newest_suffix _
  count := by rw [swept, length_newest, List.countP_eq_length_filter]
  scanned := rfl
  expired := by
    have parts := List.length_eq_countP_add_countP (bounds.isFresh moment) (l := entries)
    simp only [SweepReport.of, ← List.countP_eq_length_filter]
    simp only [Bool.not_eq_true, Bool.decide_eq_false] at parts
    omega
  parts := by
    have removed := SweepReport.removed_of bounds moment entries
    rw [SweepReport.removed] at removed
    exact removed.symm

/-! ## Sweeping again -/

theorem sweep?_swept :
    bounds.sweep? moment (bounds.swept moment entries) =
      some (⟨(bounds.swept moment entries).length, 0, 0⟩, bounds.swept moment entries) := by
  have again := bounds.swept_swept moment entries
  have removed := SweepReport.removed_of bounds moment (bounds.swept moment entries)
  rw [again, SweepReport.removed] at removed
  have expired : (SweepReport.of bounds moment (bounds.swept moment entries)).expired = 0 := by
    omega
  have evicted : (SweepReport.of bounds moment (bounds.swept moment entries)).evicted = 0 := by
    omega
  have report : SweepReport.of bounds moment (bounds.swept moment entries) =
      ⟨(bounds.swept moment entries).length, 0, 0⟩ := by
    rw [SweepReport.mk.injEq]
    exact ⟨rfl, expired, evicted⟩
  rw [sweep?_eq_some, again, report]

variable {bounds moment entries}

/-- What is stored later stays fresh longer. -/
theorem isFresh_of_storedAt_le {older newer : CachedEntry} (order : older.storedAt ≤ newer.storedAt)
    (fresh : bounds.isFresh moment older = true) : bounds.isFresh moment newer = true := by
  rw [isFresh_iff] at fresh ⊢
  intro seconds bounded
  exact Int.le_trans (Int.sub_le_sub_left order moment) (fresh seconds bounded)

/-- In the order of their times, the fresh entries come last. -/
theorem fresh_suffix (ordered : (entries.map (·.storedAt)).Pairwise (· ≤ ·)) :
    entries.filter (bounds.isFresh moment) <:+ entries := by
  induction entries with
  | nil => exact List.suffix_refl []
  | cons oldest rest ih =>
      rw [List.map_cons, List.pairwise_cons] at ordered
      by_cases fresh : bounds.isFresh moment oldest = true
      · have all : ∀ entry ∈ oldest :: rest, bounds.isFresh moment entry = true := by
          intro entry member
          cases member with
          | head => exact fresh
          | tail _ later =>
              exact isFresh_of_storedAt_le (ordered.1 _ (List.mem_map_of_mem later)) fresh
        rw [List.filter_eq_self.mpr all]
      · rw [List.filter_cons_of_neg fresh]
        exact (ih ordered.2).trans (List.suffix_cons oldest rest)

/-- A later sweep leaves the same, whether or not there was one before it. -/
theorem swept_swept_of_le {later : Moment} (order : moment ≤ later)
    (ordered : (entries.map (·.storedAt)).Pairwise (· ≤ ·)) :
    bounds.swept later (bounds.swept moment entries) = bounds.swept later entries := by
  have left : bounds.swept moment entries <:+ entries.filter (bounds.isFresh moment) :=
    bounds.newest_suffix _
  have inside : bounds.swept moment entries <:+ entries := left.trans (fresh_suffix ordered)
  have stays :
      entries.filter (bounds.isFresh later) <:+ entries.filter (bounds.isFresh moment) := by
    have fresh : entries.filter (bounds.isFresh later) <:+ entries := fresh_suffix ordered
    have both := fresh.filter (bounds.isFresh moment)
    rwa [List.filter_eq_self.mpr] at both
    intro entry member
    exact isFresh_antitone order (List.mem_filter.mp member).2
  -- What stays fresh and what the first sweep leaves both come last, so one of them ends the other.
  cases List.suffix_or_suffix_of_suffix stays left with
  | inl spared =>
      have more := spared.filter (bounds.isFresh later)
      rw [List.filter_filter] at more
      simp only [Bool.and_self] at more
      have same : (bounds.swept moment entries).filter (bounds.isFresh later) =
          entries.filter (bounds.isFresh later) :=
        (inside.filter _).eq_of_length_le more.length_le
      rw [swept, same, swept]
  | inr cut =>
      have fresh : (bounds.swept moment entries).filter (bounds.isFresh later) =
          bounds.swept moment entries := by
        apply List.filter_eq_self.mpr
        intro entry member
        exact (List.mem_filter.mp (cut.subset member)).2
      have room := bounds.length_newest (entries.filter (bounds.isFresh moment))
      rw [← swept] at room
      have first : (bounds.newest (bounds.swept moment entries)).length =
          (bounds.swept moment entries).length := by
        rw [length_newest, room_eq_of_le (Nat.le_of_eq room.symm) left.length_le, room]
      have second : (bounds.swept later entries).length = (bounds.swept moment entries).length := by
        rw [swept, length_newest, room_eq_of_le (room ▸ cut.length_le) stays.length_le, room]
      have ends : bounds.swept moment entries <:+ bounds.swept later entries :=
        List.suffix_of_suffix_length_le cut (bounds.newest_suffix _) (Nat.le_of_eq second.symm)
      rw [swept, fresh, (bounds.newest_suffix _).eq_of_length first]
      exact ends.eq_of_length second.symm

/-- A sweep of a partition leaves the last of the fresh entries, as many as there is room for, and
reports what it has dropped for age and for want of room.  No step of it asks for more than there
is.  To sweep again at the same moment drops nothing, and where entries stand in the order of
their times, a later sweep leaves what it would have left without the first one. -/
theorem sweep_leaves_newest (bounds : Expiration) (moment : Moment) (entries : List CachedEntry) :
    let report := SweepReport.of bounds moment entries
    let left := bounds.swept moment entries
    bounds.sweep? moment entries = some (report, left) ∧
      bounds.LeavesNewest moment entries report left ∧
      bounds.sweep? moment left = some (⟨left.length, 0, 0⟩, left) ∧
      ∀ later, moment ≤ later → (entries.map (·.storedAt)).Pairwise (· ≤ ·) →
        bounds.swept later left = bounds.swept later entries := by
  intro report left
  constructor
  · exact bounds.sweep?_eq_some moment entries
  constructor
  · exact bounds.leavesNewest_swept moment entries
  constructor
  · exact bounds.sweep?_swept moment entries
  · intro later order ordered
    exact swept_swept_of_le order ordered

end Expiration

/-! ## Four pages -/

/-- Bounds of two entries and a minute. -/
def Expiration.twoForAMinute : Expiration := ⟨some 2, some 60⟩

/-- Pages that were stored in this order. -/
def CachedEntry.fourPages : List CachedEntry :=
  [⟨"/a", .ok ByteArray.empty, 0⟩, ⟨"/b", .ok ByteArray.empty, 30000⟩,
    ⟨"/c", .ok ByteArray.empty, 50000⟩, ⟨"/d", .ok ByteArray.empty, 60000⟩]

/-- One page is too old at first, another one has no room, and later a third is too old. -/
theorem Expiration.sweep_leaves_newest_fourPages :
    let left := Expiration.twoForAMinute.swept 70000 CachedEntry.fourPages
    left.map (·.url) = ["/c", "/d"] ∧
      Expiration.twoForAMinute.sweep? 70000 CachedEntry.fourPages = some (⟨4, 1, 1⟩, left) ∧
      (70000 : Moment) ≤ 115000 ∧
      (CachedEntry.fourPages.map (·.storedAt)).Pairwise (· ≤ ·) ∧
      (Expiration.twoForAMinute.swept 115000 left).map (·.url) = ["/d"] ∧
      Expiration.twoForAMinute.swept 115000 left =
        Expiration.twoForAMinute.swept 115000 CachedEntry.fourPages := by
  have order : (70000 : Moment) ≤ 115000 := by decide
  have ordered : (CachedEntry.fourPages.map (·.storedAt)).Pairwise (· ≤ ·) := by decide
  obtain ⟨swept, -, -, later⟩ :=
    Expiration.twoForAMinute.sweep_leaves_newest 70000 CachedEntry.fourPages
  exact ⟨by decide, swept, order, ordered, by decide, later 115000 order ordered⟩

/-- Out of order, the entry that the first sweep leaves is too old at the second, which alone would
have left another. -/
example : let entries : List CachedEntry :=
      [⟨"/new", .ok ByteArray.empty, 50000⟩, ⟨"/old", .ok ByteArray.empty, 20000⟩]
    let bounds : Expiration := ⟨some 1, some 60⟩
    bounds.swept 100000 (bounds.swept 70000 entries) = [] ∧
      (bounds.swept 100000 entries).map (·.url) = ["/new"] := by decide

end CachePolicy
