import CachePolicy.Rule.Expiration
import CachePolicy.Worker.Storage

/-!
# Keeping a partition within its bounds

An entry is fresh while it is no older than the bound on age allows.  A sweep drops
the entries that are not fresh, and then the oldest ones beyond the bound on the
number of entries.
-/

namespace CachePolicy

/-- The longest span of time that is told apart, in seconds. -/
def longestSpan : Nat := 9223372036854775

/-- A number of seconds as a span of time in milliseconds. -/
def span (seconds : UInt64) : Int := (min seconds.toNat longestSpan * 1000 : Nat)

namespace Expiration

/-- Whether an entry is within the bound on age. -/
def isFresh (bounds : Expiration) (now : Moment) (entry : CachedEntry) : Bool :=
  match bounds.normalized.maxAgeSeconds with
  | some seconds => now - entry.storedAt ≤ span seconds
  | none => true

/-- The newest entries, as many as the bound on their number allows. -/
def newest (bounds : Expiration) (entries : List CachedEntry) : List CachedEntry :=
  match bounds.normalized.maxEntries with
  | some most => entries.drop (entries.length - most.toNat)
  | none => entries

/-- The entries that a sweep leaves. -/
def swept (bounds : Expiration) (now : Moment) (entries : List CachedEntry) : List CachedEntry :=
  bounds.newest (entries.filter (bounds.isFresh now))

@[simp] theorem swept_nil (bounds : Expiration) (now : Moment) : bounds.swept now [] = [] := by
  unfold swept newest
  split <;> simp

end Expiration

/-- What a sweep has done. -/
structure SweepReport where
  scanned : Nat
  /-- Entries dropped for their age. -/
  expired : Nat
  /-- Entries dropped for their number. -/
  evicted : Nat
  deriving DecidableEq, Repr

namespace SweepReport

/-- Nothing done. -/
def zero : SweepReport := ⟨0, 0, 0⟩

/-- The reports of two sweeps as one. -/
def add (a b : SweepReport) : SweepReport :=
  ⟨a.scanned + b.scanned, a.expired + b.expired, a.evicted + b.evicted⟩

/-- All entries dropped. -/
def removed (report : SweepReport) : Nat := report.expired + report.evicted

/-- What a sweep of entries does. -/
def of (bounds : Expiration) (now : Moment) (entries : List CachedEntry) : SweepReport :=
  let fresh := entries.filter (bounds.isFresh now)
  ⟨entries.length, entries.length - fresh.length,
    fresh.length - (bounds.newest fresh).length⟩

end SweepReport

namespace Storage

/-- Sweep a partition. -/
def sweep (storage : Storage) (partition : String) (bounds : Expiration) (now : Moment) :
    Storage :=
  storage.modify partition (bounds.swept now)

theorem entries_sweep (storage : Storage) (partition other : String) (bounds : Expiration)
    (now : Moment) :
    (storage.sweep partition bounds now).entries other =
      if other = partition then bounds.swept now (storage.entries partition)
      else storage.entries other :=
  entries_modify storage partition other (bounds.swept_nil now)

end Storage

end CachePolicy
