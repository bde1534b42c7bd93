import CachePolicy.Json.Decode

/-!
# Bounds of a cache

A cache may be bounded in the number of its entries and in their age.  A bound of
zero bounds nothing, so `normalized` leaves it out.
-/

namespace CachePolicy

/-- The bounds of a cache. -/
structure Expiration where
  maxEntries : Option UInt32
  maxAgeSeconds : Option UInt64
  deriving DecidableEq, Repr, Inhabited

namespace Expiration

/-- The bounds that bound something. -/
def normalized (bounds : Expiration) : Expiration where
  maxEntries := bounds.maxEntries.filter (0 < ·)
  maxAgeSeconds := bounds.maxAgeSeconds.filter (0 < ·)

/-- Whether nothing is bounded. -/
def isUnbounded (bounds : Expiration) : Bool :=
  bounds.normalized.maxEntries.isNone && bounds.normalized.maxAgeSeconds.isNone

@[simp] theorem normalized_normalized (bounds : Expiration) :
    bounds.normalized.normalized = bounds.normalized := by
  simp [normalized, Option.filter_filter]

@[simp] theorem isUnbounded_normalized (bounds : Expiration) :
    bounds.normalized.isUnbounded = bounds.isUnbounded := by
  simp [isUnbounded]

/-- Bounds as JSON. -/
def toJson (bounds : Expiration) : Json :=
  .obj (Json.present
    [("maxEntries", bounds.maxEntries.map fun n => Json.nat n.toNat),
      ("maxAgeSeconds", bounds.maxAgeSeconds.map fun n => Json.nat n.toNat)])

/-- How bounds are written. -/
def shape : Shape :=
  ⟨"struct Expiration",
    [⟨"maxEntries", Decode.check (Decode.optional Decode.uint32)⟩,
      ⟨"maxAgeSeconds", Decode.check (Decode.optional Decode.uint64)⟩], false⟩

/-- The bounds of given fields. -/
def build (row : Row) : Except DecodeError Expiration := do
  let maxEntries ← row.withDefault "maxEntries" (Decode.optional Decode.uint32) none
  let maxAgeSeconds ← row.withDefault "maxAgeSeconds" (Decode.optional Decode.uint64) none
  return { maxEntries, maxAgeSeconds }

/-- Read bounds. -/
def decode : Decoder Expiration := shape.read build

end Expiration

end CachePolicy
