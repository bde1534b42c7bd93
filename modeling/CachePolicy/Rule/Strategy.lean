import CachePolicy.Json.Decode

/-!
# Strategies

A strategy says how a matched request is answered from a cache and the network.
Only `networkOnly` leaves the caches alone, and only three strategies store what
the network answers.
-/

namespace CachePolicy

/-- How a matched request is answered. -/
inductive Strategy where
  | cacheFirst
  | networkFirst
  | staleWhileRevalidate
  | networkOnly
  | cacheOnly
  deriving DecidableEq, Repr, Inhabited

namespace Strategy

/-- All strategies, in the order in which messages list them. -/
def all : List Strategy :=
  [cacheFirst, networkFirst, staleWhileRevalidate, networkOnly, cacheOnly]

/-- The name of the class that carries out the strategy in a worker. -/
def name : Strategy → String
  | cacheFirst => "CacheFirst"
  | networkFirst => "NetworkFirst"
  | staleWhileRevalidate => "StaleWhileRevalidate"
  | networkOnly => "NetworkOnly"
  | cacheOnly => "CacheOnly"

/-- Strategies by name. -/
def byName : List (String × Strategy) := all.map fun strategy => (strategy.name, strategy)

/-- The strategy of a name. -/
def named? (name : String) : Option Strategy := byName.lookup name

@[simp] theorem named?_name (strategy : Strategy) : named? strategy.name = some strategy := by
  cases strategy <;> decide

/-- Whether the strategy reads or writes a cache. -/
def usesCache : Strategy → Bool
  | networkOnly => false
  | _ => true

/-- Whether the strategy stores what the network answers. -/
def writesCache : Strategy → Bool
  | cacheFirst | networkFirst | staleWhileRevalidate => true
  | networkOnly | cacheOnly => false

theorem usesCache_of_writesCache {strategy : Strategy} (h : strategy.writesCache = true) :
    strategy.usesCache = true := by
  cases strategy <;> simp_all [writesCache, usesCache]

/-- A strategy as JSON. -/
def toJson (strategy : Strategy) : Json := .str strategy.name

/-- Read a strategy. -/
def decode : Decoder Strategy := Decode.choice byName

end Strategy

end CachePolicy
