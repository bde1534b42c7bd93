import CachePolicy.Rule.Expiration
import CachePolicy.Rule.Matcher

/-!
# Caching rules

A rule answers the requests that its matcher takes by its strategy.  It may name a
cache, bound it, bound the time that the network has, and name a queue that keeps
requests which the network did not take.

What a rule is given counts only as far as its strategy makes use of it: a rule
that leaves the caches alone has no cache and no bounds, whatever it names.
-/

namespace CachePolicy

/-- A queue of requests that are sent again later. -/
structure ReplayQueue where
  name : String
  /-- How many minutes a request is kept. -/
  maxRetentionMinutes : UInt64
  deriving DecidableEq, Repr, Inhabited

namespace ReplayQueue

/-- How many seconds a request is kept, as far as 64 bits can say. -/
def retentionSeconds (queue : ReplayQueue) : UInt64 :=
  UInt64.ofNat (min (queue.maxRetentionMinutes.toNat * 60) (UInt64.size - 1))

/-- A queue as JSON. -/
def toJson (queue : ReplayQueue) : Json :=
  .obj [("name", .str queue.name),
    ("maxRetentionMinutes", Json.nat queue.maxRetentionMinutes.toNat)]

/-- How a queue is written. -/
def shape : Shape :=
  ⟨"struct ReplayQueue",
    [⟨"name", Decode.check Decode.string⟩,
      ⟨"maxRetentionMinutes", Decode.check Decode.uint64⟩], false⟩

/-- The queue of given fields. -/
def build (row : Row) : Except DecodeError ReplayQueue := do
  let name ← row.required "name" Decode.string
  let maxRetentionMinutes ← row.required "maxRetentionMinutes" Decode.uint64
  return { name, maxRetentionMinutes }

/-- Read a queue. -/
def decode : Decoder ReplayQueue := shape.read build

end ReplayQueue

/-- Which part of the options a rule comes from. -/
inductive RuleOrigin where
  | staticAssets
  | apiCache
  | cachingStrategy
  | preset
  | runtimeCaching
  | backgroundSync
  deriving DecidableEq, Repr, Inhabited

namespace RuleOrigin

/-- All origins, in the order in which messages list them. -/
def all : List RuleOrigin :=
  [staticAssets, apiCache, cachingStrategy, preset, runtimeCaching, backgroundSync]

/-- The name of an origin. -/
def name : RuleOrigin → String
  | staticAssets => "static_assets"
  | apiCache => "api_cache"
  | cachingStrategy => "caching_strategy"
  | preset => "preset"
  | runtimeCaching => "runtime_caching"
  | backgroundSync => "background_sync"

/-- Origins by name. -/
def byName : List (String × RuleOrigin) := all.map fun origin => (origin.name, origin)

/-- Read an origin. -/
def decode : Decoder RuleOrigin := Decode.choice byName

end RuleOrigin

/-- A rule for requests. -/
structure CachingRule where
  origin : RuleOrigin
  matcher : Matcher
  strategy : Strategy
  cacheName : Option String := none
  expiration : Option Expiration := none
  networkTimeoutSeconds : Option UInt64 := none
  replayQueue : Option ReplayQueue := none
  deriving DecidableEq, Repr

namespace CachingRule

/-- The cache that the rule reads or writes. -/
def partition (rule : CachingRule) : Option String :=
  if rule.strategy.usesCache then rule.cacheName else none

/-- The bounds that the rule puts on its cache, if they bound anything. -/
def effectiveExpiration (rule : CachingRule) : Option Expiration :=
  match rule.expiration with
  | some bounds =>
    if rule.strategy.usesCache && !bounds.isUnbounded then some bounds.normalized else none
  | none => none

/-- The method of the requests that the rule sees. -/
def routeMethod (rule : CachingRule) : String := rule.matcher.routeMethod

/-- Check that the rule can be used, and compile its matcher. -/
def compile (rule : CachingRule) : Except RuleError CompiledMatcher := do
  let compiled ← rule.matcher.compile
  match rule.replayQueue with
  | some queue =>
    if rule.strategy = .networkOnly then .ok compiled
    else .error (.replayRequiresNetworkOnly queue.name rule.strategy)
  | none => .ok compiled

/-- Check that the rule can be used. -/
def validate (rule : CachingRule) : Except RuleError Unit := do
  let _ ← rule.compile
  .ok ()

/-- A rule as JSON. -/
def toJson (rule : CachingRule) : Json :=
  .obj (("origin", Json.str rule.origin.name) :: ("matcher", rule.matcher.toJson) ::
    ("strategy", rule.strategy.toJson) :: Json.present
      [("cacheName", rule.cacheName.map .str),
        ("expiration", rule.expiration.map (·.toJson)),
        ("networkTimeoutSeconds", rule.networkTimeoutSeconds.map fun n => Json.nat n.toNat),
        ("replayQueue", rule.replayQueue.map (·.toJson))])

/-- How a rule is written. -/
def shape : Shape :=
  ⟨"struct CachingRule",
    [⟨"origin", Decode.check RuleOrigin.decode⟩,
      ⟨"matcher", Decode.check Matcher.decode⟩,
      ⟨"strategy", Decode.check Strategy.decode⟩,
      ⟨"cacheName", Decode.check (Decode.optional Decode.string)⟩,
      ⟨"expiration", Decode.check (Decode.optional Expiration.decode)⟩,
      ⟨"networkTimeoutSeconds", Decode.check (Decode.optional Decode.uint64)⟩,
      ⟨"replayQueue", Decode.check (Decode.optional ReplayQueue.decode)⟩], false⟩

/-- The rule of given fields. -/
def build (row : Row) : Except DecodeError CachingRule := do
  let origin ← row.required "origin" RuleOrigin.decode
  let matcher ← row.required "matcher" Matcher.decode
  let strategy ← row.required "strategy" Strategy.decode
  let cacheName ← row.withDefault "cacheName" (Decode.optional Decode.string) none
  let expiration ← row.withDefault "expiration" (Decode.optional Expiration.decode) none
  let networkTimeoutSeconds ←
    row.withDefault "networkTimeoutSeconds" (Decode.optional Decode.uint64) none
  let replayQueue ← row.withDefault "replayQueue" (Decode.optional ReplayQueue.decode) none
  return { origin, matcher, strategy, cacheName, expiration, networkTimeoutSeconds, replayQueue }

/-- Read a rule. -/
def decode : Decoder CachingRule := shape.read build

end CachingRule

end CachePolicy
