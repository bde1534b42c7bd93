import CachePolicy.Rule.Basic
import CachePolicy.Rule.Precache

/-!
# Sets of rules

A rule set is the whole policy of a worker: how it takes over, what it stores
ahead, and its rules in order.  The first rule that takes a request answers it.

Two rules may name one queue, which the worker makes once; they have to agree on
how long it keeps a request.
-/

namespace CachePolicy

/-- How a worker takes over from the one before it. -/
structure Lifecycle where
  skipWaiting : Bool
  clientsClaim : Bool
  cleanupOutdatedCaches : Bool
  deriving DecidableEq, Repr, Inhabited

namespace Lifecycle

/-- A life cycle as JSON. -/
def toJson (lifecycle : Lifecycle) : Json :=
  .obj [("skipWaiting", .bool lifecycle.skipWaiting),
    ("clientsClaim", .bool lifecycle.clientsClaim),
    ("cleanupOutdatedCaches", .bool lifecycle.cleanupOutdatedCaches)]

/-- How a life cycle is written. -/
def shape : Shape :=
  ⟨"struct Lifecycle",
    [⟨"skipWaiting", Decode.check Decode.bool⟩, ⟨"clientsClaim", Decode.check Decode.bool⟩,
      ⟨"cleanupOutdatedCaches", Decode.check Decode.bool⟩], false⟩

/-- The life cycle of given fields. -/
def build (row : Row) : Except DecodeError Lifecycle := do
  let skipWaiting ← row.required "skipWaiting" Decode.bool
  let clientsClaim ← row.required "clientsClaim" Decode.bool
  let cleanupOutdatedCaches ← row.required "cleanupOutdatedCaches" Decode.bool
  return { skipWaiting, clientsClaim, cleanupOutdatedCaches }

/-- Read a life cycle. -/
def decode : Decoder Lifecycle := shape.read build

end Lifecycle

/-- The policy of a worker. -/
structure RuleSet where
  lifecycle : Lifecycle
  /-- Whether the files that the build lists are stored ahead, before
  `precache`. -/
  includeBuildManifest : Bool
  precache : PrecacheManifest
  rules : List CachingRule
  deriving DecidableEq, Repr

namespace RuleSet

/-- The caches that rules name, in the order in which they first do. -/
def declaredCacheNames (ruleSet : RuleSet) : List String :=
  (ruleSet.rules.filterMap (·.partition)).foldl
    (fun names name => if names.contains name then names else names ++ [name]) []

/-- The queues that rules name, in the order of the rules. -/
def replayQueues (ruleSet : RuleSet) : List ReplayQueue :=
  ruleSet.rules.filterMap (·.replayQueue)

/-- Check queues against those before them. -/
def checkQueuesAfter (earlier : List ReplayQueue) : List ReplayQueue → Except RuleError Unit
  | [] => .ok ()
  | queue :: rest =>
    match earlier.find? fun other =>
      other.name == queue.name && other.maxRetentionMinutes != queue.maxRetentionMinutes with
    | some other =>
      .error (.conflictingReplayQueue queue.name other.maxRetentionMinutes
        queue.maxRetentionMinutes)
    | none => checkQueuesAfter (earlier ++ [queue]) rest

/-- Check that queues of one name agree. -/
def checkQueues (ruleSet : RuleSet) : Except RuleError Unit :=
  checkQueuesAfter [] ruleSet.replayQueues

/-- Check every rule. -/
def validateRules : List CachingRule → Except RuleError Unit
  | [] => .ok ()
  | rule :: rest => do
    rule.validate
    validateRules rest

/-- Check every rule, and then that the queues agree. -/
def validate (ruleSet : RuleSet) : Except RuleError Unit := do
  validateRules ruleSet.rules
  ruleSet.checkQueues

/-- A rule set as JSON. -/
def toJson (ruleSet : RuleSet) : Json :=
  .obj [("lifecycle", ruleSet.lifecycle.toJson),
    ("includeBuildManifest", .bool ruleSet.includeBuildManifest),
    ("precache", ruleSet.precache.toJson),
    ("rules", .arr (ruleSet.rules.map (·.toJson)))]

/-- How a rule set is written. -/
def shape : Shape :=
  ⟨"struct RuleSet",
    [⟨"lifecycle", Decode.check Lifecycle.decode⟩,
      ⟨"includeBuildManifest", Decode.check Decode.bool⟩,
      ⟨"precache", Decode.check PrecacheManifest.decode⟩,
      ⟨"rules", Decode.check (Decode.list CachingRule.decode)⟩], false⟩

/-- The rule set of given fields. -/
def build (row : Row) : Except DecodeError RuleSet := do
  let lifecycle ← row.required "lifecycle" Lifecycle.decode
  let includeBuildManifest ← row.required "includeBuildManifest" Decode.bool
  let precache ← row.required "precache" PrecacheManifest.decode
  let rules ← row.required "rules" (Decode.list CachingRule.decode)
  return { lifecycle, includeBuildManifest, precache, rules }

/-- Read a rule set. -/
def decode : Decoder RuleSet := shape.read build

end RuleSet

/-- A rule that can be used. -/
structure CompiledRule where
  rule : CachingRule
  matcher : CompiledMatcher

/-- Whether a rule takes a request. -/
def CompiledRule.takes (compiled : CompiledRule) (request : Request) : Bool :=
  compiled.rule.routeMethod == request.method && compiled.matcher.accepts request

/-- A rule set that can be used. -/
structure CompiledRuleSet where
  routes : List CompiledRule

namespace CompiledRuleSet

/-- The rules of the set. -/
def rules (compiled : CompiledRuleSet) : List CachingRule := compiled.routes.map (·.rule)

/-- The first rule that takes a request, with its place in the set. -/
def firstMatch (compiled : CompiledRuleSet) (request : Request) : Option (Nat × CachingRule) := do
  let index ← compiled.routes.findIdx? (·.takes request)
  let route ← compiled.routes[index]?
  return (index, route.rule)

end CompiledRuleSet

namespace RuleSet

/-- Compile every rule. -/
def compileRules : List CachingRule → Except RuleError (List CompiledRule)
  | [] => .ok []
  | rule :: rest => do
    let matcher ← rule.compile
    let more ← compileRules rest
    .ok (⟨rule, matcher⟩ :: more)

/-- Check that the queues agree, and then compile every rule. -/
def compile (ruleSet : RuleSet) : Except RuleError CompiledRuleSet := do
  ruleSet.checkQueues
  let routes ← compileRules ruleSet.rules
  .ok ⟨routes⟩

end RuleSet

end CachePolicy
