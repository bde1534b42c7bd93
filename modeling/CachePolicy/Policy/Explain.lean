import CachePolicy.Json.Printer
import CachePolicy.Rule.Set

/-!
# Explaining a decision

What the worker of a policy does with one request: it answers from what was stored
ahead, by the first rule that takes the request, or not at all.

The explanation is data, with one text for programs and one for people.
-/

namespace CachePolicy

/-- What happens to a request. -/
inductive Decision where
  | precache
  | rule (index : Nat) (rule : CachingRule)
  | passthrough
  deriving DecidableEq, Repr

namespace Decision

/-- The name of a decision. -/
def name : Decision → String
  | precache => "precache"
  | rule .. => "rule"
  | passthrough => "passthrough"

end Decision

/-- The explanation of a decision. -/
structure Explanation where
  request : Request
  decision : Decision
  /-- How many rules were tried. -/
  rulesChecked : Nat

namespace Explanation

/-- A number as JSON, or null. -/
def numberOrNull : Option UInt64 → Json
  | some n => Json.nat n.toNat
  | none => .null

/-- A value as JSON, or null. -/
def orNull (toJson : α → Json) : Option α → Json
  | some a => toJson a
  | none => .null

/-- The rule of a decision as JSON. -/
def ruleJson (index : Nat) (rule : CachingRule) : Json :=
  .obj [("index", Json.nat index), ("origin", .str rule.origin.name),
    ("matcher", .str rule.matcher.describe), ("strategy", rule.strategy.toJson),
    ("cache_name", orNull .str rule.partition),
    ("expiration", orNull Expiration.toJson rule.effectiveExpiration),
    ("network_timeout_seconds", numberOrNull rule.networkTimeoutSeconds),
    ("replay_queue", orNull ReplayQueue.toJson rule.replayQueue)]

/-- Bounds in words. -/
def describeExpiration (bounds : Expiration) : String :=
  (match bounds.maxEntries with
    | some n => s!"{n} entries"
    | none => "unbounded entries") ++ ", " ++
    match bounds.maxAgeSeconds with
    | some n => s!"{n}s"
    | none => "unbounded age"

/-- The lines about a rule. -/
def ruleLines (index : Nat) (rule : CachingRule) : List String :=
  [s!"Decision: RULE {index} ({rule.origin.name})", "", s!"Matcher: {rule.matcher.describe}",
      s!"Strategy: {rule.strategy.name}"] ++
    (rule.partition.toList.map fun name => s!"Cache: {name}") ++
    (rule.effectiveExpiration.toList.map fun bounds =>
      s!"Expiration: {describeExpiration bounds}") ++
    (rule.networkTimeoutSeconds.toList.map fun seconds => s!"Network timeout: {seconds}s") ++
    (rule.replayQueue.toList.map fun queue =>
      s!"Replay queue: {queue.name} (retained {queue.maxRetentionMinutes} min)")

/-- The lines about a decision. -/
def decisionLines (explanation : Explanation) : List String :=
  match explanation.decision with
  | .precache => ["Decision: PRECACHE", "Served from the precache, before any runtime rule."]
  | .rule index rule => ruleLines index rule
  | .passthrough =>
    ["Decision: PASSTHROUGH",
      s!"No rule matched after checking {explanation.rulesChecked} rules; " ++
        "the browser fetches normally."]

/-- The explanation for people. -/
def human (explanation : Explanation) : String :=
  let request := explanation.request
  "\n".intercalate
    ([s!"Request: {request.method} {request.href}"] ++
      (if request.destination = .none then []
        else [s!"Destination: {request.destination.name}"]) ++
      [""] ++ explanation.decisionLines)

/-- The explanation for programs. -/
def toJson (explanation : Explanation) : Json :=
  let request := explanation.request
  .obj [("url", .str request.href), ("method", .str request.method),
    ("destination", request.destination.toJson),
    ("decision", .str explanation.decision.name),
    ("matched_rule",
      match explanation.decision with
      | .rule index rule => ruleJson index rule
      | _ => .null),
    ("rules_checked", Json.nat explanation.rulesChecked),
    ("explanation", .str explanation.human)]

end Explanation

namespace RuleSet

/-- Whether a request is for a URL that is stored ahead. -/
def precaches (ruleSet : RuleSet) (request : Request) : Bool :=
  request.method == "GET" && ruleSet.precache.entries.any fun entry =>
    match Request.get entry.url with
    | .ok stored => stored.href == request.href
    | .error _ => false

/-- Explain what happens to a request. -/
def explain (ruleSet : RuleSet) (url method : String) (destination : Destination) :
    Except RuleError Explanation := do
  let request ← Request.read url method destination
  let compiled ← ruleSet.compile
  if ruleSet.precaches request then return ⟨request, .precache, 0⟩
  else
    match compiled.firstMatch request with
    | some (index, rule) => return ⟨request, .rule index rule, index + 1⟩
    | none => return ⟨request, .passthrough, compiled.routes.length⟩

end RuleSet

end CachePolicy
