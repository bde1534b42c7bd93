import CachePolicy.Rule.Strategy
import CachePolicy.Url.Basic

/-!
# Faults of rules

What can be wrong with a rule, with a set of rules, or with a request that rules
are tried on.
-/

namespace CachePolicy

/-- Why a rule, a set of rules or a request is refused. -/
inductive RuleError where
  | invalidPattern (pattern : String)
  | unknownStrategy (name : String)
  | invalidUrl (url : String) (reason : UrlError)
  /-- A matcher of the given kind has no text to compare with. -/
  | emptyMatcher (kind : String)
  | replayRequiresNetworkOnly (queue : String) (strategy : Strategy)
  | conflictingReplayQueue (queue : String) (firstMinutes secondMinutes : UInt64)
  deriving DecidableEq, Repr

/-- The wording of an error. -/
def RuleError.message : RuleError → String
  | .invalidPattern pattern => s!"invalid pattern '{pattern}'"
  | .unknownStrategy name => s!"unknown strategy '{name}'"
  | .invalidUrl url reason => s!"invalid request url '{url}': {reason.message}"
  | .emptyMatcher kind => s!"empty {kind} matcher"
  | .replayRequiresNetworkOnly queue strategy =>
    s!"replay queue '{queue}' attached to a {strategy.name} rule; only NetworkOnly rules replay"
  | .conflictingReplayQueue queue first second =>
    s!"replay queue '{queue}' retention differs: {first} vs {second} min"

end CachePolicy
