import CachePolicy.Rule.Set

/-!
# Caches that rules bound differently

Rules may share a cache.  When they put different bounds on it, which bounds hold
depends on the request, so such rules are reported.  Each is reported once,
against the first rule of its cache.
-/

namespace CachePolicy

/-- Two rules that share a cache and bound it differently. -/
structure CacheNameConflict where
  cacheName : String
  firstRule : Nat
  secondRule : Nat
  deriving DecidableEq, Repr

namespace CacheNameConflict

/-- A conflict in words. -/
def message (conflict : CacheNameConflict) : String :=
  s!"cache '{conflict.cacheName}' is shared by rules {conflict.firstRule} and " ++
    s!"{conflict.secondRule} with different expiration"

/-- A cache as it is used first: its name, the rule, and the bounds. -/
structure FirstUse where
  cacheName : String
  rule : Nat
  expiration : Option Expiration

/-- The conflicts of rules from an index on with the first uses before them. -/
def find (seen : List FirstUse) (index : Nat) : List CachingRule → List CacheNameConflict
  | [] => []
  | rule :: rest =>
    match rule.partition with
    | none => find seen (index + 1) rest
    | some name =>
      match seen.find? (·.cacheName == name) with
      | none => find (seen ++ [⟨name, index, rule.effectiveExpiration⟩]) (index + 1) rest
      | some first =>
        if first.expiration = rule.effectiveExpiration then find seen (index + 1) rest
        else ⟨name, first.rule, index⟩ :: find seen (index + 1) rest

end CacheNameConflict

/-- The rules of a set that share a cache and bound it differently, in the order
of the later rules. -/
def RuleSet.conflicts (ruleSet : RuleSet) : List CacheNameConflict :=
  CacheNameConflict.find [] 0 ruleSet.rules

end CachePolicy
