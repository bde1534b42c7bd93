import CachePolicy.Policy.Conflict
import CachePolicy.Policy.Fingerprint
import CachePolicy.Policy.Plan
import CachePolicy.Policy.Program

/-!
# Compiling a policy

Compiling plans the rules, takes their fingerprint, and writes the program.
Conflicts between caches are reported and do not stop it.
-/

namespace CachePolicy

/-- All that is made of options. -/
structure Compilation where
  ruleSet : RuleSet
  program : String
  fingerprint : String
  conflicts : List CacheNameConflict

/-- Compile options for the pages of a site. -/
def Options.compile (options : Options) (pathnames : List String) :
    Except RuleError Compilation := do
  let ruleSet ← options.plan pathnames
  let fingerprint := Fingerprint.of options ruleSet
  return {
    ruleSet
    program := (Program.ofRuleSet options ruleSet fingerprint).text
    fingerprint
    conflicts := ruleSet.conflicts }

end CachePolicy
