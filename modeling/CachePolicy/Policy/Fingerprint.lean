import CachePolicy.Config.Options
import CachePolicy.Digest.Sha256
import CachePolicy.Json.Canonical
import CachePolicy.Rule.Set

/-!
# Fingerprints

The fingerprint of a policy is the digest of its options and its rules in
canonical JSON, so it depends on what they say and not on how they are written.
-/

namespace CachePolicy.Fingerprint

/-- What a fingerprint is made of. -/
def subject (options : Options) (ruleSet : RuleSet) : Json :=
  .obj [("options", options.toJson), ("rule_set", ruleSet.toJson)]

/-- The canonical text that is digested. -/
def text (options : Options) (ruleSet : RuleSet) : String :=
  (subject options ruleSet).canonical

/-- The fingerprint of options and rules. -/
def of (options : Options) (ruleSet : RuleSet) : String :=
  Sha256.hex (text options ruleSet).toUTF8

end CachePolicy.Fingerprint
