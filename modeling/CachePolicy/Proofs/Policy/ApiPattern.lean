import CachePolicy.Proofs.Pattern.Anchor
import CachePolicy.Proofs.Policy.Assembly

/-!
# Rules for API patterns

A pattern for an API is meant for the start of a path.  The rule that is planned for it has the
pattern with the sign `^` before it.  Of a pattern with alternatives this holds the first to the
start of the path, and the rule also takes requests for which another alternative matches further
on.
-/

namespace CachePolicy

namespace Pattern.Node

/-- Whether the rule that is planned for a pattern takes a path: the pattern has a match at the
start of the path, or an alternative other than the first has one anywhere. -/
def TakesPath (node : Node) (path : String) : Prop :=
  node.matchesAt path.toList.toArray 0 = true ∨
    ∃ alternative ∈ node.alternatives.tail, alternative.found path.toList.toArray = true

instance (node : Node) (path : String) : Decidable (node.TakesPath path) :=
  inferInstanceAs (Decidable (_ ∨ _))

end Pattern.Node

theorem Matcher.compile_pattern {source : String} {node : Pattern.Node}
    (read : Pattern.read source = some node) (target : PatternTarget) :
    (Matcher.pattern source target).compile = .ok ⟨.pattern source target, some node⟩ := by
  rw [compile, read]

namespace Options

variable {options : Options} {pathnames : List String} {ruleSet : RuleSet}

/-- The rules for the API patterns follow that for static assets. -/
theorem getElem?_of_plan (planned : options.plan pathnames = .ok ruleSet) {index : Nat}
    {pattern : String} (listed : options.apiCachePatterns[index]? = some pattern) :
    ruleSet.rules[index + 1]? = some (options.apiRule pattern) := by
  obtain ⟨⟨groups, ofOptions, rules⟩, -⟩ := plan_assembles planned
  have placed : groups.api[index]? = some (options.apiRule pattern) := by
    rw [ofOptions.api, List.getElem?_map, listed]
    rfl
  have inside := (List.getElem?_eq_some_iff.mp placed).1
  rw [← rules, RuleGroups.rules, List.cons_append, List.cons_append, List.cons_append,
    List.cons_append, List.getElem?_cons_succ, List.append_assoc, List.append_assoc,
    List.append_assoc, List.getElem?_append_left inside, placed]

/-- Which requests the rule takes that is planned for an API pattern.  It takes `GET` requests
only; and among them those for which the pattern has a match at the start of the path, but also
those for which an alternative of the pattern, other than the first, has a match anywhere in the
path. -/
theorem apiRule_takes_iff (planned : options.plan pathnames = .ok ruleSet) {index : Nat}
    {pattern : String} (listed : options.apiCachePatterns[index]? = some pattern)
    {node : Pattern.Node} (valid : Pattern.read pattern = some node) :
    ∃ compiled route, ruleSet.compile = .ok compiled ∧
      compiled.routes[index + 1]? = some route ∧ route.rule = options.apiRule pattern ∧
      ∀ request : Request, route.takes request = true ↔
        request.method = "GET" ∧ node.TakesPath request.pathname := by
  obtain ⟨compiled, compiles⟩ := RuleSet.exists_compile_iff.mpr
    (RuleSet.validate_eq_ok_iff.mp (validate_of_plan planned))
  obtain ⟨route, placed, rule, matcher⟩ :=
    RuleSet.exists_route compiles (getElem?_of_plan planned listed)
  refine ⟨compiled, route, compiles, placed, rule, ?_⟩
  intro request
  have source : s!"^{pattern}" = "^" ++ pattern := rfl
  have read := Matcher.compile_pattern (Pattern.read_anchored valid) .path
  rw [apiRule, source, read] at matcher
  have same := (Except.ok.inj matcher).symm
  rw [CompiledRule.takes, rule, same, CompiledMatcher.accepts, Bool.and_eq_true, beq_iff_eq]
  dsimp only
  rw [Pattern.Node.found_anchored_iff, Pattern.Node.TakesPath, eq_comm]
  rfl

end Options

/-! ## A pattern with two alternatives -/

/-- Options with one pattern for two ways to an API. -/
def Options.twoWays : Options where
  preset := .disabled
  apiCachePatterns := ["/api/|/graphql"]

/-- The rule set of these options. -/
def RuleSet.twoWays : RuleSet where
  lifecycle := ⟨true, true, true⟩
  includeBuildManifest := true
  precache := .empty
  rules := [Options.twoWays.staticAssetsRule, Options.twoWays.apiRule "/api/|/graphql"]

/-- A request for a path of the site. -/
def Request.onSite (path : String) : Request :=
  ⟨⟨"http", some (.ofHost site), path, none, none⟩, "GET", .none⟩

/-- Either way is taken where the path starts with it, and the first one only there. -/
theorem apiRule_takes_iff_twoWays :
    Options.twoWays.plan [] = .ok .twoWays ∧
      ∃ compiled route, RuleSet.twoWays.compile = .ok compiled ∧
        compiled.routes[1]? = some route ∧ route.takes (.onSite "/api/pages") = true ∧
        route.takes (.onSite "/graphql") = true ∧ route.takes (.onSite "/docs/api/") = false := by
  have planned : Options.twoWays.plan [] = .ok .twoWays := by decide +kernel
  have listed : Options.twoWays.apiCachePatterns[0]? = some "/api/|/graphql" := rfl
  have readable : (Pattern.read "/api/|/graphql").isSome = true := by decide +kernel
  obtain ⟨node, valid⟩ := Option.isSome_iff_exists.mp readable
  obtain ⟨compiled, route, compiles, placed, -, takes⟩ :=
    Options.apiRule_takes_iff planned listed valid
  have taken (path : String) : route.takes (.onSite path) = decide (node.TakesPath path) := by
    rw [Bool.eq_iff_iff, takes, decide_eq_true_iff]
    exact and_iff_right rfl
  have decided : (Pattern.read "/api/|/graphql").map
      (fun node => ["/api/pages", "/graphql", "/docs/api/"].map fun path =>
        decide (node.TakesPath path)) = some [true, true, false] := by decide +kernel
  rw [valid] at decided
  simp only [Option.map_some, List.map_cons, List.map_nil, ← taken, Option.some.injEq,
    List.cons.injEq] at decided
  exact ⟨planned, compiled, route, compiles, placed, decided.1, decided.2.1,
    decided.2.2.1⟩

/-- A path is taken that holds the second way further on, though the pattern has no match at its
start. -/
theorem twoWays_takes_docs_graphql :
    Options.twoWays.plan [] = .ok .twoWays ∧
      (Pattern.read "/api/|/graphql").map
        (fun node => node.matchesAt (Request.onSite "/docs/graphql").pathname.toList.toArray 0) =
          some false ∧
      RuleSet.twoWays.compile.toOption.map
        (fun compiled => compiled.firstMatch (.onSite "/docs/graphql")) =
          some (some (1, Options.twoWays.apiRule "/api/|/graphql")) := by
  decide +kernel

end CachePolicy
