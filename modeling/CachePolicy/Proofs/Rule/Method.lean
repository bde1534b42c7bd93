import CachePolicy.Policy.Plan
import CachePolicy.Proofs.Rule.Set
import CachePolicy.Proofs.Text.Case

/-!
# Rules for methods

A request shows its method to the rules in upper case.  A rule for a method compares it with the
method as the rule has it, and a rule that is read from options or from JSON has it as it was
written there.  So a rule for a method of ASCII takes the requests with this method, in whatever
case they give it, if it was written in upper case itself; otherwise it takes no request at all.
-/

namespace CachePolicy

/-- A matcher that is made for a method has it in upper case. -/
theorem Matcher.exists_ofMethod (method : String) :
    ∃ name, Matcher.ofMethod method = .method name ∧ Text.IsUpper name :=
  ⟨Text.upper method, rfl, Text.isUpper_upper method⟩

theorem Request.method_of_read {url method : String} {destination : Destination}
    {request : Request} (read : Request.read url method destination = .ok request) :
    request.method = Text.upper method := by
  rw [Request.read] at read
  split at read
  · cases read
    rfl
  · cases read

namespace RuleSet

variable {ruleSet : RuleSet} {compiled : CompiledRuleSet} {index : Nat} {rule : CachingRule}
  {name : String}

/-- A rule for a method takes the requests that show this very method. -/
theorem exists_route_of_method (compiles : ruleSet.compile = .ok compiled)
    (placed : ruleSet.rules[index]? = some rule) (matcher : rule.matcher = .method name) :
    ∃ route, compiled.routes[index]? = some route ∧ route.rule = rule ∧
      ∀ request : Request, route.takes request = true ↔ request.method = name := by
  obtain ⟨route, found, same, compile⟩ := exists_route compiles placed
  refine ⟨route, found, same, ?_⟩
  intro request
  have given : route.matcher.matcher = .method name :=
    (Matcher.matcher_of_compile compile).trans matcher
  rw [CompiledRule.takes, same, CachingRule.routeMethod, matcher, Matcher.routeMethod,
    CompiledMatcher.accepts, given]
  dsimp only
  rw [Bool.and_eq_true, beq_iff_eq, beq_iff_eq]
  exact ⟨And.right, fun shown => ⟨shown.symm, shown⟩⟩

/-- Which requests a rule takes that is for a method of ASCII, in whatever case they give it.  If
the rule has the method in upper case, it takes them all, and the first rule to do so is this one or
one before it.  If it has a small letter, it takes no request that can be read, and it is never the
first to take one. -/
theorem method_rule_takes_iff (compiles : ruleSet.compile = .ok compiled)
    (placed : ruleSet.rules[index]? = some rule) (matcher : rule.matcher = .method name)
    (ascii : Text.IsAscii name) :
    ∃ route, compiled.routes[index]? = some route ∧ route.rule = rule ∧
      (Text.IsUpper name → ∀ url method destination request,
        Request.read url method destination = .ok request → Text.SameButCase method name →
          route.takes request = true ∧
            ∃ first ≤ index, ∃ taker, compiled.firstMatch request = some (first, taker)) ∧
      (¬ Text.IsUpper name → ∀ url method destination request,
        Request.read url method destination = .ok request →
          route.takes request = false ∧
            ∀ taker, compiled.firstMatch request ≠ some (index, taker)) := by
  obtain ⟨route, found, same, takes⟩ := exists_route_of_method compiles placed matcher
  refine ⟨route, found, same, ?_, ?_⟩
  · intro capital url method destination request read alike
    have shown : request.method = name := by
      rw [Request.method_of_read read]
      exact Text.upper_eq_of_sameButCase ascii capital alike
    have taken := (takes request).mpr shown
    exact ⟨taken, CompiledRuleSet.exists_firstMatch_le found taken⟩
  · intro small url method destination request read
    have refused : route.takes request = false := by
      rw [← Bool.not_eq_true, takes, Request.method_of_read read]
      rintro rfl
      exact small (Text.isUpper_upper method)
    refine ⟨refused, ?_⟩
    intro taker matched
    obtain ⟨first, here, -, taken, -⟩ := CompiledRuleSet.firstMatch_eq_some_iff.mp matched
    rw [found] at here
    cases here
    rw [refused] at taken
    cases taken

end RuleSet

/-! ## Posted forms -/

/-- Options that queue forms, for a method in small letters. -/
def Options.smallPost : Options where
  preset := .disabled
  runtimeCaching := [⟨.matching (.method "post"), "NetworkOnly",
    { backgroundSync := some ⟨"forms", 60⟩ }⟩]

/-- A rule that queues the requests of a method. -/
def CachingRule.queued (method : String) : CachingRule where
  origin := .runtimeCaching
  matcher := .method method
  strategy := .networkOnly
  replayQueue := some ⟨"forms", 60⟩

/-- The rule set of these options. -/
def RuleSet.smallPost : RuleSet where
  lifecycle := ⟨true, true, true⟩
  includeBuildManifest := true
  precache := .empty
  rules := [Options.smallPost.staticAssetsRule, .queued "post"]

/-- A rule set with a rule in small letters before one in capitals. -/
def RuleSet.bothPosts : RuleSet :=
  { RuleSet.smallPost with rules := [.queued "post", .queued "POST"] }

/-- A form that is posted. -/
def Request.form : Request :=
  ⟨⟨"http", some (.ofHost site), "/form", none, none⟩, "POST", .none⟩

/-- Of the two rules only the one in capitals takes the form. -/
theorem method_rule_takes_iff_bothPosts :
    Request.read "/form" "post" .none = .ok .form ∧
      ∃ compiled small capital, RuleSet.bothPosts.compile = .ok compiled ∧
        compiled.routes[0]? = some small ∧ compiled.routes[1]? = some capital ∧
        small.takes .form = false ∧ capital.takes .form = true := by
  have read : Request.read "/form" "post" .none = .ok .form := by decide +kernel
  have compiles : RuleSet.bothPosts.compile = .ok
      ⟨RuleSet.bothPosts.rules.map fun rule => ⟨rule, ⟨rule.matcher, none⟩⟩⟩ := rfl
  have first : RuleSet.bothPosts.rules[0]? = some (.queued "post") := rfl
  have second : RuleSet.bothPosts.rules[1]? = some (.queued "POST") := rfl
  obtain ⟨small, inFirst, -, -, refuses⟩ :=
    RuleSet.method_rule_takes_iff compiles first rfl (by decide +kernel)
  obtain ⟨capital, inSecond, -, takes, -⟩ :=
    RuleSet.method_rule_takes_iff compiles second rfl (by decide +kernel)
  have refused := (refuses (by decide +kernel) "/form" "post" .none .form read).1
  have taken := (takes (by decide +kernel) "/form" "post" .none .form read (by decide +kernel)).1
  exact ⟨read, _, small, capital, compiles, inFirst, inSecond, refused, taken⟩

/-- The options declare a queue for forms, but no rule takes a form that is posted. -/
theorem smallPost_takes_no_form :
    Options.smallPost.plan [] = .ok .smallPost ∧
      (∃ compiled, RuleSet.smallPost.compile = .ok compiled ∧
        compiled.firstMatch .form = none) ∧
      RuleSet.smallPost.rules[1]? = some (.queued "post") ∧
      RuleSet.smallPost.replayQueues = [⟨"forms", 60⟩] ∧
      Request.read "/form" "post" .none = .ok .form := by
  exact ⟨by decide +kernel, ⟨_, rfl, by decide +kernel⟩, rfl, rfl, by decide +kernel⟩

end CachePolicy
