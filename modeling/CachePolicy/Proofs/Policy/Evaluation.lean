import CachePolicy.Proofs.Policy.Script
import CachePolicy.Proofs.Rule.Matcher
import CachePolicy.Proofs.Rule.Set

/-!
# The script and the rules take the same requests

The program of a worker gives the JSON of a matcher to `matchRequest` and registers the
condition that it gets for a method.  The request is taken just when the rule takes it.
-/

namespace CachePolicy

open Script

/-! ## What the script says -/

/-- The parts of a request that a script sees. -/
def Request.parts (request : Request) : Scope ρ :=
  [("request", .data (.obj [("url", .str request.href), ("method", .str request.method),
      ("destination", .str request.destination.name)])),
    ("url", .data (.obj [("href", .str request.href), ("pathname", .str request.pathname)]))]

/-- An engine finds a pattern just where it has a match. -/
def Script.RegExps.Agrees (engine : RegExps ρ) : Prop :=
  ∀ source node, Pattern.read source = some node → ∃ made, engine.make source = some made ∧
    ∀ text : String, engine.test made text = node.found text.toList.toArray

namespace Script

theorem any_isText (texts : List String) (text : String) :
    (texts.map .str).any (isText text) = texts.contains text := by
  induction texts with
  | nil => rfl
  | cons first rest ih =>
      rw [List.map_cons, List.any_cons, ih, isText_str, List.contains_cons, Bool.beq_comm]

theorem anyM_map_some {items : List α} {make : α → β} {condition : β → Option Bool}
    {holds : α → Bool} (gives : ∀ item, condition (make item) = some (holds item)) :
    (items.map make).anyM condition = some (items.any holds) := by
  induction items with
  | nil => rfl
  | cons item rest ih =>
      rw [List.map_cons, List.anyM_cons, gives, ih, List.any_cons]
      cases holds item <;> rfl

variable (engine : RegExps ρ) (request : Request)

theorem call_destination (destinations : List Destination) :
    matchRequest.call engine (Matcher.destination destinations).toJson request.parts =
      some (destinations.contains request.destination) := by
  have named : (destinations.map (·.name)).contains request.destination.name =
      destinations.contains request.destination := by
    rw [Bool.eq_iff_iff]
    simp [Destination.name_injective.eq_iff]
  rw [← named, ← any_isText, ← Matcher.destinations_toJson]
  simp [matchRequest, Matcher.toJson, Request.parts, List.lookup_cons]

theorem call_pathPrefix (start : String) :
    matchRequest.call engine (Matcher.pathPrefix start).toJson request.parts =
      some (start.toList.isPrefixOf request.pathname.toList) := by
  rw [← Json.isPrefixOf_units]
  simp [matchRequest, Matcher.toJson, Request.parts, List.lookup_cons]

theorem call_method (name : String) :
    matchRequest.call engine (Matcher.method name).toJson request.parts =
      some (request.method == name) := by
  simp [matchRequest, Matcher.toJson, Request.parts, List.lookup_cons]

theorem call_extensions (ends : List String) :
    matchRequest.call engine (Matcher.extensions ends).toJson request.parts =
      some (ends.any fun ending => ending.toList.isSuffixOf request.href.toList) := by
  have called : matchRequest.call engine (Matcher.extensions ends).toJson request.parts =
      (ends.map Json.str).anyM fun ending =>
        ((Term.endsWith (.var "url") (.var "ext")).eval engine
          [("ext", .data ending), ("url", .data (.str request.href))]).bind Value.truth? := by
    simp [matchRequest, Matcher.toJson, Request.parts, List.lookup_cons, Json.strs]
  rw [called, anyM_map_some]
  intro ending
  simp [List.lookup_cons, Json.isSuffixOf_units]

theorem call_pattern {source : String} {made : ρ} (makes : engine.make source = some made)
    (target : PatternTarget) :
    matchRequest.call engine (Matcher.pattern source target).toJson request.parts =
      some (engine.test made
        (match target with
          | .url => request.href
          | .path => request.pathname)) := by
  cases target with
  | url =>
      simp [matchRequest, Matcher.toJson, Request.parts, List.lookup_cons, makes,
        PatternTarget.name]
  | path =>
      simp [matchRequest, Matcher.toJson, Request.parts, List.lookup_cons, makes,
        PatternTarget.name]

/-- The script says of a request what the matcher does, and it always says something. -/
theorem call_matchRequest (agrees : engine.Agrees) {matcher : Matcher}
    {compiled : CompiledMatcher} (compiles : matcher.compile = .ok compiled) :
    matchRequest.call engine matcher.toJson request.parts = some (compiled.accepts request) := by
  cases matcher with
  | destination destinations =>
      cases compiles
      exact call_destination engine request destinations
  | pathPrefix start =>
      rw [Matcher.compile] at compiles
      split at compiles
      · cases compiles
      · cases compiles
        exact call_pathPrefix engine request start
  | method name =>
      rw [Matcher.compile] at compiles
      split at compiles
      · cases compiles
      · cases compiles
        exact call_method engine request name
  | extensions ends =>
      cases compiles
      exact call_extensions engine request ends
  | pattern source target =>
      rw [Matcher.compile] at compiles
      cases read : Pattern.read source with
      | none =>
          rw [read] at compiles
          cases compiles
      | some node =>
          rw [read] at compiles
          cases compiles
          obtain ⟨made, makes, finds⟩ := agrees source node read
          rw [call_pattern engine request makes, finds]
          rfl

end Script

/-! ## Registrations -/

/-- The method that the program registers a rule for, as a literal, unless it leaves it
out. -/
def CachingRule.methodLiteral (rule : CachingRule) : Option String :=
  if rule.routeMethod = "GET" then none else some (Json.quoted rule.routeMethod)

namespace Script

/-- The text of a registration that hands over a matcher, a strategy and a method. -/
def registration (heading matcher strategy : String) (method : Option String) : String :=
  heading ++ "\nworkbox.routing.registerRoute(\n  matchRequest(" ++ matcher ++ "),\n" ++
    strategy ++
    (match method with
      | none => ""
      | some literal => ",\n  " ++ literal) ++
    "\n);\n"

/-- The method that a registration is for: that of plain requests if it is left out. -/
def registeredMethod : Option String → Option String
  | none => some "GET"
  | some literal => (Json.read literal).toOption.bind Json.text?

/-- What the program registers for a rule. -/
theorem text_route (index : Nat) (rule : CachingRule) (queueOf : Option Nat) :
    Statement.text (.route index rule queueOf) =
      registration ("// " ++ rule.origin.name ++ " rule " ++ toString index)
        rule.matcher.toJson.compact (Statement.strategyText rule queueOf)
        rule.methodLiteral := by
  change Statement.routeText index rule queueOf = _
  rw [Statement.routeText, CachingRule.methodLiteral]
  by_cases plain : rule.routeMethod = "GET"
  · rw [if_pos plain, if_pos plain]
    simp only [registration, String.append_assoc]
    rfl
  · rw [if_neg plain, if_neg plain]
    simp only [registration, String.append_assoc]
    rfl

/-- A rule is registered for the method of the requests that it sees. -/
theorem registeredMethod_methodLiteral (rule : CachingRule) :
    registeredMethod rule.methodLiteral = some rule.routeMethod := by
  rw [CachingRule.methodLiteral]
  split
  next plain =>
    rw [plain]
    rfl
  next =>
    rw [registeredMethod, Json.read_quoted]
    rfl

/-! ## Requests that are taken -/

/-- Whether the program takes a request for a rule: it is registered for the method of the
request, and the condition that it makes of the JSON of the matcher holds. -/
def takes (engine : RegExps ρ) (rule : CachingRule) (request : Request) : Option Bool := do
  let descriptor ← (Json.read rule.matcher.toJson.compact).toOption
  let method ← registeredMethod rule.methodLiteral
  let holds ← matchRequest.call engine descriptor request.parts
  return method == request.method && holds

theorem takes_eq {engine : RegExps ρ} (agrees : engine.Agrees) {rule : CachingRule}
    {compiled : CompiledMatcher} (compiles : rule.matcher.compile = .ok compiled)
    (request : Request) :
    takes engine rule request = some ((CompiledRule.mk rule compiled).takes request) := by
  simp only [takes, Matcher.read_toJson, Except.toOption, bind, Option.bind_some, pure,
    call_matchRequest engine request agrees compiles, registeredMethod_methodLiteral]
  rfl

/-- The program takes a request for a rule just when the rule does.  It never fails to
decide. -/
theorem takes_iff_firstMatch {engine : RegExps ρ} (agrees : engine.Agrees) {matcher : Matcher}
    {compiled : CompiledMatcher} (compiles : matcher.compile = .ok compiled)
    {rule : CachingRule} (has : rule.matcher = matcher) (request : Request) :
    Statement.text .matchFunction = Statement.lines matchRequest.lines ∧
      (∀ index queueOf, ∃ heading strategy, Statement.text (.route index rule queueOf) =
        registration heading rule.matcher.toJson.compact strategy rule.methodLiteral) ∧
      ∃ taken, takes engine rule request = some taken ∧
        (taken = true ↔
          (CompiledRuleSet.mk [⟨rule, compiled⟩]).firstMatch request = some (0, rule)) := by
  subst has
  refine ⟨lines_matchRequest.symm, fun index queueOf => ⟨_, _, text_route index rule queueOf⟩,
    _, takes_eq agrees compiles request, ?_⟩
  rw [CompiledRuleSet.firstMatch_eq_some_iff]
  constructor
  · intro taken
    refine ⟨_, rfl, rfl, taken, ?_⟩
    intro earlier less
    cases less
  · rintro ⟨route, only, -, taken, -⟩
    cases only
    exact taken

/-- A request goes to the first rule for which the program takes it. -/
theorem firstMatch_iff_takes {engine : RegExps ρ} (agrees : engine.Agrees) {ruleSet : RuleSet}
    {compiled : CompiledRuleSet} (compiles : ruleSet.compile = .ok compiled) (request : Request)
    (index : Nat) (rule : CachingRule) :
    compiled.firstMatch request = some (index, rule) ↔
      ruleSet.rules[index]? = some rule ∧ takes engine rule request = some true ∧
        ∀ earlier < index, ∀ other, ruleSet.rules[earlier]? = some other →
          takes engine other request = some false := by
  have same {route : CompiledRule} (member : route ∈ compiled.routes) :
      takes engine route.rule request = some (route.takes request) :=
    takes_eq agrees (RuleSet.compile_matcher_of_mem_routes compiles member) request
  rw [CompiledRuleSet.firstMatch_eq_some_iff, ← RuleSet.rules_of_compile compiles]
  simp only [CompiledRuleSet.rules, List.getElem?_map, Option.map_eq_some_iff]
  constructor
  · rintro ⟨route, placed, rfl, taken, before⟩
    refine ⟨⟨route, placed, rfl⟩, ?_, ?_⟩
    · rw [same (List.mem_of_getElem? placed), taken]
    · rintro earlier less other ⟨skipped, found, rfl⟩
      rw [same (List.mem_of_getElem? found), before earlier less skipped found]
  · rintro ⟨⟨route, placed, rfl⟩, taken, before⟩
    refine ⟨route, placed, rfl, ?_, ?_⟩
    · rw [same (List.mem_of_getElem? placed)] at taken
      exact Option.some.inj taken
    · intro earlier less other found
      have skipped := before earlier less other.rule ⟨other, found, rfl⟩
      rw [same (List.mem_of_getElem? found)] at skipped
      exact Option.some.inj skipped

/-- The engine that searches as the rules do. -/
def RegExps.own : RegExps Pattern.Node where
  make := Pattern.read
  test node text := node.found text.toList.toArray

theorem RegExps.agrees_own : RegExps.own.Agrees := by
  intro source node read
  exact ⟨node, read, fun text => rfl⟩

end Script

/-- A rule for the calls of an interface. -/
def CachingRule.apiCalls : CachingRule where
  origin := .runtimeCaching
  matcher := .pattern "^/api/" .path
  strategy := .networkFirst

/-- A call of the interface. -/
def Request.apiCall : Request := ⟨⟨"http", some (.ofHost Request.site), "/api/x", none, none⟩,
  "GET", .none⟩

/-- The program takes the call for the rule, and so does the rule. -/
theorem takes_iff_firstMatch_apiCalls :
    ∃ compiled, CachingRule.apiCalls.matcher.compile = .ok compiled ∧
      Script.takes .own .apiCalls .apiCall = some true ∧
      (CompiledRuleSet.mk [⟨.apiCalls, compiled⟩]).firstMatch .apiCall = some (0, .apiCalls) := by
  have usable : CachingRule.apiCalls.matcher.compile.toOption.isSome = true := by
    decide +kernel
  cases compiles : CachingRule.apiCalls.matcher.compile with
  | error e =>
      rw [compiles] at usable
      cases usable
  | ok compiled =>
      obtain ⟨-, -, taken, decided, agrees⟩ :=
        Script.takes_iff_firstMatch Script.RegExps.agrees_own compiles rfl .apiCall
      have takes : Script.takes .own .apiCalls .apiCall = some true := by
        decide +kernel
      refine ⟨compiled, rfl, takes, ?_⟩
      apply agrees.mp
      rw [decided] at takes
      exact Option.some.inj takes

end CachePolicy
