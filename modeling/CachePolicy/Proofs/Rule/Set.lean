import CachePolicy.Proofs.Data.Outcome
import CachePolicy.Rule.Set

/-!
# Compiled rule sets

What follows from a rule set having been compiled: its rules are kept in order, the
first that takes a request is one of them, and queues of one name are the same queue.
-/

namespace CachePolicy

theorem CachingRule.compile_matcher_of_compile {rule : CachingRule} {compiled : CompiledMatcher}
    (h : rule.compile = .ok compiled) : rule.matcher.compile = .ok compiled := by
  rw [compile] at h
  obtain ⟨other, matcher, rest⟩ := bind_eq_ok_iff.mp h
  rw [matcher]
  split at rest
  · split at rest
    · exact rest
    · cases rest
  · exact rest

namespace RuleSet

variable {ruleSet : RuleSet} {compiled : CompiledRuleSet}

theorem checkQueues_and_compileRules_of_compile (h : ruleSet.compile = .ok compiled) :
    ruleSet.checkQueues = .ok () ∧ compileRules ruleSet.rules = .ok compiled.routes := by
  rw [compile] at h
  obtain ⟨done, checked, h⟩ := bind_eq_ok_iff.mp h
  obtain ⟨routes, rules, made⟩ := bind_eq_ok_iff.mp h
  cases made
  exact ⟨checked, rules⟩

/-- The routes of rules are those of the first rule and of the rest. -/
theorem compileRules_cons_eq_ok_iff {rule : CachingRule} {rest : List CachingRule}
    {routes : List CompiledRule} :
    compileRules (rule :: rest) = .ok routes ↔ ∃ matcher others,
      rule.compile = .ok matcher ∧ compileRules rest = .ok others ∧
        ⟨rule, matcher⟩ :: others = routes := by
  simp only [compileRules, bind_eq_ok_iff, Except.ok.injEq, exists_and_left]

/-- Compiling keeps the rules and their order. -/
theorem rules_of_compileRules {rules : List CachingRule} {routes : List CompiledRule}
    (h : compileRules rules = .ok routes) : routes.map (·.rule) = rules := by
  induction rules generalizing routes with
  | nil =>
      cases h
      rfl
  | cons rule rest ih =>
      obtain ⟨matcher, others, -, more, rfl⟩ := compileRules_cons_eq_ok_iff.mp h
      rw [List.map_cons, ih more]

theorem rules_of_compile (h : ruleSet.compile = .ok compiled) :
    compiled.rules = ruleSet.rules :=
  rules_of_compileRules (checkQueues_and_compileRules_of_compile h).2

theorem compile_of_mem_compileRules {rules : List CachingRule} {routes : List CompiledRule}
    (h : compileRules rules = .ok routes) {route : CompiledRule} (member : route ∈ routes) :
    route.rule.matcher.compile = .ok route.matcher := by
  induction rules generalizing routes with
  | nil =>
      cases h
      cases member
  | cons rule rest ih =>
      obtain ⟨matcher, others, first, more, rfl⟩ := compileRules_cons_eq_ok_iff.mp h
      rcases List.mem_cons.mp member with rfl | later
      · exact CachingRule.compile_matcher_of_compile first
      · exact ih more later

/-- A route of a compiled rule set has the matcher of its rule, compiled. -/
theorem compile_matcher_of_mem_routes (h : ruleSet.compile = .ok compiled) {route : CompiledRule}
    (member : route ∈ compiled.routes) : route.rule.matcher.compile = .ok route.matcher :=
  compile_of_mem_compileRules (checkQueues_and_compileRules_of_compile h).2 member

/-- A rule has a route in its place, with its matcher compiled. -/
theorem exists_route (h : ruleSet.compile = .ok compiled) {index : Nat} {rule : CachingRule}
    (placed : ruleSet.rules[index]? = some rule) :
    ∃ route, compiled.routes[index]? = some route ∧ route.rule = rule ∧
      rule.matcher.compile = .ok route.matcher := by
  rw [← rules_of_compile h, CompiledRuleSet.rules, List.getElem?_map] at placed
  obtain ⟨route, found, rfl⟩ := Option.map_eq_some_iff.mp placed
  exact ⟨route, found, rfl, compile_matcher_of_mem_routes h (List.mem_of_getElem? found)⟩

/-- The caches that rules use are declared. -/
theorem mem_declaredCacheNames {rule : CachingRule} (member : rule ∈ ruleSet.rules)
    {name : String} (used : rule.partition = some name) : name ∈ ruleSet.declaredCacheNames := by
  have general (caches names : List String) (listed : name ∈ names ∨ name ∈ caches) :
      name ∈ caches.foldl
        (fun names name => if names.contains name then names else names ++ [name]) names := by
    induction caches generalizing names with
    | nil =>
        rcases listed with early | late
        · exact early
        · exact absurd late List.not_mem_nil
    | cons cache rest ih =>
        apply ih
        rcases listed with early | late
        · left
          simp only
          split
          · exact early
          · exact List.mem_append_left _ early
        · rcases List.mem_cons.mp late with rfl | later
          · left
            simp only
            split
            next present => simpa using present
            next => simp
          · exact .inr later
  exact general _ _ (.inr (List.mem_filterMap.mpr ⟨rule, member, used⟩))

/-- The caches that are declared are used by rules. -/
theorem exists_of_mem_declaredCacheNames {name : String}
    (declared : name ∈ ruleSet.declaredCacheNames) :
    ∃ rule ∈ ruleSet.rules, rule.partition = some name := by
  have general (caches names : List String)
      (listed : name ∈ caches.foldl
        (fun names name => if names.contains name then names else names ++ [name]) names) :
      name ∈ names ∨ name ∈ caches := by
    induction caches generalizing names with
    | nil => exact .inl listed
    | cons cache rest ih =>
        rcases ih _ listed with early | late
        · simp only at early
          split at early
          · exact .inl early
          · rcases List.mem_append.mp early with earlier | here
            · exact .inl earlier
            · exact .inr (List.mem_cons.mpr (.inl (List.mem_singleton.mp here)))
        · exact .inr (List.mem_cons_of_mem _ late)
  rcases general _ _ declared with early | listed
  · exact absurd early List.not_mem_nil
  · exact List.mem_filterMap.mp listed

/-! ## Queues -/

/-- Queues of one name are the same queue. -/
def Agree (queues : List ReplayQueue) : Prop :=
  ∀ first ∈ queues, ∀ second ∈ queues, first.name = second.name → first = second

theorem agree_append_singleton {earlier : List ReplayQueue} {queue : ReplayQueue}
    (agree : Agree earlier)
    (passes : (earlier.find? fun other =>
      other.name == queue.name && other.maxRetentionMinutes != queue.maxRetentionMinutes) =
        none) : Agree (earlier ++ [queue]) := by
  have same : ∀ other ∈ earlier, other.name = queue.name → other = queue := by
    intro other member names
    have kept := List.find?_eq_none.mp passes other member
    have minutes : other.maxRetentionMinutes = queue.maxRetentionMinutes := by
      simpa [names] using kept
    cases other
    cases queue
    simp_all
  intro first firstMember second secondMember names
  rw [List.mem_append, List.mem_singleton] at firstMember secondMember
  rcases firstMember with firstEarlier | rfl
  · rcases secondMember with secondEarlier | rfl
    · exact agree first firstEarlier second secondEarlier names
    · exact same first firstEarlier names
  · rcases secondMember with secondEarlier | rfl
    · exact (same second secondEarlier names.symm).symm
    · rfl

theorem agree_of_checkQueuesAfter {earlier rest : List ReplayQueue} (agree : Agree earlier)
    (passes : checkQueuesAfter earlier rest = .ok ()) : Agree (earlier ++ rest) := by
  induction rest generalizing earlier with
  | nil => simpa using agree
  | cons queue rest ih =>
      rw [checkQueuesAfter] at passes
      split at passes
      · cases passes
      · next unmatched =>
        rw [← List.singleton_append, ← List.append_assoc]
        exact ih (agree_append_singleton agree unmatched) passes

/-- The rules of a compiled set agree on their queues. -/
theorem agree_replayQueues (h : ruleSet.compile = .ok compiled) :
    Agree ruleSet.replayQueues := by
  have checked := (checkQueues_and_compileRules_of_compile h).1
  exact agree_of_checkQueuesAfter (fun _ member => absurd member List.not_mem_nil) checked

/-- The rules of a valid set agree on their queues. -/
theorem agree_of_validate (valid : ruleSet.validate = .ok ()) :
    Agree ruleSet.replayQueues := by
  rw [validate] at valid
  obtain ⟨done, -, checked⟩ := bind_eq_ok_iff.mp valid
  exact agree_of_checkQueuesAfter (fun _ member => absurd member List.not_mem_nil) checked

/-- The first queue of a name stands for all of that name. -/
theorem find?_replayQueues (h : ruleSet.compile = .ok compiled) {queue : ReplayQueue}
    (member : queue ∈ ruleSet.replayQueues) :
    ruleSet.replayQueues.find? (·.name == queue.name) = some queue := by
  cases found : ruleSet.replayQueues.find? (·.name == queue.name) with
  | none =>
      have absent := List.find?_eq_none.mp found queue member
      exact absurd (beq_self_eq_true queue.name) absent
  | some other =>
      have names : other.name = queue.name := by
        simpa using List.find?_some found
      have same := agree_replayQueues h other (List.mem_of_find?_eq_some found) queue member names
      rw [same]

end RuleSet

namespace CompiledRuleSet

/-- The first match is the place of a rule that takes the request while none before it
does. -/
theorem firstMatch_eq_some_iff {compiled : CompiledRuleSet} {request : Request} {index : Nat}
    {rule : CachingRule} :
    compiled.firstMatch request = some (index, rule) ↔
      ∃ route, compiled.routes[index]? = some route ∧ route.rule = rule ∧
        route.takes request = true ∧ ∀ earlier < index, ∀ other,
          compiled.routes[earlier]? = some other → other.takes request = false := by
  have at_index : compiled.firstMatch request = some (index, rule) ↔
      compiled.routes.findIdx? (·.takes request) = some index ∧
        ∃ route, compiled.routes[index]? = some route ∧ route.rule = rule := by
    simp only [firstMatch, bind, pure, Option.bind_eq_some_iff, Option.some.injEq, Prod.mk.injEq]
    constructor
    · rintro ⟨place, found, route, placed, rfl, same⟩
      exact ⟨found, route, placed, same⟩
    · rintro ⟨found, route, placed, same⟩
      exact ⟨index, found, route, placed, rfl, same⟩
  rw [at_index, List.findIdx?_eq_some_iff_getElem]
  constructor
  · rintro ⟨⟨inside, takes, before⟩, route, placed, same⟩
    refine ⟨route, placed, same, ?_, ?_⟩
    · rw [List.getElem?_eq_getElem inside] at placed
      rw [← Option.some.inj placed]
      exact takes
    · intro earlier less other found
      obtain ⟨_, rfl⟩ := List.getElem?_eq_some_iff.mp found
      exact Bool.eq_false_iff.mpr (before earlier less)
  · rintro ⟨route, placed, same, takes, before⟩
    obtain ⟨inside, rfl⟩ := List.getElem?_eq_some_iff.mp placed
    refine ⟨⟨inside, takes, ?_⟩, _, placed, same⟩
    intro earlier less
    have found := List.getElem?_eq_getElem (Nat.lt_trans less inside)
    exact Bool.eq_false_iff.mp (before earlier less _ found)

/-- The first rule that takes a request is the rule of its place. -/
theorem getElem?_of_firstMatch {compiled : CompiledRuleSet} {request : Request} {index : Nat}
    {rule : CachingRule} (matched : compiled.firstMatch request = some (index, rule)) :
    compiled.rules[index]? = some rule := by
  rw [firstMatch] at matched
  cases found : compiled.routes.findIdx? (·.takes request) with
  | none => simp [found] at matched
  | some place =>
      cases route : compiled.routes[place]? with
      | none => simp [found, route] at matched
      | some route' =>
          simp only [found, route, bind, Option.bind, pure, Option.some.injEq,
            Prod.mk.injEq] at matched
          obtain ⟨rfl, rfl⟩ := matched
          simp [rules, route]

/-- A rule that takes a request is the first to do so, or one before it is. -/
theorem exists_firstMatch_le {compiled : CompiledRuleSet} {request : Request} {index : Nat}
    {route : CompiledRule} (placed : compiled.routes[index]? = some route)
    (takes : route.takes request = true) :
    ∃ first ≤ index, ∃ rule, compiled.firstMatch request = some (first, rule) := by
  obtain ⟨inside, rfl⟩ := List.getElem?_eq_some_iff.mp placed
  cases found : compiled.routes.findIdx? (·.takes request) with
  | none =>
      have refused := List.findIdx?_eq_none_iff.mp found _ (List.getElem_mem inside)
      rw [takes] at refused
      cases refused
  | some first =>
      obtain ⟨before, -, least⟩ := List.findIdx?_eq_some_iff_getElem.mp found
      have at_most : first ≤ index := Nat.le_of_not_lt fun later => least index later takes
      refine ⟨first, at_most, compiled.routes[first].rule, ?_⟩
      simp [firstMatch, found, List.getElem?_eq_getElem before]

theorem mem_of_firstMatch {compiled : CompiledRuleSet} {request : Request} {index : Nat}
    {rule : CachingRule} (matched : compiled.firstMatch request = some (index, rule)) :
    rule ∈ compiled.rules :=
  List.mem_of_getElem? (getElem?_of_firstMatch matched)

end CompiledRuleSet

end CachePolicy
