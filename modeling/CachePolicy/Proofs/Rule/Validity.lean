import CachePolicy.Proofs.Data.Outcome
import CachePolicy.Proofs.Rule.Set

/-!
# Valid rules

Rules are valid when each of them can be used on its own and all that name one queue keep
a request for the same time.

Two checks look for this.  `RuleSet.validate` checks the rules first and then the queues,
`RuleSet.compile` the queues first, and each queue is compared only with those before it.
They may name different faults, but they pass the same rules: the valid ones.
-/

namespace CachePolicy

/-- A matcher can be used: its pattern can be read, and it does not compare with the empty
text. -/
structure Matcher.Usable (matcher : Matcher) : Prop where
  pattern : ∀ source target, matcher = .pattern source target →
    (Pattern.read source).isSome = true
  pathPrefix : matcher ≠ .pathPrefix ""
  method : matcher ≠ .method ""

/-- A matcher is compiled just when it can be used. -/
theorem Matcher.exists_compile_iff {matcher : Matcher} :
    (∃ compiled, matcher.compile = .ok compiled) ↔ matcher.Usable := by
  cases matcher with
  | destination destinations => exact ⟨fun _ => ⟨nofun, nofun, nofun⟩, fun _ => ⟨_, rfl⟩⟩
  | extensions ends => exact ⟨fun _ => ⟨nofun, nofun, nofun⟩, fun _ => ⟨_, rfl⟩⟩
  | pathPrefix start =>
      by_cases empty : start = ""
      · subst empty
        exact ⟨nofun, fun usable => absurd rfl usable.pathPrefix⟩
      · have full : start.isEmpty = false := by simpa using empty
        simp only [compile, full, Bool.false_eq_true, if_false]
        exact ⟨fun _ => ⟨nofun, by simpa using empty, nofun⟩, fun _ => ⟨_, rfl⟩⟩
  | method name =>
      by_cases empty : name = ""
      · subst empty
        exact ⟨nofun, fun usable => absurd rfl usable.method⟩
      · have full : name.isEmpty = false := by simpa using empty
        simp only [compile, full, Bool.false_eq_true, if_false]
        exact ⟨fun _ => ⟨nofun, nofun, by simpa using empty⟩, fun _ => ⟨_, rfl⟩⟩
  | pattern source target =>
      rw [compile]
      cases read : Pattern.read source with
      | none =>
          refine ⟨nofun, fun usable => ?_⟩
          have readable := usable.pattern source target rfl
          rw [read] at readable
          cases readable
      | some node =>
          refine ⟨fun _ => ⟨?_, nofun, nofun⟩, fun _ => ⟨_, rfl⟩⟩
          rintro _ _ same
          cases same
          rw [read]
          rfl

/-- A rule can be used: its matcher can, and it has a queue only if it asks the network
alone. -/
structure CachingRule.Usable (rule : CachingRule) : Prop where
  matcher : rule.matcher.Usable
  queue : ∀ queue, rule.replayQueue = some queue → rule.strategy = .networkOnly

namespace CachingRule

variable {rule : CachingRule}

theorem exists_compile_iff : (∃ compiled, rule.compile = .ok compiled) ↔ rule.Usable := by
  have whole : (∃ compiled, rule.compile = .ok compiled) ↔
      (∃ compiled, rule.matcher.compile = .ok compiled) ∧
        ∀ queue, rule.replayQueue = some queue → rule.strategy = .networkOnly := by
    simp only [compile, bind_eq_ok_iff]
    cases rule.replayQueue with
    | none => simp
    | some queue =>
        by_cases alone : rule.strategy = .networkOnly
        · simp [alone]
        · simp [alone]
  rw [whole, Matcher.exists_compile_iff]
  exact ⟨fun usable => ⟨usable.1, usable.2⟩, fun usable => ⟨usable.matcher, usable.queue⟩⟩

theorem validate_eq_ok_iff : rule.validate = .ok () ↔ rule.Usable := by
  rw [← exists_compile_iff, validate, bind_eq_ok_iff]
  simp only [and_true]

end CachingRule

/-- Rules are valid: each can be used, and those that name one queue keep a request for the
same time. -/
structure ValidRules (rules : List CachingRule) : Prop where
  usable : ∀ rule ∈ rules, rule.Usable
  agree : ∀ first ∈ rules, ∀ second ∈ rules, ∀ queue other,
    first.replayQueue = some queue → second.replayQueue = some other →
    queue.name = other.name → queue.maxRetentionMinutes = other.maxRetentionMinutes

namespace RuleSet

variable {rules : List CachingRule}

theorem validateRules_eq_ok_iff :
    validateRules rules = .ok () ↔ ∀ rule ∈ rules, rule.Usable := by
  induction rules with
  | nil => simp [validateRules]
  | cons rule rest ih =>
      simp only [validateRules, bind_eq_ok_iff, ih, List.forall_mem_cons,
        ← CachingRule.validate_eq_ok_iff]
      constructor
      · rintro ⟨_, first, more⟩
        exact ⟨first, more⟩
      · rintro ⟨first, more⟩
        exact ⟨(), first, more⟩

theorem exists_compileRules_iff :
    (∃ routes, compileRules rules = .ok routes) ↔ ∀ rule ∈ rules, rule.Usable := by
  induction rules with
  | nil => simp [compileRules]
  | cons rule rest ih =>
      rw [List.forall_mem_cons, ← ih, ← CachingRule.exists_compile_iff]
      simp only [compileRules, bind_eq_ok_iff]
      constructor
      · rintro ⟨_, matcher, first, routes, more, -⟩
        exact ⟨⟨matcher, first⟩, routes, more⟩
      · rintro ⟨⟨matcher, first⟩, routes, more⟩
        exact ⟨_, matcher, first, routes, more, rfl⟩

/-! ## Queues -/

/-- It is enough to compare every queue with those before it. -/
theorem checkQueuesAfter_eq_ok_of_agree {earlier rest : List ReplayQueue}
    (agree : Agree (earlier ++ rest)) : checkQueuesAfter earlier rest = .ok () := by
  induction rest generalizing earlier with
  | nil => rfl
  | cons queue rest ih =>
      have same : ∀ other ∈ earlier, other.name = queue.name → other = queue := by
        intro other member names
        exact agree other (List.mem_append_left _ member) queue (by simp) names
      have unmatched : (earlier.find? fun other =>
          other.name == queue.name && other.maxRetentionMinutes != queue.maxRetentionMinutes) =
            none := by
        apply List.find?_eq_none.mpr
        intro other member differs
        rw [Bool.and_eq_true, beq_iff_eq, bne_iff_ne] at differs
        rw [same other member differs.1] at differs
        exact differs.2 rfl
      rw [checkQueuesAfter, unmatched]
      apply ih
      simpa using agree

/-- Queues of one name that keep a request for the same time are the same queue. -/
theorem agree_replayQueues_iff {ruleSet : RuleSet} :
    Agree ruleSet.replayQueues ↔ ∀ first ∈ ruleSet.rules, ∀ second ∈ ruleSet.rules,
      ∀ queue other, first.replayQueue = some queue → second.replayQueue = some other →
        queue.name = other.name → queue.maxRetentionMinutes = other.maxRetentionMinutes := by
  constructor
  · intro agree first firstMember second secondMember queue other names named same
    have listed := List.mem_filterMap.mpr ⟨first, firstMember, names⟩
    have alike := List.mem_filterMap.mpr ⟨second, secondMember, named⟩
    rw [agree queue listed other alike same]
  · intro times queue listed other alike same
    obtain ⟨first, firstMember, names⟩ := List.mem_filterMap.mp listed
    obtain ⟨second, secondMember, named⟩ := List.mem_filterMap.mp alike
    have minutes := times first firstMember second secondMember queue other names named same
    cases queue
    cases other
    simp_all

variable {ruleSet : RuleSet}

theorem checkQueues_eq_ok_iff : ruleSet.checkQueues = .ok () ↔ Agree ruleSet.replayQueues := by
  constructor
  · exact agree_of_checkQueuesAfter fun _ member => absurd member List.not_mem_nil
  · intro agree
    apply checkQueuesAfter_eq_ok_of_agree
    rw [List.nil_append]
    exact agree

/-! ## Both checks -/

theorem validRules_iff :
    ValidRules ruleSet.rules ↔
      (∀ rule ∈ ruleSet.rules, rule.Usable) ∧ ruleSet.checkQueues = .ok () := by
  rw [checkQueues_eq_ok_iff, agree_replayQueues_iff]
  exact ⟨fun valid => ⟨valid.usable, valid.agree⟩, fun valid => ⟨valid.1, valid.2⟩⟩

/-- To validate a set is to find out whether its rules are valid. -/
theorem validate_eq_ok_iff : ruleSet.validate = .ok () ↔ ValidRules ruleSet.rules := by
  rw [validRules_iff, ← validateRules_eq_ok_iff, validate, bind_eq_ok_iff]
  constructor
  · rintro ⟨_, rules, queues⟩
    exact ⟨rules, queues⟩
  · rintro ⟨rules, queues⟩
    exact ⟨(), rules, queues⟩

/-- A set is compiled just when its rules are valid. -/
theorem exists_compile_iff :
    (∃ compiled, ruleSet.compile = .ok compiled) ↔ ValidRules ruleSet.rules := by
  rw [validRules_iff, ← exists_compileRules_iff]
  simp only [compile, bind_eq_ok_iff]
  constructor
  · rintro ⟨_, _, queues, routes, rules, -⟩
    exact ⟨⟨routes, rules⟩, queues⟩
  · rintro ⟨⟨routes, rules⟩, queues⟩
    exact ⟨_, (), queues, routes, rules, rfl⟩

end RuleSet

end CachePolicy
