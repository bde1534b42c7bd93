import CachePolicy.Proofs.Policy.Assembly
import CachePolicy.Proofs.Policy.Explain

/-!
# One notion of a valid policy

Options are planned just when their strategies have names that are known and the rules that
they are made into are valid.  The pages of a site have no say in it.  What is planned can
then be put to use: a worker is made of it, and every request that can be read is explained.
-/

namespace CachePolicy

/-- The names of strategies in options are those of the five strategies. -/
structure Options.HandlersNamed (options : Options) : Prop where
  strategies : ∀ pair ∈ options.cachingStrategies, pair.2 ∈ Strategy.all.map Strategy.name
  entries : ∀ entry ∈ options.runtimeCaching, entry.handler ∈ Strategy.all.map Strategy.name

/-- Options can be planned: their strategies are known, and they are made into valid
rules. -/
structure Options.Acceptable (options : Options) : Prop where
  named : options.HandlersNamed
  valid : ∀ rules, options.Assembles rules → ValidRules rules

namespace Options

variable {options : Options}

theorem exists_strategy_iff {name : String} :
    (∃ strategy, Options.strategy name = .ok strategy) ↔ name ∈ Strategy.all.map Strategy.name := by
  simp only [strategy_eq_ok_iff, List.mem_map]
  constructor
  · rintro ⟨strategy, named⟩
    refine ⟨strategy, ?_, named⟩
    cases strategy <;> decide
  · rintro ⟨strategy, -, named⟩
    exact ⟨strategy, named⟩

/-- A computation that only makes something of what another gives succeeds when that does. -/
theorem exists_bind_ok_iff {ε α β : Type} {first : Except ε α} {make : α → β} :
    (∃ result, (first >>= fun value => .ok (make value)) = .ok result) ↔
      ∃ value, first = .ok value := by
  simp only [bind_eq_ok_iff]
  constructor
  · rintro ⟨_, value, given, -⟩
    exact ⟨value, given⟩
  · rintro ⟨value, given⟩
    exact ⟨make value, value, given, rfl⟩

theorem exists_strategyRule_iff {pattern handler : String} :
    (∃ rule, options.strategyRule pattern handler = .ok rule) ↔
      handler ∈ Strategy.all.map Strategy.name := by
  rw [← exists_strategy_iff]
  exact exists_bind_ok_iff

theorem exists_runtimeRule_iff {origin : RuleOrigin} {entry : RuntimeEntry} :
    (∃ rule, options.runtimeRule origin entry = .ok rule) ↔
      entry.handler ∈ Strategy.all.map Strategy.name := by
  rw [← exists_strategy_iff]
  exact exists_bind_ok_iff

/-- Options are made into rules just when their strategies are known. -/
theorem exists_assembles_iff : (∃ rules, options.Assembles rules) ↔ options.HandlersNamed := by
  simp only [← rules_eq_ok_iff, Options.rules, bind_eq_ok_iff, each_presetEntries]
  constructor
  · rintro ⟨_, _, strategies, _, _, _, entries, _⟩
    have patterns := exists_each_iff.mp ⟨_, strategies⟩
    have runtime := exists_each_iff.mp ⟨_, entries⟩
    exact ⟨fun pair listed => exists_strategyRule_iff.mp (patterns pair listed),
      fun entry listed => exists_runtimeRule_iff.mp (runtime entry listed)⟩
  · rintro ⟨strategies, entries⟩
    obtain ⟨patterns, made⟩ := exists_each_iff.mpr fun pair listed =>
      exists_strategyRule_iff.mpr (strategies pair listed)
    obtain ⟨runtime, carried⟩ := exists_each_iff.mpr fun entry listed =>
      exists_runtimeRule_iff.mpr (entries entry listed)
    exact ⟨_, patterns, made, _, rfl, runtime, carried, rfl⟩

theorem Assembles.unique {rules others : List CachingRule} (first : options.Assembles rules)
    (second : options.Assembles others) : rules = others := by
  rw [← rules_eq_ok_iff] at first second
  rw [first] at second
  exact Except.ok.inj second

/-- Options are planned just when they are acceptable, whatever the pages are. -/
theorem exists_plan_iff {pathnames : List String} :
    (∃ ruleSet, options.plan pathnames = .ok ruleSet) ↔ options.Acceptable := by
  simp only [plan_eq_ok_iff]
  constructor
  · rintro ⟨_, rules, assembles, valid, -⟩
    refine ⟨exists_assembles_iff.mp ⟨rules, assembles⟩, ?_⟩
    intro others made
    rw [made.unique assembles]
    exact valid
  · rintro ⟨named, valid⟩
    obtain ⟨rules, assembles⟩ := exists_assembles_iff.mpr named
    exact ⟨_, rules, assembles, valid rules assembles, rfl⟩

end Options

namespace RuleSet

variable {ruleSet : RuleSet}

/-- A worker is made of a rule set just when its rules are valid. -/
theorem exists_new_iff :
    (∃ worker, Worker.new ruleSet = .ok worker) ↔ ValidRules ruleSet.rules := by
  rw [← exists_compile_iff]
  constructor
  · rintro ⟨worker, created⟩
    obtain ⟨compiled, compiles, -⟩ := Worker.eq_of_new created
    exact ⟨compiled, compiles⟩
  · rintro ⟨compiled, compiles⟩
    rw [Worker.new, compiles]
    exact ⟨_, rfl⟩

/-- Valid rules explain every request whose URL can be read. -/
theorem exists_explain_iff (valid : ValidRules ruleSet.rules) {url method : String}
    {destination : Destination} :
    (∃ explanation, ruleSet.explain url method destination = .ok explanation) ↔
      ∃ parsed, Url.readOn Request.site url = .ok parsed := by
  obtain ⟨compiled, compiles⟩ := exists_compile_iff.mpr valid
  constructor
  · rintro ⟨explanation, explained⟩
    rw [explain, bind_eq_ok_iff] at explained
    obtain ⟨request, read, -⟩ := explained
    rw [Request.read] at read
    cases parsed : Url.readOn Request.site url with
    | ok address => exact ⟨address, rfl⟩
    | error reason =>
        rw [parsed] at read
        cases read
  · rintro ⟨address, parsed⟩
    have read : Request.read url method destination =
        .ok ⟨address, Text.upper method, destination⟩ := by
      rw [Request.read, parsed]
    obtain ⟨explanation, explained, -⟩ := exists_explain read compiles
    exact ⟨explanation, explained⟩

end RuleSet

/-- There is one notion of a valid policy.  A rule set passes its check just when it is
compiled, which is when its rules are valid, and it is compiled with its rules as they are.
Options are planned just when they are acceptable, whatever the pages are, and of what is
planned a worker is made and every request is explained whose URL can be read. -/
theorem policy_accepted_iff (ruleSet : RuleSet) (options : Options) :
    (ruleSet.validate = .ok () ↔ ValidRules ruleSet.rules) ∧
      ((∃ compiled, ruleSet.compile = .ok compiled) ↔ ValidRules ruleSet.rules) ∧
      (∀ compiled, ruleSet.compile = .ok compiled → compiled.rules = ruleSet.rules) ∧
      ∀ pathnames,
        ((∃ planned, options.plan pathnames = .ok planned) ↔ options.Acceptable) ∧
          ∀ planned, options.plan pathnames = .ok planned →
            options.Assembles planned.rules ∧
              (∃ worker, Worker.new planned = .ok worker) ∧
              ∀ url method destination,
                (∃ explanation, planned.explain url method destination = .ok explanation) ↔
                  ∃ parsed, Url.readOn Request.site url = .ok parsed := by
  refine ⟨RuleSet.validate_eq_ok_iff, RuleSet.exists_compile_iff,
    fun _ => RuleSet.rules_of_compile, ?_⟩
  intro pathnames
  refine ⟨Options.exists_plan_iff, ?_⟩
  intro planned made
  obtain ⟨rules, assembles, valid, rfl⟩ := Options.plan_eq_ok_iff.mp made
  exact ⟨assembles, RuleSet.exists_new_iff.mpr valid,
    fun _ _ _ => RuleSet.exists_explain_iff valid⟩

/-- A form is explained by the policy that queues it. -/
theorem policy_accepted_forms :
    ∃ planned, Options.forms.plan [] = .ok planned ∧
      ∃ explanation, planned.explain "/form" "POST" .none = .ok explanation := by
  have made : ∃ planned, Options.forms.plan [] = .ok planned := ⟨_, rfl⟩
  obtain ⟨planned, made⟩ := made
  obtain ⟨-, -, -, accepted⟩ := policy_accepted_iff planned Options.forms
  obtain ⟨-, -, explained⟩ := (accepted []).2 planned made
  refine ⟨planned, made, (explained "/form" "POST" .none).mpr ?_⟩
  have parsed : (Url.readOn Request.site "/form").isOk = true := by decide +kernel
  cases read : Url.readOn Request.site "/form" with
  | ok address => exact ⟨address, rfl⟩
  | error reason =>
      rw [read] at parsed
      cases parsed

end CachePolicy
