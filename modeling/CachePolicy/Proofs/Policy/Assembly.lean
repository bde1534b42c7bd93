import CachePolicy.Policy.Compile
import CachePolicy.Proofs.Rule.Validity
import Mathlib.Data.List.Forall2

/-!
# The rules of options

Options are made into six groups of rules.  `RuleGroups.Of` says what each group is,
without regard to how the rules are made, and `Options.Assembles` puts the groups into the
order in which rules are tried.

A plan succeeds only with rules of this shape, and then every rule is proper: what it is
given is what its strategy makes use of, and nothing more.
-/

namespace CachePolicy

theorem Strategy.named?_eq_some_iff {name : String} {strategy : Strategy} :
    named? name = some strategy ↔ strategy.name = name := by
  constructor
  · intro found
    obtain ⟨before, after, split, -⟩ := List.lookup_eq_some_iff.mp found
    have listed : (name, strategy) ∈ byName := by
      rw [split]
      exact List.mem_append_right _ List.mem_cons_self
    obtain ⟨other, -, same⟩ := List.mem_map.mp listed
    cases same
    rfl
  · rintro rfl
    exact named?_name strategy

/-! ## Groups of rules -/

/-- The recommended rules. -/
def Preset.rules (cacheNamePrefix : String) : List CachingRule :=
  [{ origin := .preset
     matcher := .destination [.style, .script, .worker]
     strategy := .staleWhileRevalidate
     cacheName := some "static-resources"
     expiration := some ⟨none, some 86400⟩ },
    { origin := .preset
      matcher := .pathPrefix "/api/"
      strategy := .networkFirst
      cacheName := some "api-cache"
      expiration := some ⟨some 50, some 300⟩
      networkTimeoutSeconds := some 10 },
    { origin := .preset
      matcher := .destination [.image]
      strategy := .cacheFirst
      cacheName := some "images"
      expiration := some ⟨some 60, some 2592000⟩ },
    { origin := .preset
      matcher := .pathPrefix "/assets/"
      strategy := .cacheFirst
      cacheName := some "asset-cache"
      expiration := some ⟨some 100, some 2592000⟩ },
    { origin := .preset
      matcher := .method "POST"
      strategy := .networkOnly
      replayQueue := some ⟨s!"{cacheNamePrefix}-sync-queue", 1440⟩ }]

/-- Whether the recommended rules are used: always, or where no other option makes rules. -/
def Options.UsesPreset (options : Options) : Prop :=
  options.preset = .recommended ∨
    options.preset = .auto ∧ options.apiCachePatterns = [] ∧ options.cachingStrategies = [] ∧
      options.runtimeCaching = [] ∧ options.backgroundSync = none

instance (options : Options) : Decidable options.UsesPreset :=
  inferInstanceAs (Decidable (_ ∨ _))

/-- A rule gives a pattern its strategy. -/
structure CachingRule.OfPattern (options : Options) (pattern handler : String)
    (rule : CachingRule) : Prop where
  origin : rule.origin = .cachingStrategy
  matcher : rule.matcher = .pattern pattern .url
  strategy : rule.strategy.name = handler
  cacheName : rule.cacheName =
    if rule.strategy.usesCache then some s!"{options.cacheNamePrefix}-{pattern}" else none
  expiration : rule.expiration = none
  networkTimeout : rule.networkTimeoutSeconds = none
  replayQueue : rule.replayQueue = none

/-- A rule carries out an entry.  Where the entry leaves a bound open, there is one by
default. -/
structure CachingRule.OfEntry (options : Options) (entry : RuntimeEntry) (rule : CachingRule) :
    Prop where
  origin : rule.origin = .runtimeCaching
  matcher : rule.matcher = entry.urlPattern.toMatcher
  strategy : rule.strategy.name = entry.handler
  cacheName : rule.cacheName =
    if rule.strategy.usesCache then
      some (entry.options.cacheName.getD s!"{options.cacheNamePrefix}-runtime")
    else none
  expiration : rule.expiration =
    if rule.strategy.usesCache then
      some ⟨some ((entry.options.expiration.bind (·.maxEntries)).getD 50),
        some ((entry.options.expiration.bind (·.maxAgeSeconds)).getD 86400)⟩
    else none
  networkTimeout : rule.networkTimeoutSeconds =
    if rule.strategy = .networkFirst then entry.options.networkTimeoutSeconds else none
  replayQueue : rule.replayQueue = entry.options.backgroundSync

/-- The groups of rules that options are made into. -/
structure RuleGroups where
  assets : CachingRule
  api : List CachingRule
  strategies : List CachingRule
  preset : List CachingRule
  runtime : List CachingRule
  sync : List CachingRule

namespace RuleGroups

/-- The rules of all groups, in the order in which they are tried. -/
def rules (groups : RuleGroups) : List CachingRule :=
  groups.assets :: groups.api ++ groups.strategies ++ groups.preset ++ groups.runtime ++
    groups.sync

/-- What the groups of options are. -/
structure Of (options : Options) (groups : RuleGroups) : Prop where
  assets : groups.assets = {
    origin := .staticAssets
    matcher := .extensions options.cacheStaticAssetsExtensions
    strategy := .cacheFirst
    cacheName := some s!"{options.cacheNamePrefix}-static-assets"
    expiration := some ⟨none, some options.cacheStaticAssetsDuration⟩ }
  api : groups.api = options.apiCachePatterns.map fun pattern => {
    origin := .apiCache
    matcher := .pattern s!"^{pattern}" .path
    strategy := .networkFirst
    cacheName := some s!"{options.cacheNamePrefix}-api"
    expiration := some ⟨some 50, some 300⟩ }
  strategies : List.Forall₂ (fun pair rule => rule.OfPattern options pair.1 pair.2)
    options.cachingStrategies groups.strategies
  preset : groups.preset =
    if options.UsesPreset then Preset.rules options.cacheNamePrefix else []
  runtime : List.Forall₂ (fun entry rule => rule.OfEntry options entry)
    options.runtimeCaching groups.runtime
  sync : groups.sync = options.backgroundSync.toList.map fun queue => {
    origin := .backgroundSync
    matcher := .method "POST"
    strategy := .networkOnly
    replayQueue := some queue }

end RuleGroups

/-- Rules are those that options are made into. -/
def Options.Assembles (options : Options) (rules : List CachingRule) : Prop :=
  ∃ groups : RuleGroups, groups.Of options ∧ groups.rules = rules

/-! ## Making rules -/

namespace Options

variable {options : Options}

theorem strategy_eq_ok_iff {name : String} {strategy : Strategy} :
    Options.strategy name = .ok strategy ↔ strategy.name = name := by
  rw [← Strategy.named?_eq_some_iff, Options.strategy]
  cases Strategy.named? name with
  | none => simp
  | some other => simp

/-- To give a pattern its strategy succeeds just with the rule that does. -/
theorem strategyRule_eq_ok_iff {pattern handler : String} {rule : CachingRule} :
    options.strategyRule pattern handler = .ok rule ↔ rule.OfPattern options pattern handler := by
  simp only [strategyRule, bind_eq_ok_iff, strategy_eq_ok_iff, pure, Except.pure,
    Except.ok.injEq]
  constructor
  · rintro ⟨strategy, named, rfl⟩
    exact ⟨rfl, rfl, named, rfl, rfl, rfl, rfl⟩
  · intro ofPattern
    obtain ⟨_, _, strategy, _, _, _, _⟩ := rule
    obtain ⟨origin, matcher, named, cacheName, expiration, timeout, queue⟩ := ofPattern
    simp only at origin matcher named cacheName expiration timeout queue
    refine ⟨strategy, named, ?_⟩
    rw [origin, matcher, cacheName, expiration, timeout, queue]

/-- What an entry leaves open is bounded by default. -/
theorem runtimeExpiration_runtimeCaching (given : Option Expiration) :
    runtimeExpiration .runtimeCaching given =
      some ⟨some ((given.bind (·.maxEntries)).getD 50),
        some ((given.bind (·.maxAgeSeconds)).getD 86400)⟩ := by
  obtain _ | ⟨_ | most, _ | seconds⟩ := given <;> rfl

/-- To carry out an entry succeeds just with the rule that does. -/
theorem runtimeRule_eq_ok_iff {entry : RuntimeEntry} {rule : CachingRule} :
    options.runtimeRule .runtimeCaching entry = .ok rule ↔ rule.OfEntry options entry := by
  simp only [runtimeRule, bind_eq_ok_iff, strategy_eq_ok_iff, pure, Except.pure,
    Except.ok.injEq, runtimeExpiration_runtimeCaching]
  constructor
  · rintro ⟨strategy, named, rfl⟩
    exact ⟨rfl, rfl, named, rfl, rfl, rfl, rfl⟩
  · intro ofEntry
    obtain ⟨_, _, strategy, _, _, _, _⟩ := rule
    obtain ⟨origin, matcher, named, cacheName, expiration, timeout, queue⟩ := ofEntry
    simp only at origin matcher named cacheName expiration timeout queue
    refine ⟨strategy, named, ?_⟩
    rw [origin, matcher, cacheName, expiration, timeout, queue]

theorem each_eq_ok_iff {α β : Type} {f : α → Except RuleError β} {items : List α}
    {results : List β} :
    each f items = .ok results ↔
      List.Forall₂ (fun item result => f item = .ok result) items results := by
  induction items generalizing results with
  | nil => simp [each, eq_comm]
  | cons item rest ih =>
      simp only [each, bind_eq_ok_iff, Except.ok.injEq, List.forall₂_cons_left_iff, ih]
      constructor
      · rintro ⟨result, made, others, more, rfl⟩
        exact ⟨result, others, made, more, rfl⟩
      · rintro ⟨result, others, made, more, rfl⟩
        exact ⟨result, made, others, more, rfl⟩

theorem exists_each_iff {α β : Type} {f : α → Except RuleError β} {items : List α} :
    (∃ results, each f items = .ok results) ↔ ∀ item ∈ items, ∃ result, f item = .ok result := by
  induction items with
  | nil => simp [each]
  | cons item rest ih =>
      rw [List.forall_mem_cons, ← ih]
      simp only [each, bind_eq_ok_iff]
      constructor
      · rintro ⟨_, result, made, others, more, -⟩
        exact ⟨⟨result, made⟩, others, more⟩
      · rintro ⟨⟨result, made⟩, others, more⟩
        exact ⟨_, result, made, others, more, rfl⟩

theorem hasCustomRules_eq_false_iff :
    options.hasCustomRules = false ↔ options.apiCachePatterns = [] ∧
      options.cachingStrategies = [] ∧ options.runtimeCaching = [] ∧
      options.backgroundSync = none := by
  simp [hasCustomRules, and_assoc]

theorem presetEntries_eq (options : Options) :
    options.presetEntries =
      if options.UsesPreset then Preset.recommendedEntries options.cacheNamePrefix else [] := by
  simp only [presetEntries, UsesPreset, ← hasCustomRules_eq_false_iff]
  cases options.preset with
  | auto => simp
  | recommended => simp
  | disabled => simp

/-- The recommended entries are made into the recommended rules. -/
theorem each_presetEntries (options : Options) :
    each (options.runtimeRule .preset) options.presetEntries =
      .ok (if options.UsesPreset then Preset.rules options.cacheNamePrefix else []) := by
  have post : Matcher.ofMethod "POST" = .method "POST" := by decide +kernel
  rw [presetEntries_eq]
  split
  · simp only [Preset.recommendedEntries, Preset.rules, Preset.entry, each, runtimeRule,
      Options.strategy, Strategy.named?_name, UrlPattern.toMatcher, post]
    rfl
  · rfl

/-- The rules of options are those that they are made into. -/
theorem rules_eq_ok_iff {rules : List CachingRule} :
    options.rules = .ok rules ↔ options.Assembles rules := by
  have post : Matcher.ofMethod "POST" = .method "POST" := by decide +kernel
  have sync : backgroundSyncRule = fun queue => {
      origin := .backgroundSync
      matcher := .method "POST"
      strategy := .networkOnly
      replayQueue := some queue } := by
    funext queue
    rw [backgroundSyncRule, post]
  simp only [Options.rules, bind_eq_ok_iff, each_presetEntries, pure, Except.pure,
    Except.ok.injEq, each_eq_ok_iff, strategyRule_eq_ok_iff, runtimeRule_eq_ok_iff]
  constructor
  · rintro ⟨strategies, ofPatterns, preset, rfl, runtime, ofEntries, rfl⟩
    refine ⟨⟨options.staticAssetsRule, options.apiCachePatterns.map options.apiRule, strategies, _,
      runtime, options.backgroundSync.toList.map backgroundSyncRule⟩, ?_, rfl⟩
    exact {
      assets := rfl
      api := rfl
      strategies := ofPatterns
      preset := rfl
      runtime := ofEntries
      sync := by rw [sync] }
  · rintro ⟨groups, ofOptions, rfl⟩
    refine ⟨groups.strategies, ofOptions.strategies, groups.preset, ofOptions.preset.symm,
      groups.runtime, ofOptions.runtime, ?_⟩
    rw [RuleGroups.rules, ofOptions.assets, ofOptions.api, ofOptions.sync, sync]
    rfl

/-- The rule set that has given rules, and the rest from options and pages. -/
def withRules (options : Options) (pathnames : List String) (rules : List CachingRule) :
    RuleSet where
  lifecycle := ⟨options.skipWaiting, options.clientsClaim, options.cleanupOutdatedCaches⟩
  includeBuildManifest := true
  precache := options.precacheManifest pathnames
  rules

/-- A plan succeeds with the rules of the options, if they are valid. -/
theorem plan_eq_ok_iff {pathnames : List String} {ruleSet : RuleSet} :
    options.plan pathnames = .ok ruleSet ↔ ∃ rules, options.Assembles rules ∧
      ValidRules rules ∧ options.withRules pathnames rules = ruleSet := by
  simp only [plan, bind_eq_ok_iff, rules_eq_ok_iff, pure, Except.pure, Except.ok.injEq]
  constructor
  · rintro ⟨rules, assembles, _, valid, same⟩
    exact ⟨rules, assembles, RuleSet.validate_eq_ok_iff.mp valid, same⟩
  · rintro ⟨rules, assembles, valid, same⟩
    exact ⟨rules, assembles, (), RuleSet.validate_eq_ok_iff.mpr valid, same⟩

/-- All that is made of options with a rule set. -/
def compilationOf (options : Options) (ruleSet : RuleSet) : Compilation where
  ruleSet
  program := (Program.ofRuleSet options ruleSet (Fingerprint.of options ruleSet)).text
  fingerprint := Fingerprint.of options ruleSet
  conflicts := ruleSet.conflicts

theorem validate_of_plan {pathnames : List String} {ruleSet : RuleSet}
    (planned : options.plan pathnames = .ok ruleSet) : ruleSet.validate = .ok () := by
  obtain ⟨rules, -, valid, rfl⟩ := plan_eq_ok_iff.mp planned
  exact RuleSet.validate_eq_ok_iff.mpr valid

/-- What is compiled is planned, and its program names the fingerprint of the plan. -/
theorem compile_eq_ok_iff {pathnames : List String} {compilation : Compilation} :
    options.compile pathnames = .ok compilation ↔ ∃ ruleSet,
      options.plan pathnames = .ok ruleSet ∧ options.compilationOf ruleSet = compilation := by
  simp only [compile, bind_eq_ok_iff, pure, Except.pure, Except.ok.injEq]
  rfl

end Options

/-! ## Single rules -/

/-- A rule that options are made into, with what it is made of. -/
inductive Options.Makes (options : Options) : CachingRule → Prop where
  | assets : options.Makes options.staticAssetsRule
  | api {pattern : String} (listed : pattern ∈ options.apiCachePatterns) :
      options.Makes (options.apiRule pattern)
  | pattern {pair : String × String} {rule : CachingRule}
      (listed : pair ∈ options.cachingStrategies)
      (ofPattern : rule.OfPattern options pair.1 pair.2) : options.Makes rule
  | preset {rule : CachingRule} (used : options.UsesPreset)
      (member : rule ∈ Preset.rules options.cacheNamePrefix) : options.Makes rule
  | entry {entry : RuntimeEntry} {rule : CachingRule} (listed : entry ∈ options.runtimeCaching)
      (ofEntry : rule.OfEntry options entry) : options.Makes rule
  | sync {queue : ReplayQueue} (given : options.backgroundSync = some queue) : options.Makes {
      origin := .backgroundSync
      matcher := .method "POST"
      strategy := .networkOnly
      replayQueue := some queue }

/-- Each of the rules that are made of a list is made of one of its items. -/
theorem exists_of_forall₂ {α β : Type} {Made : α → β → Prop} {items : List α} {made : List β}
    (all : List.Forall₂ Made items made) {result : β} (member : result ∈ made) :
    ∃ item ∈ items, Made item result := by
  induction all with
  | nil => cases member
  | cons first _ ih =>
      cases member with
      | head => exact ⟨_, List.mem_cons_self, first⟩
      | tail _ later =>
          obtain ⟨item, listed, made⟩ := ih later
          exact ⟨item, List.mem_cons_of_mem _ listed, made⟩

/-- Each rule comes from one group. -/
theorem Options.Assembles.makes {options : Options} {rules : List CachingRule}
    {rule : CachingRule} (assembles : options.Assembles rules) (member : rule ∈ rules) :
    options.Makes rule := by
  obtain ⟨groups, ofOptions, rfl⟩ := assembles
  simp only [RuleGroups.rules, List.cons_append, List.mem_cons, List.mem_append] at member
  obtain rfl | (((member | member) | member) | member) | member := member
  · rw [ofOptions.assets]
    exact .assets
  · rw [ofOptions.api, List.mem_map] at member
    obtain ⟨pattern, listed, rfl⟩ := member
    exact .api listed
  · obtain ⟨pair, listed, ofPattern⟩ := exists_of_forall₂ ofOptions.strategies member
    exact .pattern listed ofPattern
  · rw [ofOptions.preset] at member
    split at member
    · next used => exact .preset used member
    · cases member
  · obtain ⟨entry, listed, ofEntry⟩ := exists_of_forall₂ ofOptions.runtime member
    exact .entry listed ofEntry
  · rw [ofOptions.sync, List.mem_map] at member
    obtain ⟨queue, given, rfl⟩ := member
    exact .sync (Option.mem_toList.mp given)

/-! ## Well-formed rules -/

/-- A rule has what its strategy makes use of: a cache if it uses one, neither a cache nor
bounds if it asks the network alone, a timeout only if it asks the network first, and a
queue only if it asks the network alone. -/
structure CachingRule.WellFormed (rule : CachingRule) : Prop where
  named : rule.strategy.usesCache = true → rule.cacheName.isSome = true
  bare : rule.strategy = .networkOnly → rule.cacheName = none ∧ rule.expiration = none
  timed : rule.networkTimeoutSeconds.isSome = true → rule.strategy = .networkFirst
  replays : rule.replayQueue.isSome = true → rule.strategy = .networkOnly

theorem CachingRule.Usable.replays {rule : CachingRule} (usable : rule.Usable)
    (queued : rule.replayQueue.isSome = true) : rule.strategy = .networkOnly := by
  obtain ⟨queue, named⟩ := Option.isSome_iff_exists.mp queued
  exact usable.queue queue named

namespace Options

variable {options : Options} {rule : CachingRule}

theorem wellFormed_of_ofPattern {pattern handler : String}
    (ofPattern : rule.OfPattern options pattern handler) (usable : rule.Usable) :
    rule.WellFormed := by
  constructor
  · intro uses
    rw [ofPattern.cacheName, if_pos uses]
    rfl
  · intro alone
    refine ⟨?_, ofPattern.expiration⟩
    rw [ofPattern.cacheName, alone]
    rfl
  · intro timed
    rw [ofPattern.networkTimeout] at timed
    cases timed
  · exact usable.replays

theorem wellFormed_of_ofEntry {entry : RuntimeEntry} (ofEntry : rule.OfEntry options entry)
    (usable : rule.Usable) : rule.WellFormed := by
  constructor
  · intro uses
    rw [ofEntry.cacheName, if_pos uses]
    rfl
  · intro alone
    rw [ofEntry.cacheName, ofEntry.expiration, alone]
    exact ⟨rfl, rfl⟩
  · intro timed
    rw [ofEntry.networkTimeout] at timed
    by_contra other
    rw [if_neg other] at timed
    cases timed
  · exact usable.replays

/-- The recommended rules are well-formed as they are written. -/
theorem wellFormed_preset {cacheNamePrefix : String}
    (member : rule ∈ Preset.rules cacheNamePrefix) : rule.WellFormed := by
  simp only [Preset.rules, List.mem_cons, List.not_mem_nil, or_false] at member
  obtain rfl | rfl | rfl | rfl | rfl := member <;>
    exact ⟨by simp [Strategy.usesCache], by simp, by simp, by simp⟩

theorem Makes.wellFormed (makes : options.Makes rule) (usable : rule.Usable) :
    rule.WellFormed := by
  cases makes with
  | assets => constructor <;> simp [staticAssetsRule]
  | api listed => constructor <;> simp [apiRule]
  | pattern listed ofPattern => exact wellFormed_of_ofPattern ofPattern usable
  | preset used member => exact wellFormed_preset member
  | entry listed ofEntry => exact wellFormed_of_ofEntry ofEntry usable
  | sync given => constructor <;> simp [Strategy.usesCache]

/-- Rules that options are made into are well-formed once each of them can be used. -/
theorem Assembles.wellFormed {rules : List CachingRule} (assembles : options.Assembles rules)
    (usable : ∀ rule ∈ rules, rule.Usable) : ∀ rule ∈ rules, rule.WellFormed := by
  intro rule member
  exact (assembles.makes member).wellFormed (usable rule member)

/-- What a plan is made of.  If options and pages have a plan, its rules are the groups that
the options are made into, one after the other, and every rule is well-formed. -/
theorem plan_assembles {pathnames : List String} {ruleSet : RuleSet}
    (planned : options.plan pathnames = .ok ruleSet) :
    options.Assembles ruleSet.rules ∧ ∀ rule ∈ ruleSet.rules, rule.WellFormed := by
  obtain ⟨rules, assembles, valid, rfl⟩ := plan_eq_ok_iff.mp planned
  exact ⟨assembles, assembles.wellFormed valid.usable⟩

/-- Options that bound a cache for forms in time only, and queue what could not be sent. -/
def forms : Options where
  preset := .recommended
  runtimeCaching := [⟨.matching (.pathPrefix "/form"), "NetworkFirst",
    { expiration := some ⟨none, some 60⟩ }⟩]
  backgroundSync := some ⟨"forms", 60⟩

theorem plan_assembles_forms :
    ∃ ruleSet, forms.plan [] = .ok ruleSet ∧ forms.Assembles ruleSet.rules ∧
      ∀ rule ∈ ruleSet.rules, rule.WellFormed := by
  have planned : ∃ ruleSet, forms.plan [] = .ok ruleSet := ⟨_, rfl⟩
  obtain ⟨ruleSet, planned⟩ := planned
  exact ⟨ruleSet, planned, plan_assembles planned⟩

end Options

end CachePolicy
