import CachePolicy.Config.Effective
import CachePolicy.Proofs.Files.Running
import CachePolicy.Proofs.Policy.Assembly

/-!
# Names in a configuration

A configuration takes effect only once its options are checked.  The prefix of caches, the name
of the worker's file and the name of the queue for forms are looked at; what an entry for runtime
caching names is not.  The caches and queues of a plan therefore have names, but for those whose
name such an entry leaves empty.
-/

namespace CachePolicy

open Files

/-! ## Options that may take effect -/

/-- What is checked of options before they take effect. -/
structure Options.Checked (options : Options) : Prop where
  cacheNamePrefix : options.cacheNamePrefix ≠ ""
  swName : isPlainName options.swName = true
  backgroundSync : ∀ queue, options.backgroundSync = some queue → queue.name ≠ ""
  workboxUrl : options.workboxUrl ≠ ""

theorem Options.check_eq_ok_iff {options checked : Options} :
    options.check = .ok checked ↔ options.Checked ∧ checked = options := by
  rw [check]
  constructor
  · intro passed
    split at passed
    · cases passed
    · next prefixed =>
        split at passed
        · cases passed
        · next plain =>
            split at passed
            · cases passed
            · next named =>
                split at passed
                · cases passed
                · next linked =>
                    refine ⟨⟨by simpa using prefixed, by simpa using plain, ?_,
                      by simpa using linked⟩, (Except.ok.inj passed).symm⟩
                    intro queue given
                    simpa [given] using named
  · rintro ⟨⟨prefixed, plain, named, linked⟩, rfl⟩
    have queued : checked.backgroundSync.any (·.name.isEmpty) = false := by
      cases given : checked.backgroundSync with
      | none => rfl
      | some queue => simpa using named queue given
    simp [prefixed, plain, queued, linked]

namespace EffectiveConfig

theorem exists_ofLayers_of_load {files : Files} {path : Option Path} {overrides : Option Json}
    {effective : EffectiveConfig}
    (loaded : ((load path overrides : StateM Files _) files).1 = .ok effective) :
    ∃ layers, ofLayers layers = .ok effective := by
  cases path with
  | none =>
      unfold load at loaded
      simp only [bind_apply, pure_apply] at loaded
      exact ⟨_, loaded⟩
  | some path =>
      unfold load at loaded
      simp only [bind_apply, pure_apply] at loaded
      obtain ⟨layers, -, made⟩ := bind_eq_ok_iff.mp loaded
      exact ⟨_, made⟩

/-- A configuration is loaded only with options that may take effect. -/
theorem checked_of_load {files : Files} {path : Option Path} {overrides : Option Json}
    {effective : EffectiveConfig}
    (loaded : ((load path overrides : StateM Files _) files).1 = .ok effective) :
    effective.options.Checked := by
  obtain ⟨layers, made⟩ := exists_ofLayers_of_load loaded
  simp only [ofLayers, bind_eq_ok_iff] at made
  obtain ⟨options, -, checked, passed, same⟩ := made
  obtain ⟨check, rfl⟩ := Options.check_eq_ok_iff.mp passed
  cases same
  exact check

/-- What is given by hand is a configuration on its own, once its options pass. -/
theorem load_overrides {files : Files} {overrides : Json} {options : Options}
    (decoded : Options.decode (Layers.merge [Options.builtin, overrides]) = .ok options)
    (checked : options.check = .ok options) :
    ((load none (some overrides) : StateM Files _) files).1 =
      .ok ⟨Layers.merge [Options.builtin, overrides], [⟨.builtin, none⟩, ⟨.cli, none⟩],
        options⟩ := by
  unfold load
  simp only [bind_apply, pure_apply]
  change ofLayers [cliLayer overrides] = _
  simp only [ofLayers, cliLayer, List.map_cons, List.map_nil, decoded]
  change options.check >>= _ = _
  rw [checked]
  rfl

end EffectiveConfig

/-! ## Rules with names -/

/-- The cache that a rule works on and the queue that it leaves requests in have names. -/
structure CachingRule.Named (rule : CachingRule) : Prop where
  cache : rule.partition ≠ some ""
  queue : ∀ queue, rule.replayQueue = some queue → queue.name ≠ ""

namespace RuntimeEntry

/-- An entry leaves the name of its cache empty, and its strategy uses the cache. -/
def LeavesCacheUnnamed (entry : RuntimeEntry) : Prop :=
  entry.options.cacheName = some "" ∧
    ∃ strategy, Strategy.named? entry.handler = some strategy ∧ strategy.usesCache = true

/-- An entry leaves the name of its queue empty. -/
def LeavesQueueUnnamed (entry : RuntimeEntry) : Prop :=
  ∃ queue, entry.options.backgroundSync = some queue ∧ queue.name = ""

end RuntimeEntry

namespace CachingRule

variable {options : Options} {rule : CachingRule} {entry : RuntimeEntry}

theorem partition_eq_some_iff_usesCache {name : String} :
    rule.partition = some name ↔ rule.strategy.usesCache = true ∧ rule.cacheName = some name := by
  rw [partition]
  split
  · next uses => simp [uses]
  · next leaves => simp [leaves]

/-- The cache of an entry is unnamed just when the entry leaves it so. -/
theorem OfEntry.partition_eq_empty_iff (ofEntry : rule.OfEntry options entry) :
    rule.partition = some "" ↔ entry.LeavesCacheUnnamed := by
  have named := Strategy.named?_eq_some_iff.mpr ofEntry.strategy
  rw [partition_eq_some_iff_usesCache, ofEntry.cacheName, RuntimeEntry.LeavesCacheUnnamed, named]
  simp only [Option.some.injEq, exists_eq_left']
  cases uses : rule.strategy.usesCache with
  | false => simp
  | true =>
      cases given : entry.options.cacheName with
      | none => simp [toString]
      | some name => simp

/-- The queue of an entry is unnamed just when the entry leaves it so. -/
theorem OfEntry.exists_unnamed_iff (ofEntry : rule.OfEntry options entry) :
    (∃ queue, rule.replayQueue = some queue ∧ queue.name = "") ↔ entry.LeavesQueueUnnamed := by
  rw [ofEntry.replayQueue, RuntimeEntry.LeavesQueueUnnamed]

theorem OfPattern.named {pattern handler : String}
    (ofPattern : rule.OfPattern options pattern handler) : rule.Named where
  cache unnamed := by
    obtain ⟨uses, unnamed⟩ := partition_eq_some_iff_usesCache.mp unnamed
    rw [ofPattern.cacheName, if_pos uses] at unnamed
    simp [toString] at unnamed
  queue queue given := by
    rw [ofPattern.replayQueue] at given
    cases given

/-- The recommended rules have names, as the queue is named after the prefix. -/
theorem named_of_mem_preset {cacheNamePrefix : String}
    (member : rule ∈ Preset.rules cacheNamePrefix) : rule.Named := by
  simp only [Preset.rules, List.mem_cons, List.not_mem_nil, or_false] at member
  obtain rfl | rfl | rfl | rfl | rfl := member <;>
    exact ⟨by simp [partition, Strategy.usesCache], by simp [toString]⟩

end CachingRule

namespace Options

variable {options : Options} {rules : List CachingRule} {rule : CachingRule}

/-- Every rule has names, but for those of entries for runtime caching. -/
theorem Assembles.named (assembles : options.Assembles rules) (checked : options.Checked)
    (member : rule ∈ rules) :
    rule.Named ∨ ∃ entry ∈ options.runtimeCaching, rule.OfEntry options entry := by
  cases assembles.makes member with
  | assets =>
      exact .inl ⟨by simp [staticAssetsRule, CachingRule.partition, Strategy.usesCache, toString],
        by simp [staticAssetsRule]⟩
  | api listed =>
      exact .inl ⟨by simp [apiRule, CachingRule.partition, Strategy.usesCache, toString],
        by simp [apiRule]⟩
  | pattern listed ofPattern => exact .inl ofPattern.named
  | preset used member => exact .inl (CachingRule.named_of_mem_preset member)
  | entry listed ofEntry => exact .inr ⟨_, listed, ofEntry⟩
  | sync given =>
      have named := checked.backgroundSync _ given
      exact .inl ⟨by simp [CachingRule.partition, Strategy.usesCache], by simpa using named⟩

/-- Every entry for runtime caching has a rule. -/
theorem Assembles.exists_ofEntry (assembles : options.Assembles rules) {entry : RuntimeEntry}
    (member : entry ∈ options.runtimeCaching) : ∃ rule ∈ rules, rule.OfEntry options entry := by
  obtain ⟨groups, ofOptions, rfl⟩ := assembles
  obtain ⟨rule, listed, ofEntry⟩ := exists_of_forall₂ ofOptions.runtime.flip member
  refine ⟨rule, ?_, ofEntry⟩
  simp only [RuleGroups.rules, List.mem_append]
  exact .inl (.inr listed)

end Options

/-! ## Plans of a configuration -/

/-- What has no name in a plan of a loaded configuration.  A cache has none just when an entry
for runtime caching whose strategy uses it leaves its name empty, and a queue just when such an
entry leaves the name of its queue empty.  The rules that come from anywhere else have names. -/
theorem EffectiveConfig.unnamed_iff {files : Files} {path : Option Path}
    {overrides : Option Json} {effective : EffectiveConfig}
    (loaded : ((EffectiveConfig.load path overrides : StateM Files _) files).1 = .ok effective)
    {pathnames : List String} {ruleSet : RuleSet}
    (planned : effective.options.plan pathnames = .ok ruleSet) :
    ("" ∈ ruleSet.declaredCacheNames ↔
        ∃ entry ∈ effective.options.runtimeCaching, entry.LeavesCacheUnnamed) ∧
      ((∃ queue ∈ ruleSet.replayQueues, queue.name = "") ↔
        ∃ entry ∈ effective.options.runtimeCaching, entry.LeavesQueueUnnamed) ∧
      ∀ rule ∈ ruleSet.rules, rule.origin ≠ .runtimeCaching → rule.Named := by
  have checked := EffectiveConfig.checked_of_load loaded
  obtain ⟨rules, assembles, -, rfl⟩ := Options.plan_eq_ok_iff.mp planned
  refine ⟨⟨?_, ?_⟩, ⟨?_, ?_⟩, ?_⟩
  · intro declared
    obtain ⟨rule, member, unnamed⟩ := RuleSet.exists_of_mem_declaredCacheNames declared
    obtain named | ⟨entry, listed, ofEntry⟩ := assembles.named checked member
    · exact absurd unnamed named.cache
    · exact ⟨entry, listed, ofEntry.partition_eq_empty_iff.mp unnamed⟩
  · rintro ⟨entry, listed, leaves⟩
    obtain ⟨rule, member, ofEntry⟩ := assembles.exists_ofEntry listed
    exact RuleSet.mem_declaredCacheNames member (ofEntry.partition_eq_empty_iff.mpr leaves)
  · rintro ⟨queue, waits, unnamed⟩
    obtain ⟨rule, member, given⟩ := List.mem_filterMap.mp waits
    obtain named | ⟨entry, listed, ofEntry⟩ := assembles.named checked member
    · exact absurd unnamed (named.queue queue given)
    · exact ⟨entry, listed, ofEntry.exists_unnamed_iff.mp ⟨queue, given, unnamed⟩⟩
  · rintro ⟨entry, listed, leaves⟩
    obtain ⟨rule, member, ofEntry⟩ := assembles.exists_ofEntry listed
    obtain ⟨queue, given, unnamed⟩ := ofEntry.exists_unnamed_iff.mpr leaves
    exact ⟨queue, List.mem_filterMap.mpr ⟨rule, member, given⟩, unnamed⟩
  · intro rule member other
    obtain named | ⟨entry, listed, ofEntry⟩ := assembles.named checked member
    · exact named
    · exact absurd ofEntry.origin other

/-- Entries that leave unnamed only a cache for which their strategy has no use. -/
def Json.namedOnUse : Json :=
  .obj [("preset", .str "recommended"), ("runtimeCaching", .arr
    [.obj [("urlPattern", .str "/x"), ("handler", .str "CacheFirst")],
      .obj [("urlPattern", .str "/x"), ("handler", .str "NetworkOnly"), ("options",
        .obj [("cacheName", .str ""), ("backgroundSync", .obj [("name", .str "outbox")])])]])]

/-- The options that these entries make. -/
def Options.namedOnUse : Options where
  preset := .recommended
  runtimeCaching := [⟨.regex "/x", "CacheFirst", {}⟩,
    ⟨.regex "/x", "NetworkOnly", { cacheName := some "", backgroundSync := some ⟨"outbox", 1440⟩ }⟩]

/-- The empty name is not that of a cache, as no strategy stores under it. -/
theorem EffectiveConfig.unnamed_iff_namedOnUse :
    ∃ effective ruleSet,
      ((EffectiveConfig.load none (some .namedOnUse) : StateM Files _) ⟨.empty, []⟩).1 =
        .ok effective ∧
      effective.options = .namedOnUse ∧ effective.options.plan [] = .ok ruleSet ∧
      "" ∉ ruleSet.declaredCacheNames ∧ ∀ queue ∈ ruleSet.replayQueues, queue.name ≠ "" := by
  have decoded : Options.decode (Layers.merge [Options.builtin, Json.namedOnUse]) =
    .ok Options.namedOnUse := rfl
  have loaded := @EffectiveConfig.load_overrides ⟨.empty, []⟩ _ _ decoded rfl
  obtain ⟨ruleSet, planned⟩ : ∃ ruleSet, Options.namedOnUse.plan [] = .ok ruleSet := ⟨_, rfl⟩
  obtain ⟨cache, queue, -⟩ := EffectiveConfig.unnamed_iff loaded planned
  refine ⟨_, ruleSet, loaded, rfl, planned, ?_, ?_⟩
  · rw [cache]
    rintro ⟨entry, listed, unnamed, strategy, named, uses⟩
    simp only [Options.namedOnUse, List.mem_cons, List.not_mem_nil, or_false] at listed
    obtain rfl | rfl := listed
    · cases unnamed
    · cases named
      cases uses
  · intro waiting listed unnamed
    obtain ⟨entry, listed, given, waits, empty⟩ := queue.mp ⟨waiting, listed, unnamed⟩
    simp only [Options.namedOnUse, List.mem_cons, List.not_mem_nil, or_false] at listed
    obtain rfl | rfl := listed
    · cases waits
    · cases waits
      exact absurd empty (by decide)

/-- Entries that leave the names of a cache and of a queue empty. -/
def Json.unnamed : Json :=
  .obj [("preset", .str "none"), ("runtimeCaching", .arr
    [.obj [("urlPattern", .str "/x"), ("handler", .str "CacheFirst"), ("options",
        .obj [("cacheName", .str "")])],
      .obj [("urlPattern", .str "/y"), ("handler", .str "NetworkOnly"), ("options",
        .obj [("backgroundSync", .obj [("name", .str "")])])]])]

/-- The options that these entries make. -/
def Options.unnamed : Options where
  preset := .disabled
  runtimeCaching := [⟨.regex "/x", "CacheFirst", { cacheName := some "" }⟩,
    ⟨.regex "/y", "NetworkOnly", { backgroundSync := some ⟨"", 1440⟩ }⟩]

/-- The empty name passes for a queue of an entry, and so for the cache of one, though not for
the queue for forms. -/
theorem EffectiveConfig.unnamed_loaded :
    ∃ effective ruleSet,
      ((EffectiveConfig.load none (some .unnamed) : StateM Files _) ⟨.empty, []⟩).1 =
        .ok effective ∧
      effective.options = .unnamed ∧ effective.options.plan [] = .ok ruleSet ∧
      "" ∈ ruleSet.declaredCacheNames ∧ (∃ queue ∈ ruleSet.replayQueues, queue.name = "") ∧
      { Options.unnamed with backgroundSync := some ⟨"", 1440⟩ }.check =
        .error (.emptySyncName) := by
  have decoded : Options.decode (Layers.merge [Options.builtin, Json.unnamed]) =
    .ok Options.unnamed := rfl
  have loaded := @EffectiveConfig.load_overrides ⟨.empty, []⟩ _ _ decoded rfl
  obtain ⟨ruleSet, planned, declared, waits⟩ : ∃ ruleSet, Options.unnamed.plan [] = .ok ruleSet ∧
      "" ∈ ruleSet.declaredCacheNames ∧ ∃ queue ∈ ruleSet.replayQueues, queue.name = "" :=
    ⟨_, rfl, by decide, by decide⟩
  exact ⟨_, ruleSet, loaded, rfl, planned, declared, waits, rfl⟩

end CachePolicy
