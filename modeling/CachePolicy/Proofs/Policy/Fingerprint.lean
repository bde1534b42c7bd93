import CachePolicy.Policy.Compile
import CachePolicy.Proofs.Decimal.Whole
import CachePolicy.Proofs.Json.Canonical
import CachePolicy.Proofs.Policy.Assembly
import CachePolicy.Proofs.Policy.Determined
import Mathlib.Data.Bool.Basic

/-!
# What a fingerprint covers

The canonical text that is digested tells everything that shapes a program but one thing: counts
of seconds and minutes beyond 2 ^ 53 are written as the doubles next to them, so that some
different counts are written the same.
-/

namespace CachePolicy

/-! ## Single values -/

namespace Json

theorem canonical_str_injective : Function.Injective fun text => (str text).canonical :=
  quoted_injective

theorem canonical_bool_injective : Function.Injective fun b => (bool b).canonical :=
  Bool.injective_iff.mpr (by decide)

theorem canonical_num_inj {n m : Number} :
    (num n).canonical = (num m).canonical ↔ canonicalNumber n = canonicalNumber m :=
  String.ofList_inj

theorem strs_canonical_injective : Function.Injective fun texts => (strs texts).canonical := by
  intro texts others same
  have items := canonical_arr_inj.mp same
  rw [List.map_map, List.map_map] at items
  exact canonical_str_injective.list_map items

end Json

theorem Lifecycle.canonical_injective :
    Function.Injective fun lifecycle : Lifecycle => lifecycle.toJson.canonical := by
  intro first second same
  have parts := Json.fields_of_obj
    (show ["skipWaiting", "clientsClaim", "cleanupOutdatedCaches"].Nodup by decide) rfl rfl same
  simp only [List.map_cons, List.map_nil, List.cons.injEq, and_true] at parts
  obtain ⟨skip, claim, cleanup⟩ := parts
  cases first
  cases second
  rw [Lifecycle.mk.injEq]
  exact ⟨Json.canonical_bool_injective skip, Json.canonical_bool_injective claim,
    Json.canonical_bool_injective cleanup⟩

theorem PrecacheEntry.canonical_injective :
    Function.Injective fun entry : PrecacheEntry => entry.toJson.canonical := by
  intro first second same
  have parts := Json.fields_of_obj (show ["url", "revision"].Nodup by decide) rfl rfl same
  simp only [List.map_cons, List.map_nil, List.cons.injEq, and_true] at parts
  obtain ⟨url, revision⟩ := parts
  have urls := Json.canonical_str_injective url
  cases first with
  | mk firstUrl firstRevision =>
  cases second with
  | mk secondUrl secondRevision =>
  cases firstRevision with
  | none =>
      cases secondRevision with
      | none => rw [PrecacheEntry.mk.injEq]; exact ⟨urls, rfl⟩
      | some mark =>
          exact absurd (show 'n' = '"' from Json.mark_eq_of_canonical revision) (by decide)
  | some mark =>
      cases secondRevision with
      | none => exact absurd (show '"' = 'n' from Json.mark_eq_of_canonical revision) (by decide)
      | some otherMark =>
          rw [PrecacheEntry.mk.injEq, Json.canonical_str_injective revision]
          exact ⟨urls, rfl⟩

theorem PrecacheManifest.canonical_injective :
    Function.Injective fun manifest : PrecacheManifest => manifest.toJson.canonical := by
  intro first second same
  have items := Json.canonical_arr_inj.mp same
  rw [List.map_map, List.map_map] at items
  have entries := PrecacheEntry.canonical_injective.list_map items
  obtain ⟨_⟩ := first
  obtain ⟨_⟩ := second
  congr 1

theorem Strategy.name_injective : Function.Injective Strategy.name := by
  intro first second same
  have found := named?_name first
  rw [same, named?_name] at found
  exact (Option.some.inj found).symm

theorem RuleOrigin.name_injective : Function.Injective RuleOrigin.name := by
  intro first second same
  cases first <;> cases second <;> first | rfl | exact absurd same (by decide)

theorem Matcher.canonical_injective :
    Function.Injective fun matcher : Matcher => matcher.toJson.canonical := by
  intro first second same
  cases first <;> cases second
  case destination.destination destinations others =>
    have parts := Json.fields_of_obj (show ["type", "destinations"].Nodup by decide) rfl rfl same
    simp only [List.map_cons, List.map_nil, List.cons.injEq, and_true, true_and] at parts
    have items := Json.canonical_arr_inj.mp parts
    rw [List.map_map, List.map_map] at items
    rw [(Json.canonical_str_injective.comp Destination.name_injective).list_map items]
  case pathPrefix.pathPrefix start other =>
    have parts := Json.fields_of_obj (show ["type", "prefix"].Nodup by decide) rfl rfl same
    simp only [List.map_cons, List.map_nil, List.cons.injEq, and_true, true_and] at parts
    rw [Json.canonical_str_injective parts]
  case method.method name other =>
    have parts := Json.fields_of_obj (show ["type", "method"].Nodup by decide) rfl rfl same
    simp only [List.map_cons, List.map_nil, List.cons.injEq, and_true, true_and] at parts
    rw [Json.canonical_str_injective parts]
  case extensions.extensions ends others =>
    have parts := Json.fields_of_obj (show ["type", "extensions"].Nodup by decide) rfl rfl same
    simp only [List.map_cons, List.map_nil, List.cons.injEq, and_true, true_and] at parts
    rw [Json.strs_canonical_injective parts]
  case pattern.pattern source target other otherTarget =>
    have parts := Json.fields_of_obj (show ["type", "pattern", "target"].Nodup by decide) rfl rfl
      same
    simp only [List.map_cons, List.map_nil, List.cons.injEq, and_true, true_and] at parts
    rw [Json.canonical_str_injective parts.1,
      PatternTarget.name_injective (Json.canonical_str_injective parts.2)]
  -- Matchers of different kinds have different types, wherever these stand in the text.
  all_goals
    have other := (Json.perm_of_obj same).mem_iff.mp List.mem_cons_self
    simp [Json.canonical_str_injective.eq_iff] at other

/-! ## Counts -/

/-- Two counts that have one canonical text. -/
def SameRounded (n m : UInt64) : Prop :=
  Json.canonicalNumber (.int n.toNat) = Json.canonicalNumber (.int m.toNat)

instance (n m : UInt64) : Decidable (SameRounded n m) := inferInstanceAs (Decidable (_ = _))

/-- Counts up to 2 ^ 53 are told apart. -/
theorem SameRounded.eq {n m : UInt64} (same : SameRounded n m) (exact : n.toNat ≤ 2 ^ 53)
    (otherExact : m.toNat ≤ 2 ^ 53) : n = m :=
  UInt64.toNat_inj.mp (Json.canonicalNumber_nat_inj exact otherExact same)

section Exactly

variable {first second : Option UInt64}

theorem eq_of_rel (relation : Option.Rel SameRounded first second)
    (exactly : ∀ n ∈ first, n.toNat ≤ 2 ^ 53) (otherExactly : ∀ n ∈ second, n.toNat ≤ 2 ^ 53) :
    first = second := by
  cases relation with
  | none => rfl
  | some same => rw [same.eq (exactly _ rfl) (otherExactly _ rfl)]

/-- Counts that are not zero are told apart as well, since zero is no large count. -/
theorem filter_eq_of_rel (relation : Option.Rel SameRounded first second)
    (exactly : ∀ n ∈ first.filter (0 < ·), n.toNat ≤ 2 ^ 53)
    (otherExactly : ∀ n ∈ second.filter (0 < ·), n.toNat ≤ 2 ^ 53) :
    first.filter (0 < ·) = second.filter (0 < ·) := by
  have all {count : Option UInt64} (exactly : ∀ n ∈ count.filter (0 < ·), n.toNat ≤ 2 ^ 53) :
      ∀ n ∈ count, n.toNat ≤ 2 ^ 53 := by
    rintro n rfl
    by_cases positive : 0 < n
    · exact exactly n (by simp [positive])
    · rw [UInt64.lt_iff_toNat_lt] at positive
      exact (Nat.le_of_not_lt positive).trans (Nat.zero_le _)
  rw [eq_of_rel relation (all exactly) (all otherExactly)]

end Exactly

section Relations

variable {α β : Type} {f : α → β} {related : α → α → Prop}

theorem optionRel_of_map_eq (tells : ∀ a b, f a = f b → related a b) {first second : Option α}
    (same : first.map f = second.map f) : Option.Rel related first second := by
  cases first with
  | none =>
      cases second with
      | none => exact .none
      | some b => cases same
  | some a =>
      cases second with
      | none => cases same
      | some b => exact .some (tells a b (Option.some.inj same))

theorem forall₂_of_map_eq (tells : ∀ a b, f a = f b → related a b) {items others : List α}
    (same : items.map f = others.map f) : List.Forall₂ related items others := by
  have texts := List.forall₂_eq_eq_eq ▸ same
  rw [List.forall₂_map_left_iff, List.forall₂_map_right_iff] at texts
  exact texts.imp tells

theorem bind_eq_of_rel {bound : α → Option β} {first second : Option α}
    (relation : Option.Rel related first second)
    (same : ∀ a ∈ first, ∀ b ∈ second, related a b → bound a = bound b) :
    first.bind bound = second.bind bound := by
  cases relation with
  | none => rfl
  | some given => exact same _ rfl _ rfl given

end Relations

/-- Bounds that are the same but for ages of one canonical text. -/
structure Expiration.SameRounded (bounds other : Expiration) : Prop where
  maxEntries : bounds.maxEntries = other.maxEntries
  maxAgeSeconds : Option.Rel CachePolicy.SameRounded bounds.maxAgeSeconds other.maxAgeSeconds

/-- Queues that are the same but for retentions of one canonical text. -/
structure ReplayQueue.SameRounded (queue other : ReplayQueue) : Prop where
  name : queue.name = other.name
  maxRetentionMinutes :
    CachePolicy.SameRounded queue.maxRetentionMinutes other.maxRetentionMinutes

/-- Rules that are the same but for counts of one canonical text. -/
structure CachingRule.SameRounded (rule other : CachingRule) : Prop where
  origin : rule.origin = other.origin
  matcher : rule.matcher = other.matcher
  strategy : rule.strategy = other.strategy
  cacheName : rule.cacheName = other.cacheName
  expiration : Option.Rel Expiration.SameRounded rule.expiration other.expiration
  networkTimeoutSeconds :
    Option.Rel CachePolicy.SameRounded rule.networkTimeoutSeconds other.networkTimeoutSeconds
  replayQueue : Option.Rel ReplayQueue.SameRounded rule.replayQueue other.replayQueue

/-- Policies that are the same but for counts of one canonical text. -/
structure RuleSet.SameRounded (ruleSet other : RuleSet) : Prop where
  lifecycle : ruleSet.lifecycle = other.lifecycle
  includeBuildManifest : ruleSet.includeBuildManifest = other.includeBuildManifest
  precache : ruleSet.precache = other.precache
  rules : List.Forall₂ CachingRule.SameRounded ruleSet.rules other.rules

theorem Expiration.sameRounded_of_canonical {bounds other : Expiration}
    (same : bounds.toJson.canonical = other.toJson.canonical) : bounds.SameRounded other := by
  have parts := Json.members_of_obj (show ["maxEntries", "maxAgeSeconds"].Nodup by decide) rfl rfl
    same
  simp only [List.map_cons, List.map_nil, List.cons.injEq, and_true, Option.map_map] at parts
  obtain ⟨entries, age⟩ := parts
  constructor
  · apply Option.map_injective _ entries
    intro n m written
    have exact (n : UInt32) : n.toNat ≤ 2 ^ 53 := n.toNat_lt.le.trans (by decide)
    exact UInt32.toNat_inj.mp
      (Json.canonicalNumber_nat_inj (exact n) (exact m) (Json.canonical_num_inj.mp written))
  · exact optionRel_of_map_eq (fun _ _ => Json.canonical_num_inj.mp) age

theorem ReplayQueue.sameRounded_of_canonical {queue other : ReplayQueue}
    (same : queue.toJson.canonical = other.toJson.canonical) : queue.SameRounded other := by
  have parts := Json.fields_of_obj (show ["name", "maxRetentionMinutes"].Nodup by decide) rfl rfl
    same
  simp only [List.map_cons, List.map_nil, List.cons.injEq, and_true] at parts
  exact ⟨Json.canonical_str_injective parts.1, Json.canonical_num_inj.mp parts.2⟩

/-- The members of a rule as JSON. -/
def CachingRule.members (rule : CachingRule) : List (String × Option Json) :=
  [("origin", some (.str rule.origin.name)), ("matcher", some rule.matcher.toJson),
    ("strategy", some rule.strategy.toJson), ("cacheName", rule.cacheName.map .str),
    ("expiration", rule.expiration.map (·.toJson)),
    ("networkTimeoutSeconds", rule.networkTimeoutSeconds.map fun n => Json.nat n.toNat),
    ("replayQueue", rule.replayQueue.map (·.toJson))]

theorem CachingRule.toJson_eq (rule : CachingRule) :
    rule.toJson = .obj (Json.present rule.members) := rfl

theorem CachingRule.sameRounded_of_canonical {rule other : CachingRule}
    (same : rule.toJson.canonical = other.toJson.canonical) : rule.SameRounded other := by
  rw [toJson_eq, toJson_eq] at same
  have parts := Json.members_of_obj (show ["origin", "matcher", "strategy", "cacheName",
    "expiration", "networkTimeoutSeconds", "replayQueue"].Nodup by decide) rfl rfl same
  simp only [members, List.map_cons, List.map_nil, List.cons.injEq, and_true, Option.map_map,
    Option.map_some, Option.some.injEq] at parts
  obtain ⟨origin, matcher, strategy, cache, expiration, timeout, queue⟩ := parts
  exact {
    origin := RuleOrigin.name_injective (Json.canonical_str_injective origin)
    matcher := Matcher.canonical_injective matcher
    strategy := Strategy.name_injective (Json.canonical_str_injective strategy)
    cacheName := Option.map_injective Json.canonical_str_injective cache
    expiration :=
      optionRel_of_map_eq (fun _ _ => Expiration.sameRounded_of_canonical) expiration
    networkTimeoutSeconds := optionRel_of_map_eq (fun _ _ => Json.canonical_num_inj.mp) timeout
    replayQueue := optionRel_of_map_eq (fun _ _ => ReplayQueue.sameRounded_of_canonical) queue }

theorem RuleSet.sameRounded_of_canonical {ruleSet other : RuleSet}
    (same : ruleSet.toJson.canonical = other.toJson.canonical) : ruleSet.SameRounded other := by
  have parts := Json.fields_of_obj (show ["lifecycle", "includeBuildManifest", "precache",
    "rules"].Nodup by decide) rfl rfl same
  simp only [List.map_cons, List.map_nil, List.cons.injEq, and_true] at parts
  obtain ⟨lifecycle, build, precache, rules⟩ := parts
  have listed := Json.canonical_arr_inj.mp rules
  rw [List.map_map, List.map_map] at listed
  exact {
    lifecycle := Lifecycle.canonical_injective lifecycle
    includeBuildManifest := Json.canonical_bool_injective build
    precache := PrecacheManifest.canonical_injective precache
    rules := forall₂_of_map_eq (fun _ _ => CachingRule.sameRounded_of_canonical) listed }

theorem Options.shown_of_canonical {options other : Options}
    (same : options.toJson.canonical = other.toJson.canonical) :
    options.workboxUrl = other.workboxUrl ∧ options.debug = other.debug := by
  have distinct : (({} : Options).members.map (·.1)).Nodup := by decide
  have named (options : Options) :
      options.members.map (·.1) = ({} : Options).members.map (·.1) := rfl
  have parts := Json.members_of_obj distinct (named options) (named other) same
  simp only [members, List.map_cons, List.map_nil, List.cons.injEq, and_true, Option.map_some,
    Option.some.injEq] at parts
  obtain ⟨-, -, -, -, -, -, -, -, -, -, -, -, debug, url, -⟩ := parts
  exact ⟨Json.canonical_str_injective url, Json.canonical_bool_injective debug⟩

theorem Fingerprint.told_of_text_eq {options other : Options} {ruleSet otherRuleSet : RuleSet}
    (same : text options ruleSet = text other otherRuleSet) :
    options.workboxUrl = other.workboxUrl ∧ options.debug = other.debug ∧
      ruleSet.SameRounded otherRuleSet := by
  have parts := Json.fields_of_obj (show ["options", "rule_set"].Nodup by decide) rfl rfl same
  simp only [List.map_cons, List.map_nil, List.cons.injEq, and_true] at parts
  obtain ⟨url, debug⟩ := Options.shown_of_canonical parts.1
  exact ⟨url, debug, RuleSet.sameRounded_of_canonical parts.2⟩

/-! ## Programs -/

namespace CachingRule

/-- The counts of seconds and minutes that a rule writes into a program: the age of what its
cache keeps, the time that the network has, and how long a request is kept. -/
def writtenCounts (rule : CachingRule) : List (Option UInt64) :=
  [rule.effectiveExpiration.bind (·.maxAgeSeconds), rule.networkTimeoutSeconds,
    rule.replayQueue.map (·.maxRetentionMinutes)]

/-- No count that a rule writes is beyond 2 ^ 53. -/
def CountsExactly (rule : CachingRule) : Prop :=
  ∀ count ∈ rule.writtenCounts, ∀ n ∈ count, n.toNat ≤ 2 ^ 53

/-- A bound counts where the strategy uses a cache and the bound is not zero. -/
theorem effectiveExpiration_bind {α : Type} {bound : Expiration → Option α}
    (none_of : ∀ bounds : Expiration, bounds.isUnbounded = true → bound bounds.normalized = none)
    (rule : CachingRule) :
    rule.effectiveExpiration.bind bound =
      if rule.strategy.usesCache then rule.expiration.bind fun bounds => bound bounds.normalized
      else none := by
  rw [effectiveExpiration]
  cases rule.expiration with
  | none => simp
  | some bounds =>
      cases uses : rule.strategy.usesCache with
      | false => rfl
      | true =>
          cases unbounded : bounds.isUnbounded with
          | false => simp [unbounded]
          | true => simp [unbounded, none_of bounds unbounded]

theorem none_of_isUnbounded (bounds : Expiration) (unbounded : bounds.isUnbounded = true) :
    bounds.normalized.maxEntries = none ∧ bounds.normalized.maxAgeSeconds = none := by
  rw [Expiration.isUnbounded, Bool.and_eq_true] at unbounded
  exact ⟨Option.isNone_iff_eq_none.mp unbounded.1, Option.isNone_iff_eq_none.mp unbounded.2⟩

variable {rule other : CachingRule}

theorem retention_rel {first second : Option ReplayQueue}
    (relation : Option.Rel ReplayQueue.SameRounded first second) :
    Option.Rel CachePolicy.SameRounded (first.map (·.maxRetentionMinutes))
      (second.map (·.maxRetentionMinutes)) := by
  cases relation with
  | none => exact .none
  | some related => exact .some related.maxRetentionMinutes

theorem queue_eq {first second : Option ReplayQueue}
    (relation : Option.Rel ReplayQueue.SameRounded first second)
    (retention : first.map (·.maxRetentionMinutes) = second.map (·.maxRetentionMinutes)) :
    first = second := by
  cases relation with
  | none => rfl
  | @some queue other related =>
      cases queue
      cases other
      rw [Option.some.injEq, ReplayQueue.mk.injEq]
      exact ⟨related.name, Option.some.inj retention⟩

/-- Rules that are the same but for their counts do the same just when they write the same
counts. -/
theorem SameRounded.alike_iff (same : rule.SameRounded other) :
    rule.Alike other ↔ rule.writtenCounts = other.writtenCounts := by
  constructor
  · intro alike
    rw [writtenCounts, writtenCounts, alike.effectiveExpiration, alike.networkTimeoutSeconds,
      alike.replayQueue]
  · intro counts
    simp only [writtenCounts, List.cons.injEq, and_true] at counts
    obtain ⟨age, timeout, retention⟩ := counts
    have entries : rule.effectiveExpiration.bind (·.maxEntries) =
        other.effectiveExpiration.bind (·.maxEntries) := by
      have given : (rule.expiration.bind fun bounds => bounds.normalized.maxEntries) =
          other.expiration.bind fun bounds => bounds.normalized.maxEntries := by
        apply bind_eq_of_rel same.expiration
        intro bounds _ others _ related
        exact congrArg (Option.filter _) related.maxEntries
      rw [effectiveExpiration_bind fun bounds unbounded => (none_of_isUnbounded bounds unbounded).1,
        effectiveExpiration_bind fun bounds unbounded => (none_of_isUnbounded bounds unbounded).1,
        same.strategy, given]
    exact {
      origin := same.origin
      matcher := same.matcher
      strategy := same.strategy
      partition := by rw [partition, partition, same.strategy, same.cacheName]
      effectiveExpiration := effectiveExpiration_eq entries age
      networkTimeoutSeconds := timeout
      replayQueue := queue_eq same.replayQueue retention }

/-- Rules that are the same but for counts of one canonical text write the same counts unless one
of these is beyond 2 ^ 53. -/
theorem SameRounded.writtenCounts_eq (same : rule.SameRounded other)
    (exactly : rule.CountsExactly) (otherExactly : other.CountsExactly) :
    rule.writtenCounts = other.writtenCounts := by
  simp only [CountsExactly, writtenCounts, List.forall_mem_cons] at exactly otherExactly
  obtain ⟨age, timeout, retention, -⟩ := exactly
  obtain ⟨otherAge, otherTimeout, otherRetention, -⟩ := otherExactly
  have ages : rule.effectiveExpiration.bind (·.maxAgeSeconds) =
      other.effectiveExpiration.bind (·.maxAgeSeconds) := by
    rw [effectiveExpiration_bind fun bounds unbounded => (none_of_isUnbounded bounds unbounded).2]
      at age otherAge ⊢
    rw [effectiveExpiration_bind fun bounds unbounded => (none_of_isUnbounded bounds unbounded).2]
    rw [← same.strategy] at otherAge ⊢
    cases uses : rule.strategy.usesCache with
    | false => rfl
    | true =>
        rw [if_pos uses] at age otherAge
        apply bind_eq_of_rel same.expiration
        intro bounds given others otherGiven related
        apply filter_eq_of_rel related.maxAgeSeconds
        · intro n written
          exact age n (Option.mem_bind_iff.mpr ⟨bounds, given, written⟩)
        · intro n written
          exact otherAge n (Option.mem_bind_iff.mpr ⟨others, otherGiven, written⟩)
  have timeouts := eq_of_rel same.networkTimeoutSeconds timeout otherTimeout
  have queues := eq_of_rel (retention_rel same.replayQueue) retention otherRetention
  rw [writtenCounts, writtenCounts, ages, timeouts, queues]

variable {rules others : List CachingRule}

theorem forall₂_alike_iff (same : List.Forall₂ SameRounded rules others) :
    List.Forall₂ Alike rules others ↔
      rules.map (·.writtenCounts) = others.map (·.writtenCounts) := by
  induction same with
  | nil => simp
  | cons first _ ih =>
      rw [List.forall₂_cons, first.alike_iff, ih, List.map_cons, List.map_cons, List.cons.injEq]

theorem map_writtenCounts_eq (same : List.Forall₂ SameRounded rules others)
    (exactly : ∀ rule ∈ rules, rule.CountsExactly)
    (otherExactly : ∀ rule ∈ others, rule.CountsExactly) :
    rules.map (·.writtenCounts) = others.map (·.writtenCounts) := by
  induction same with
  | nil => rfl
  | cons first _ ih =>
      rw [List.forall_mem_cons] at exactly otherExactly
      rw [List.map_cons, List.map_cons, first.writtenCounts_eq exactly.1 otherExactly.1,
        ih exactly.2 otherExactly.2]

end CachingRule

namespace RuleSet

variable {ruleSet other : RuleSet}

/-- Policies that are the same but for their counts do the same just when their rules write the
same counts. -/
theorem SameRounded.alike_iff (same : ruleSet.SameRounded other) :
    ruleSet.Alike other ↔
      ruleSet.rules.map (·.writtenCounts) = other.rules.map (·.writtenCounts) := by
  have rules := CachingRule.forall₂_alike_iff same.rules
  constructor
  · intro alike
    exact rules.mp alike.rules
  · intro counts
    exact ⟨same.lifecycle, same.includeBuildManifest, by rw [same.precache], rules.mpr counts⟩

theorem SameRounded.writtenCounts_eq (same : ruleSet.SameRounded other)
    (exactly : ∀ rule ∈ ruleSet.rules, rule.CountsExactly)
    (otherExactly : ∀ rule ∈ other.rules, rule.CountsExactly) :
    ruleSet.rules.map (·.writtenCounts) = other.rules.map (·.writtenCounts) :=
  CachingRule.map_writtenCounts_eq same.rules exactly otherExactly

end RuleSet

theorem Fingerprint.of_eq_of_text_eq {options other : Options} {ruleSet otherRuleSet : RuleSet}
    (same : text options ruleSet = text other otherRuleSet) :
    of options ruleSet = of other otherRuleSet := by
  rw [of, of, same]

/-- Programs of valid policies with one fingerprint text are the same just when the rules write
the same counts. -/
theorem Program.text_eq_iff_of_fingerprint {options other : Options}
    {ruleSet otherRuleSet : RuleSet} (valid : ruleSet.validate = .ok ())
    (otherValid : otherRuleSet.validate = .ok ())
    (same : Fingerprint.text options ruleSet = Fingerprint.text other otherRuleSet) :
    (ofRuleSet options ruleSet (Fingerprint.of options ruleSet)).text =
        (ofRuleSet other otherRuleSet (Fingerprint.of other otherRuleSet)).text ↔
      ruleSet.rules.map (·.writtenCounts) = otherRuleSet.rules.map (·.writtenCounts) := by
  obtain ⟨url, debug, rounded⟩ := Fingerprint.told_of_text_eq same
  have single := Fingerprint.single_of options ruleSet
  rw [← rounded.alike_iff, ← Fingerprint.of_eq_of_text_eq same]
  constructor
  · intro texts
    exact (alike_of_text_eq valid otherValid single texts).2.2
  · intro alike
    exact text_eq_of_alike url debug alike

/-- Which programs have fingerprints of one text.  Such programs use the same library and log the
same, and their policies are the same but for counts of seconds and minutes with one canonical
text.  So the programs are the same just when their rules write the same counts, and they are if
no count is beyond 2 ^ 53. -/
theorem program_of_fingerprint_text {options other : Options}
    {pathnames otherPathnames : List String} {compilation otherCompilation : Compilation}
    (compiled : options.compile pathnames = .ok compilation)
    (otherCompiled : other.compile otherPathnames = .ok otherCompilation)
    (same : Fingerprint.text options compilation.ruleSet =
      Fingerprint.text other otherCompilation.ruleSet) :
    (options.workboxUrl = other.workboxUrl ∧ options.debug = other.debug ∧
      compilation.ruleSet.SameRounded otherCompilation.ruleSet) ∧
    (compilation.program = otherCompilation.program ↔
      compilation.ruleSet.rules.map (·.writtenCounts) =
        otherCompilation.ruleSet.rules.map (·.writtenCounts)) ∧
    ((∀ rule ∈ compilation.ruleSet.rules, rule.CountsExactly) →
      (∀ rule ∈ otherCompilation.ruleSet.rules, rule.CountsExactly) →
        compilation.program = otherCompilation.program) := by
  obtain ⟨ruleSet, planned, rfl⟩ := Options.compile_eq_ok_iff.mp compiled
  obtain ⟨otherRuleSet, otherPlanned, rfl⟩ := Options.compile_eq_ok_iff.mp otherCompiled
  simp only [Options.compilationOf] at same ⊢
  have told := Fingerprint.told_of_text_eq same
  have programs := Program.text_eq_iff_of_fingerprint (Options.validate_of_plan planned)
    (Options.validate_of_plan otherPlanned) same
  refine ⟨told, programs, ?_⟩
  intro exactly otherExactly
  exact programs.mpr (told.2.2.writtenCounts_eq exactly otherExactly)

/-! ## Two large ages -/

/-- Options that keep static assets for a time and have no recommended rules. -/
def Options.keepsFor (seconds : UInt64) : Options where
  preset := .disabled
  cacheStaticAssetsDuration := seconds

/-- The rule set of these options for a list of pages. -/
def RuleSet.keepsFor (seconds : UInt64) (pages : List String) : RuleSet where
  lifecycle := ⟨true, true, true⟩
  includeBuildManifest := true
  precache := ⟨pages.map .unversioned⟩
  rules := [{
    origin := .staticAssets
    matcher := .extensions []
    strategy := .cacheFirst
    cacheName := some "astro-static-assets"
    expiration := some ⟨none, some seconds⟩ }]

/-- A page that is given twice is in the policy once, and the program is the same. -/
theorem program_of_fingerprint_text_pages :
    ∃ compilation otherCompilation,
      (Options.keepsFor 60).compile ["/a"] = .ok compilation ∧
      (Options.keepsFor 60).compile ["/a", "/a"] = .ok otherCompilation ∧
      Fingerprint.text (.keepsFor 60) compilation.ruleSet =
        Fingerprint.text (.keepsFor 60) otherCompilation.ruleSet ∧
      compilation.program = otherCompilation.program := by
  have once : (Options.keepsFor 60).plan ["/a"] = .ok (.keepsFor 60 ["/a"]) := by decide +kernel
  have twice : (Options.keepsFor 60).plan ["/a", "/a"] = .ok (.keepsFor 60 ["/a"]) := by
    decide +kernel
  have compiled := Options.compile_eq_ok_iff.mpr ⟨_, once, rfl⟩
  have otherCompiled := Options.compile_eq_ok_iff.mpr ⟨_, twice, rfl⟩
  refine ⟨_, _, compiled, otherCompiled, rfl, ?_⟩
  exact (program_of_fingerprint_text compiled otherCompiled rfl).2.1.mpr rfl

theorem Fingerprint.text_keepsFor {seconds others : UInt64} (same : SameRounded seconds others)
    (pages : List String) :
    text (.keepsFor seconds) (.keepsFor seconds pages) =
      text (.keepsFor others) (.keepsFor others pages) := by
  have age : (Json.nat seconds.toNat).canonical = (Json.nat others.toNat).canonical :=
    Json.canonical_num_inj.mpr same
  have options : (Options.keepsFor seconds).toJson.canonical =
      (Options.keepsFor others).toJson.canonical := by
    apply Json.canonical_obj_congr
    simp only [Options.members, Options.keepsFor, Json.present_some, List.map_cons, age]
  have bounds : (Expiration.toJson ⟨none, some seconds⟩).canonical =
      (Expiration.toJson ⟨none, some others⟩).canonical := by
    apply Json.canonical_obj_congr
    simp only [Option.map_none, Option.map_some, Json.present_none, Json.present_some,
      List.map_cons, age]
  have rules : (RuleSet.keepsFor seconds pages).rules.map (·.toJson.canonical) =
      (RuleSet.keepsFor others pages).rules.map (·.toJson.canonical) := by
    rw [RuleSet.keepsFor, RuleSet.keepsFor, List.map_singleton, List.map_singleton,
      List.singleton_inj]
    apply Json.canonical_obj_congr
    simp only [Option.map_none, Option.map_some, Json.present_none, Json.present_some,
      List.map_cons, bounds]
  have ruleSets : (RuleSet.keepsFor seconds pages).toJson.canonical =
      (RuleSet.keepsFor others pages).toJson.canonical := by
    have listed : (Json.arr ((RuleSet.keepsFor seconds pages).rules.map (·.toJson))).canonical =
        (Json.arr ((RuleSet.keepsFor others pages).rules.map (·.toJson))).canonical := by
      rw [Json.canonical_arr_inj, List.map_map, List.map_map]
      exact rules
    apply Json.canonical_obj_congr
    simp only [List.map_cons, listed]
    rfl
  apply Json.canonical_obj_congr
  simp only [List.map_cons, options, ruleSets]

/-- Ages of 2 ^ 53 and of one second more have one fingerprint and two programs. -/
theorem ages_with_one_fingerprint :
    ∃ compilation otherCompilation,
      (Options.keepsFor 9007199254740992).compile [] = .ok compilation ∧
      (Options.keepsFor 9007199254740993).compile [] = .ok otherCompilation ∧
      Fingerprint.text (.keepsFor 9007199254740992) compilation.ruleSet =
        Fingerprint.text (.keepsFor 9007199254740993) otherCompilation.ruleSet ∧
      compilation.program ≠ otherCompilation.program := by
  have planned (seconds : UInt64) :
      (Options.keepsFor seconds).plan [] = .ok (.keepsFor seconds []) := rfl
  have text := Fingerprint.text_keepsFor
    (show SameRounded 9007199254740992 9007199254740993 by decide +kernel) []
  refine ⟨_, _, Options.compile_eq_ok_iff.mpr ⟨_, planned _, rfl⟩,
    Options.compile_eq_ok_iff.mpr ⟨_, planned _, rfl⟩, text, ?_⟩
  intro programs
  have counts := (Program.text_eq_iff_of_fingerprint (Options.validate_of_plan (planned _))
    (Options.validate_of_plan (planned _)) text).mp programs
  exact absurd counts (by decide)

end CachePolicy
