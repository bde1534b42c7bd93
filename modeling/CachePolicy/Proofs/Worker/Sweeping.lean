import CachePolicy.Proofs.Worker.Abandonment
import CachePolicy.Proofs.Worker.Cleanup
import CachePolicy.Proofs.Worker.Footprint

/-!
# Sweeps

A sweep visits every partition that a rule bounds, once, with the bounds of the first rule that
bounds it.  Where no two rules conflict these are the bounds of all rules on the partition, so all
of them are kept.  Every partition that is visited keeps the newest of its fresh entries, and the
others are left alone.  To sweep again at the same moment does nothing.
-/

namespace CachePolicy

/-! ## Sweeping entries -/

namespace Expiration

variable (bounds : Expiration) (moment : Moment) (entries : List CachedEntry)

/-- What a sweep leaves are the newest of the fresh entries; some are dropped only if as many as the
bounds allow are left. -/
theorem exists_filter_eq_append_swept :
    ∃ older, entries.filter (bounds.isFresh moment) = older ++ bounds.swept moment entries ∧
      (older ≠ [] → ∃ most, bounds.normalized.maxEntries = some most ∧
        (bounds.swept moment entries).length = most.toNat) := by
  rw [swept, newest]
  generalize entries.filter (bounds.isFresh moment) = fresh
  cases limit : bounds.normalized.maxEntries with
  | none => exact ⟨[], rfl, fun some => absurd rfl some⟩
  | some most =>
      refine ⟨fresh.take (fresh.length - most.toNat), (List.take_append_drop _ _).symm, ?_⟩
      intro dropped
      have more : fresh.length - most.toNat ≠ 0 := by
        intro few
        rw [few, List.take_zero] at dropped
        exact dropped rfl
      refine ⟨most, rfl, ?_⟩
      simp only [List.length_drop]
      omega

theorem swept_swept :
    bounds.swept moment (bounds.swept moment entries) = bounds.swept moment entries := by
  have fresh : (bounds.swept moment entries).filter (bounds.isFresh moment) =
      bounds.swept moment entries :=
    List.filter_eq_self.mpr fun entry member => isFresh_of_mem_swept member
  rw [swept, fresh, newest]
  cases limit : bounds.normalized.maxEntries with
  | none => rfl
  | some most =>
      have few : (bounds.swept moment entries).length - most.toNat = 0 :=
        Nat.sub_eq_zero_of_le (length_swept_le limit)
      simp only [few, List.drop_zero]

end Expiration

theorem tidied_nil (bounds : Option Expiration) (moment : Moment) :
    tidied bounds moment [] = [] := by
  cases bounds with
  | none => rfl
  | some limits => exact limits.swept_nil moment

namespace SweepReport

@[simp] theorem scanned_add (first second : SweepReport) :
    (first.add second).scanned = first.scanned + second.scanned := rfl

@[simp] theorem removed_add (first second : SweepReport) :
    (first.add second).removed = first.removed + second.removed := by
  simp only [removed, add]
  omega

variable (bounds : Expiration) (moment : Moment) (entries : List CachedEntry)

/-- What is scanned is removed or left. -/
theorem removed_of :
    (of bounds moment entries).removed + (bounds.swept moment entries).length =
      entries.length := by
  have fresh : (entries.filter (bounds.isFresh moment)).length ≤ entries.length :=
    List.length_filter_le _ _
  have newest : (bounds.newest (entries.filter (bounds.isFresh moment))).length ≤
      (entries.filter (bounds.isFresh moment)).length :=
    (bounds.newest_sublist _).length_le
  rw [Expiration.swept]
  simp only [removed, of]
  omega

end SweepReport

/-! ## Sweeping partitions -/

namespace Storage

variable {storage : Storage} {moment : Moment} {bounded : List (String × Expiration)}

/-- How many entries some partitions have together. -/
def count (storage : Storage) (names : List String) : Nat :=
  (names.map fun name => (storage.entries name).length).sum

@[simp] theorem count_cons (name : String) (rest : List String) :
    storage.count (name :: rest) = (storage.entries name).length + storage.count rest := by
  simp [count]

theorem count_congr {after : Storage} {names : List String}
    (same : ∀ name ∈ names, after.entries name = storage.entries name) :
    after.count names = storage.count names := by
  rw [count, count, List.map_congr_left fun name member => congrArg List.length (same name member)]

/-- A sweep that finds nothing to drop changes nothing. -/
theorem sweep_eq_self {partition : String} {bounds : Expiration}
    (kept : bounds.swept moment (storage.entries partition) = storage.entries partition) :
    storage.sweep partition bounds moment = storage :=
  modify_eq_self kept

variable (storage moment)

/-- Each partition is swept with the bounds that are listed for it. -/
theorem get?_sweepAll (distinct : (bounded.map (·.1)).Nodup) (name : String) :
    (Worker.sweepAll moment bounded storage).2.get? name =
      (storage.get? name).map (tidied (bounded.lookup name) moment) := by
  induction bounded generalizing storage with
  | nil =>
      change storage.get? name = (storage.get? name).map fun entries => entries
      rw [Option.map_id']
  | cons limit rest ih =>
      obtain ⟨first, bounds⟩ := limit
      rw [List.map_cons, List.nodup_cons] at distinct
      change (Worker.sweepAll moment rest (storage.sweep first bounds moment)).2.get? name = _
      rw [ih _ distinct.2, sweep, get?_modify, SortedMap.lookup_cons_eq]
      by_cases same : name = first
      · subst same
        have unlisted : rest.lookup name = none := by
          cases found : rest.lookup name with
          | none => rfl
          | some other =>
              exact absurd (SortedMap.mem_map_fst_iff_lookup.mpr ⟨other, found⟩) distinct.1
        rw [if_pos rfl, if_pos rfl, unlisted, Option.map_map]
        rfl
      · rw [if_neg same, if_neg same]

theorem entries_sweepAll_eq (distinct : (bounded.map (·.1)).Nodup) (name : String) :
    (Worker.sweepAll moment bounded storage).2.entries name =
      tidied (bounded.lookup name) moment (storage.entries name) := by
  rw [entries, get?_sweepAll storage moment distinct, entries]
  cases storage.get? name with
  | none => exact (tidied_nil _ _).symm
  | some entries => rfl

/-- A sweep scans the partitions that are listed, and tells what it removes from them. -/
theorem report_sweepAll (distinct : (bounded.map (·.1)).Nodup) :
    let swept := Worker.sweepAll moment bounded storage
    swept.1.scanned = storage.count (bounded.map (·.1)) ∧
      swept.1.removed + swept.2.count (bounded.map (·.1)) = storage.count (bounded.map (·.1)) := by
  induction bounded generalizing storage with
  | nil => exact ⟨rfl, rfl⟩
  | cons limit rest ih =>
      intro swept
      obtain ⟨first, bounds⟩ := limit
      have entries := entries_sweepAll_eq storage moment distinct first
      rw [List.map_cons, List.nodup_cons] at distinct
      obtain ⟨scanned, removed⟩ := ih (storage.sweep first bounds moment) distinct.2
      have same : (storage.sweep first bounds moment).count (rest.map (·.1)) =
          storage.count (rest.map (·.1)) := by
        apply count_congr
        intro name member
        rw [entries_sweep, if_neg]
        rintro rfl
        exact distinct.1 member
      rw [same] at scanned removed
      have left : swept.2.entries first = bounds.swept moment (storage.entries first) := by
        rw [entries, SortedMap.lookup_cons_eq, if_pos rfl, tidied]
      have here := SweepReport.removed_of bounds moment (storage.entries first)
      have report : swept.1 = (SweepReport.of bounds moment (storage.entries first)).add
        (Worker.sweepAll moment rest (storage.sweep first bounds moment)).1 := rfl
      have after : swept.2 =
        (Worker.sweepAll moment rest (storage.sweep first bounds moment)).2 := rfl
      rw [List.map_cons, count_cons, count_cons, left, report, after, SweepReport.scanned_add,
        SweepReport.removed_add, scanned]
      refine ⟨rfl, ?_⟩
      dsimp only
      omega

variable {storage moment}

/-- A sweep that finds nothing to drop in any partition does nothing. -/
theorem sweepAll_eq_self (kept : ∀ limit ∈ bounded,
    limit.2.swept moment (storage.entries limit.1) = storage.entries limit.1) :
    (Worker.sweepAll moment bounded storage).1.removed = 0 ∧
      (Worker.sweepAll moment bounded storage).2 = storage := by
  induction bounded with
  | nil => exact ⟨rfl, rfl⟩
  | cons limit rest ih =>
      obtain ⟨name, bounds⟩ := limit
      have first : bounds.swept moment (storage.entries name) = storage.entries name :=
        kept _ List.mem_cons_self
      obtain ⟨removed, after⟩ := ih fun limit member => kept limit (List.mem_cons_of_mem _ member)
      have here := SweepReport.removed_of bounds moment (storage.entries name)
      rw [first] at here
      rw [Worker.sweepAll, sweep_eq_self first]
      refine ⟨?_, after⟩
      rw [SweepReport.removed_add, removed]
      omega

variable (storage moment)

/-- To sweep again at the same moment does nothing. -/
theorem sweepAll_sweepAll (distinct : (bounded.map (·.1)).Nodup) :
    let swept := (Worker.sweepAll moment bounded storage).2
    (Worker.sweepAll moment bounded swept).1.removed = 0 ∧
      (Worker.sweepAll moment bounded swept).2 = swept := by
  apply sweepAll_eq_self
  intro limit member
  rw [entries_sweepAll_eq storage moment distinct, (SortedMap.mem_iff_lookup distinct).mp member,
    tidied, Expiration.swept_swept]

end Storage

/-! ## The partitions that are swept -/

/-- The partitions of the rules with bounds, each once. -/
def RuleSet.boundedCaches (ruleSet : RuleSet) : List String :=
  ((ruleSet.rules.filter (·.effectiveExpiration.isSome)).map (·.workingPartition)).dedup

namespace Worker

theorem mem_map_fst_boundedPartitions {rules : List CachingRule} {name : String} :
    name ∈ (boundedPartitions rules).map (·.1) ↔
      ∃ rule ∈ rules, rule.partition = some name ∧ rule.effectiveExpiration.isSome = true := by
  induction rules with
  | nil => simp [boundedPartitions]
  | cons rule rest ih =>
      rw [boundedPartitions]
      simp only [List.exists_mem_cons_iff]
      split
      next first bounds used bounded =>
        -- The rest may name the partition again, and is left out there.
        have others : name ∈ ((boundedPartitions rest).filter (·.1 != first)).map (·.1) ↔
            name ∈ (boundedPartitions rest).map (·.1) ∧ name ≠ first := by
          simp only [List.mem_map, List.mem_filter, bne_iff_ne]
          grind
        rw [List.map_cons, List.mem_cons, others, ih, used, bounded]
        grind
      next unlisted =>
        rw [ih]
        constructor
        · exact .inr
        · rintro (⟨used, bounded⟩ | later)
          · obtain ⟨bounds, limited⟩ := Option.isSome_iff_exists.mp bounded
            exact absurd limited (unlisted name bounds used)
          · exact later

theorem nodup_boundedPartitions (rules : List CachingRule) :
    ((boundedPartitions rules).map (·.1)).Nodup := by
  induction rules with
  | nil => exact List.nodup_nil
  | cons rule rest ih =>
      rw [boundedPartitions]
      split
      next first bounds _ _ =>
        rw [List.map_cons, List.nodup_cons]
        refine ⟨?_, ih.sublist (List.filter_sublist.map _)⟩
        simp
      next => exact ih

end Worker

namespace RuleSet

variable {ruleSet : RuleSet} {rule : CachingRule} {name : String}

/-- Where no rules conflict, a partition is swept with the bounds of every rule that uses it. -/
theorem lookup_boundedPartitions (clean : ruleSet.conflicts = []) (member : rule ∈ ruleSet.rules)
    (used : rule.partition = some name) :
    (Worker.boundedPartitions ruleSet.rules).lookup name = rule.effectiveExpiration := by
  have distinct := Worker.nodup_boundedPartitions ruleSet.rules
  cases listed : (Worker.boundedPartitions ruleSet.rules).lookup name with
  | some bounds =>
      have entry := (SortedMap.mem_iff_lookup distinct).mpr listed
      obtain ⟨first, firstMember, uses, limited⟩ := Worker.exists_of_mem_boundedPartitions entry
      rw [effectiveExpiration_eq_boundsOf clean member used, ← limited,
        effectiveExpiration_eq_boundsOf clean firstMember uses]
  | none =>
      cases bounded : rule.effectiveExpiration with
      | none => rfl
      | some bounds =>
          have visited : name ∈ (Worker.boundedPartitions ruleSet.rules).map (·.1) :=
            Worker.mem_map_fst_boundedPartitions.mpr ⟨rule, member, used, by rw [bounded]; rfl⟩
          obtain ⟨limits, found⟩ := SortedMap.mem_map_fst_iff_lookup.mp visited
          rw [listed] at found
          cases found

variable (named : ∀ rule ∈ ruleSet.rules, rule.strategy.usesCache = true → rule.cacheName ≠ none)

include named

theorem partition_of_effectiveExpiration (member : rule ∈ ruleSet.rules)
    (bounded : rule.effectiveExpiration.isSome = true) :
    rule.partition = some rule.workingPartition := by
  obtain ⟨bounds, limited⟩ := Option.isSome_iff_exists.mp bounded
  have uses := CachingRule.usesCache_of_effectiveExpiration limited
  obtain ⟨cache, given⟩ := Option.ne_none_iff_exists'.mp (named rule member uses)
  rw [CachingRule.partition, if_pos uses, CachingRule.workingPartition, given]
  rfl

theorem mem_boundedCaches_iff :
    name ∈ ruleSet.boundedCaches ↔
      name ∈ (Worker.boundedPartitions ruleSet.rules).map (·.1) := by
  rw [boundedCaches, List.mem_dedup, Worker.mem_map_fst_boundedPartitions]
  simp only [List.mem_map, List.mem_filter]
  constructor
  · rintro ⟨rule, ⟨member, bounded⟩, rfl⟩
    exact ⟨rule, member, partition_of_effectiveExpiration named member bounded, bounded⟩
  · rintro ⟨rule, member, used, bounded⟩
    have same := partition_of_effectiveExpiration named member bounded
    rw [used] at same
    exact ⟨rule, ⟨member, bounded⟩, (Option.some.inj same).symm⟩

/-- The partitions of the rules with bounds are those that a sweep visits. -/
theorem boundedCaches_perm :
    ruleSet.boundedCaches.Perm ((Worker.boundedPartitions ruleSet.rules).map (·.1)) :=
  (List.perm_ext_iff_of_nodup (List.nodup_dedup _) (Worker.nodup_boundedPartitions _)).mpr
    fun _ => mem_boundedCaches_iff named

end RuleSet

theorem Storage.count_perm (storage : Storage) {names others : List String}
    (same : names.Perm others) : storage.count names = storage.count others :=
  (same.map fun name => (storage.entries name).length).sum_nat

/-! ## What a sweep leaves -/

/-- What a sweep at some moment leaves of the caches, and what it reports. -/
structure RuleSet.Sweeps (ruleSet : RuleSet) (moment : Moment) (before : Storage)
    (report : SweepReport) (after : Storage) : Prop where
  /-- A rule with bounds may serve every entry that is left in its partition. -/
  fresh : ∀ rule ∈ ruleSet.rules, rule.effectiveExpiration.isSome = true →
    ∀ entry ∈ after.entries rule.workingPartition, rule.isFresh moment entry = true
  bounded : ∀ rule ∈ ruleSet.rules, ∀ bounds most, rule.effectiveExpiration = some bounds →
    bounds.maxEntries = some most → (after.entries rule.workingPartition).length ≤ most.toNat
  /-- Of the fresh entries the newest are left, in their order, and none is dropped for want of
  room while there is room. -/
  newest : ∀ rule ∈ ruleSet.rules, ∀ bounds, rule.effectiveExpiration = some bounds →
    ∃ older,
      (before.entries rule.workingPartition).filter (rule.isFresh moment) =
        older ++ after.entries rule.workingPartition ∧
      (older ≠ [] → ∃ most, bounds.maxEntries = some most ∧
        (after.entries rule.workingPartition).length = most.toNat)
  elsewhere : ∀ name ∉ ruleSet.boundedCaches, after.get? name = before.get? name
  present : ∀ name, after.contains name = before.contains name
  scanned : report.scanned = before.count ruleSet.boundedCaches
  left : report.scanned = report.removed + after.count ruleSet.boundedCaches

namespace RuleSet

variable {ruleSet : RuleSet} (clean : ruleSet.conflicts = [])
variable (named : ∀ rule ∈ ruleSet.rules, rule.strategy.usesCache = true → rule.cacheName ≠ none)
variable (moment : Moment) (storage : Storage)

include clean named

/-- The partition of a rule with bounds is swept with them. -/
theorem entries_sweepAll_of_rule {rule : CachingRule} (member : rule ∈ ruleSet.rules)
    {bounds : Expiration} (bounded : rule.effectiveExpiration = some bounds) :
    (Worker.sweepAll moment (Worker.boundedPartitions ruleSet.rules) storage).2.entries
        rule.workingPartition =
      bounds.swept moment (storage.entries rule.workingPartition) := by
  have used := partition_of_effectiveExpiration named member (by rw [bounded]; rfl)
  rw [storage.entries_sweepAll_eq moment (Worker.nodup_boundedPartitions _),
    lookup_boundedPartitions clean member used, bounded, tidied]

theorem sweeps_sweepAll :
    let swept := Worker.sweepAll moment (Worker.boundedPartitions ruleSet.rules) storage
    ruleSet.Sweeps moment storage swept.1 swept.2 := by
  intro swept
  have distinct := Worker.nodup_boundedPartitions ruleSet.rules
  have entries {rule : CachingRule} (member : rule ∈ ruleSet.rules) {bounds : Expiration}
      (bounded : rule.effectiveExpiration = some bounds) :=
    entries_sweepAll_of_rule clean named moment storage member bounded
  have get? := storage.get?_sweepAll moment distinct
  obtain ⟨scanned, removed⟩ := storage.report_sweepAll moment distinct
  have visited := boundedCaches_perm named
  constructor
  case fresh =>
    intro rule member limited entry found
    obtain ⟨bounds, bounded⟩ := Option.isSome_iff_exists.mp limited
    rw [entries member bounded] at found
    rw [CachingRule.isFresh, bounded]
    exact Expiration.isFresh_of_mem_swept found
  case bounded =>
    intro rule member bounds most bounded limit
    rw [entries member bounded]
    apply Expiration.length_swept_le
    rw [Expiration.normalized_of_effectiveExpiration bounded, limit]
  case newest =>
    intro rule member bounds bounded
    have same : rule.isFresh moment = bounds.isFresh moment := by
      funext entry
      rw [CachingRule.isFresh, bounded]
    rw [same, entries member bounded]
    have split := bounds.exists_filter_eq_append_swept moment
      (storage.entries rule.workingPartition)
    rwa [Expiration.normalized_of_effectiveExpiration bounded] at split
  case elsewhere =>
    intro name unbounded
    have unlisted : (Worker.boundedPartitions ruleSet.rules).lookup name = none := by
      cases listed : (Worker.boundedPartitions ruleSet.rules).lookup name with
      | none => rfl
      | some bounds =>
          have member := SortedMap.mem_map_fst_iff_lookup.mpr ⟨bounds, listed⟩
          exact absurd ((mem_boundedCaches_iff named).mpr member) unbounded
    rw [get?, unlisted]
    exact Option.map_id'
  case present =>
    intro name
    rw [SortedMap.contains, get?, Option.isSome_map, SortedMap.contains]
  case scanned => rw [scanned, storage.count_perm visited]
  case left =>
    rw [scanned, ← removed, swept.2.count_perm visited]

end RuleSet

/-- A sweep looks at the clock once. -/
theorem Worker.sweep_eq (worker : Worker) (environment : Environment ν) (world : ν) :
    worker.sweep environment world =
      let swept := sweepAll (environment.now world).1 (boundedPartitions worker.routes.rules)
        worker.stores.storage
      (swept.1, worker.withStorage swept.2, (environment.now world).2) := rfl

/-- A sweep enforces every bound that the rules put on their caches, whatever the caches hold and
whatever moment the clock shows, as long as no rules conflict and every rule that uses a cache
names it.  Nothing but the bounded caches changes, and to sweep again at the same moment does
nothing. -/
theorem Worker.sweep_enforces_bounds {worker : Worker}
    (compiles : worker.ruleSet.compile = .ok worker.routes)
    (clean : worker.ruleSet.conflicts = [])
    (named : ∀ rule ∈ worker.ruleSet.rules, rule.strategy.usesCache = true →
      rule.cacheName ≠ none)
    (environment : Environment ν) (world : ν) :
    let swept := worker.sweep environment world
    let moment := (environment.now world).1
    let after := swept.2.1
    worker.ruleSet.Sweeps moment worker.stores.storage swept.1 after.stores.storage ∧
      after = worker.withStorage after.stores.storage ∧
      ∀ (others : Environment ν) (later : ν), (others.now later).1 = moment →
        (after.sweep others later).1.removed = 0 ∧ (after.sweep others later).2.1 = after := by
  intro swept moment after
  have rules := RuleSet.rules_of_compile compiles
  have sweeps := RuleSet.sweeps_sweepAll clean named moment worker.stores.storage
  rw [← rules] at sweeps
  refine ⟨sweeps, rfl, ?_⟩
  intro others later same
  obtain ⟨removed, unchanged⟩ := worker.stores.storage.sweepAll_sweepAll moment
    (nodup_boundedPartitions worker.routes.rules)
  have twice := after.sweep_eq others later
  rw [same] at twice
  rw [twice]
  exact ⟨removed, congrArg worker.withStorage unchanged⟩

/-! ## A cache with two rules -/

/-- A second rule for the cache of the last page. -/
def CachingRule.revisitedPage : CachingRule :=
  { CachingRule.lastPage with matcher := .pathPrefix "/b", strategy := .networkFirst }

/-- A policy with pictures, which are not bounded, and two rules for pages. -/
def RuleSet.revisited : RuleSet :=
  { RuleSet.lastPage with
    rules := [{ CachingRule.pictures with cacheName := some "pictures" }, .lastPage,
      .revisitedPage] }

/-- A page that is too old, two that are not, and a picture. -/
def Storage.revisited : Storage :=
  SortedMap.empty.insertAll [
    ("pages", [⟨"http://localhost/a", .ok ByteArray.empty, 0⟩,
      ⟨"http://localhost/b", .ok ByteArray.empty, 50000⟩,
      ⟨"http://localhost/c", .ok ByteArray.empty, 40000⟩]),
    ("pictures", [⟨"http://localhost/pictures/a", .ok ByteArray.empty, 0⟩])]

/-- The worker of this policy with these entries. -/
def Worker.revisited : Worker :=
  { Worker.lastPage with
    ruleSet := .revisited
    routes := ⟨RuleSet.revisited.rules.map fun rule => ⟨rule, ⟨rule.matcher, none⟩⟩⟩
    stores := ⟨.revisited, .empty⟩ }

/-- Of the pages only the one that was stored last is left. -/
theorem sweep_enforces_bounds_revisited :
    let swept := Worker.revisited.sweep Bench.environment (.at 70000 [] true)
    let after := swept.2.1
    after.stores.storage.urls "pages" = ["http://localhost/c"] ∧ swept.1 = ⟨3, 1, 1⟩ ∧
      RuleSet.revisited.Sweeps 70000 .revisited swept.1 after.stores.storage ∧
      (after.sweep Bench.environment (.at 70000 [] false)).2.1 = after := by
  intro swept after
  have compiles : Worker.revisited.ruleSet.compile = .ok Worker.revisited.routes := rfl
  have clean : Worker.revisited.ruleSet.conflicts = [] := by decide +kernel
  have named : ∀ rule ∈ Worker.revisited.ruleSet.rules,
      rule.strategy.usesCache = true → rule.cacheName ≠ none := by decide +kernel
  obtain ⟨sweeps, -, again⟩ := Worker.sweep_enforces_bounds compiles clean named Bench.environment
    (.at 70000 [] true)
  exact ⟨by decide +kernel, by decide +kernel, sweeps,
    (again Bench.environment (.at 70000 [] false) rfl).2⟩

end CachePolicy
