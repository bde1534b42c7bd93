import CachePolicy.Proofs.Worker.Bounds
import CachePolicy.Proofs.Worker.Footprint

/-!
# What activation drops

Activation drops the partitions that no rule names as its cache, other than the precache.  The
partitions on which rules work are found in another way: a rule that uses a cache and names none
works on the partition that is set aside for such rules.  So activation drops every partition on
which no rule works, and none on which one does, with one exception: it drops the partition that is
set aside unless some rule happens to name it.
-/

namespace CachePolicy

/-! ## Partitions in use -/

namespace CachingRule

variable {rule : CachingRule} {name : String}

/-- A rule may come to read or change a partition when it answers some request. -/
def WorksOn (rule : CachingRule) (name : String) : Prop :=
  ∃ index request signal, (rule.dispatch index request signal).Visits name

theorem worksOn_iff :
    rule.WorksOn name ↔ rule.strategy.usesCache = true ∧ rule.workingPartition = name := by
  constructor
  · rintro ⟨index, request, signal, visits⟩
    exact (rule.visits_dispatch_iff index request signal name).mp visits
  · intro works
    exact ⟨0, .onSite "GET" "/", none, (rule.visits_dispatch_iff ..).mpr works⟩

/-- A rule declares the partition that it works on, if it names one. -/
theorem partition_eq_some_iff :
    rule.partition = some name ↔ rule.WorksOn name ∧ rule.cacheName ≠ none := by
  rw [worksOn_iff, partition, workingPartition]
  cases rule.strategy.usesCache with
  | false => simp
  | true =>
      cases rule.cacheName with
      | none => simp
      | some cache => simp

/-- A rule that names no cache works on the partition set aside for such rules. -/
theorem WorksOn.eq_runtimePartition (works : rule.WorksOn name) (unnamed : rule.cacheName = none) :
    name = runtimePartition := by
  obtain ⟨-, rfl⟩ := worksOn_iff.mp works
  rw [workingPartition, unnamed, Option.getD_none]

end CachingRule

/-! ## Partitions that are dropped -/

theorem Storage.get?_foldl_deletePartition (names : List String) (storage : Storage)
    (other : String) :
    (names.foldl deletePartition storage).get? other =
      if other ∈ names then none else storage.get? other := by
  induction names generalizing storage with
  | nil => rw [List.foldl_nil, if_neg List.not_mem_nil]
  | cons name rest ih =>
      rw [List.foldl_cons, ih, deletePartition, SortedMap.get?_erase]
      by_cases later : other ∈ rest
      · simp [later]
      · by_cases same : other = name
        · simp [same]
        · simp [later, same]

namespace Worker

variable {worker : Worker} {name : String}

theorem mem_outdated_iff (compiles : worker.ruleSet.compile = .ok worker.routes) :
    name ∈ worker.outdated ↔
      worker.ruleSet.lifecycle.cleanupOutdatedCaches = true ∧
        worker.stores.storage.contains name = true ∧ name ≠ precachePartition ∧
        ∀ rule ∈ worker.routes.rules, rule.WorksOn name → rule.cacheName = none := by
  have declared : name ∉ worker.ruleSet.declaredCacheNames ↔
      ∀ rule ∈ worker.routes.rules, rule.WorksOn name → rule.cacheName = none := by
    rw [RuleSet.rules_of_compile compiles]
    constructor
    · intro undeclared rule member works
      by_contra named
      apply undeclared
      exact RuleSet.mem_declaredCacheNames member
        (CachingRule.partition_eq_some_iff.mpr ⟨works, named⟩)
    · intro unnamed listed
      obtain ⟨rule, member, used⟩ := RuleSet.exists_of_mem_declaredCacheNames listed
      obtain ⟨works, named⟩ := CachingRule.partition_eq_some_iff.mp used
      exact named (unnamed rule member works)
  rw [outdated]
  cases worker.ruleSet.lifecycle.cleanupOutdatedCaches with
  | false => simp
  | true =>
      rw [if_pos rfl, List.mem_filter, SortedMap.mem_keys_iff, ← declared, keepsPartition]
      simp

theorem nodup_outdated (worker : Worker) : worker.outdated.Nodup := by
  rw [outdated]
  split
  · exact worker.stores.storage.nodup_keys.filter _
  · exact List.nodup_nil

/-- What activation leaves of the caches, and the list of partitions that it gives. -/
structure CleansUp (worker : Worker) (dropped : List String) (after : Storage) : Prop where
  distinct : dropped.Nodup
  /-- The list names the partitions that are gone. -/
  listed : ∀ name, name ∈ dropped ↔
    worker.stores.storage.contains name = true ∧ after.contains name = false
  /-- The other partitions are as before. -/
  kept : ∀ name, name ∉ dropped → after.get? name = worker.stores.storage.get? name
  unasked : worker.ruleSet.lifecycle.cleanupOutdatedCaches = false → dropped = []
  /-- A partition is gone just when it is not the precache and no rule that names its cache works
  on it. -/
  outdated : worker.ruleSet.lifecycle.cleanupOutdatedCaches = true →
    ∀ name, worker.stores.storage.contains name = true →
      (name ∈ dropped ↔ name ≠ precachePartition ∧
        ∀ rule ∈ worker.routes.rules, rule.WorksOn name → rule.cacheName = none)
  /-- Apart from the partition of rules that name no cache, that is when it is not the precache and
  no rule works on it. -/
  unused : worker.ruleSet.lifecycle.cleanupOutdatedCaches = true →
    ∀ name, worker.stores.storage.contains name = true →
      name ≠ runtimePartition ∨
        (∀ rule ∈ worker.routes.rules, rule.WorksOn name → rule.cacheName ≠ none) →
      (name ∈ dropped ↔ name ≠ precachePartition ∧
        ∀ rule ∈ worker.routes.rules, ¬ rule.WorksOn name)

theorem cleansUp_activated (compiles : worker.ruleSet.compile = .ok worker.routes) :
    worker.CleansUp worker.outdated worker.activated.stores.storage := by
  have left (name : String) : worker.activated.stores.storage.get? name =
      if name ∈ worker.outdated then none else worker.stores.storage.get? name :=
    Storage.get?_foldl_deletePartition ..
  have outdated (asked : worker.ruleSet.lifecycle.cleanupOutdatedCaches = true) (name : String)
      (present : worker.stores.storage.contains name = true) :
      name ∈ worker.outdated ↔ name ≠ precachePartition ∧
        ∀ rule ∈ worker.routes.rules, rule.WorksOn name → rule.cacheName = none := by
    rw [mem_outdated_iff compiles]
    simp only [asked, present, true_and]
  constructor
  case distinct => exact worker.nodup_outdated
  case listed =>
    intro name
    rw [SortedMap.contains, SortedMap.contains, left]
    constructor
    · intro gone
      rw [if_pos gone]
      exact ⟨((mem_outdated_iff compiles).mp gone).2.1, rfl⟩
    · rintro ⟨present, absent⟩
      by_contra kept
      rw [if_neg kept, present] at absent
      cases absent
  case kept =>
    intro name kept
    rw [left, if_neg kept]
  case unasked =>
    intro unasked
    rw [Worker.outdated, unasked, if_neg Bool.false_ne_true]
  case outdated => exact outdated
  case unused =>
    intro asked name present named
    rw [outdated asked name present]
    apply and_congr_right
    intro _
    apply forall₂_congr
    intro rule member
    constructor
    · intro unnamed works
      rcases named with other | named
      · exact other (works.eq_runtimePartition (unnamed works))
      · exact named rule member works (unnamed works)
    · intro idle works
      exact absurd works idle

/-- What activation drops, whatever is stored.  The list that it gives names just the partitions
that it drops; the others keep their entries.  Without the flag nothing is dropped.  With it, a
partition is dropped just when it is not the precache and no rule works on it, where a rule that
names no cache does not count. -/
theorem activation_drops_unused (worker : Worker)
    (compiles : worker.ruleSet.compile = .ok worker.routes) (ready : worker.state = .installed) :
    ∃ dropped, worker.activate.1 = .ok dropped ∧ worker.activate.2.state = .activated ∧
      worker.activate.2.stores.queues = worker.stores.queues ∧
      worker.CleansUp dropped worker.activate.2.stores.storage := by
  rw [activate, if_pos ready]
  exact ⟨worker.outdated, rfl, rfl, rfl, cleansUp_activated compiles⟩

end Worker

/-! ## A worker that takes over -/

/-- A rule that keeps pictures, and names no cache. -/
def CachingRule.pictures : CachingRule where
  origin := .runtimeCaching
  matcher := .pathPrefix "/pictures"
  strategy := .cacheFirst

/-- A policy for pages and pictures, under which a worker waits before it takes over. -/
def RuleSet.pictures : RuleSet where
  lifecycle := ⟨false, true, true⟩
  includeBuildManifest := false
  precache := .empty
  rules := [.pictures, .lastPage]

/-- What the worker before has left: a page, a picture, and a cache of old. -/
def Storage.inherited : Storage :=
  SortedMap.empty.insertAll [("old", [⟨"http://localhost/a", .ok ByteArray.empty, 0⟩]),
    ("pages", [⟨"http://localhost/a", .ok ByteArray.empty, 0⟩]),
    (runtimePartition, [⟨"http://localhost/pictures/a", .ok ByteArray.empty, 0⟩])]

/-- The worker of this policy, with what is left from the worker before. -/
def Worker.pictures : Worker where
  ruleSet := .pictures
  routes := ⟨RuleSet.pictures.rules.map fun rule => ⟨rule, ⟨rule.matcher, none⟩⟩⟩
  stores := ⟨.inherited, .empty⟩
  state := .installing
  skipWaiting := false
  clientsClaimed := false

/-- Once the worker is installed, its activation drops the cache of old and keeps the page. -/
theorem activation_drops_unused_pictures :
    let worker := (Worker.pictures.history Bench.environment [(.install, .at 0 [] false)]).worker
    worker.state = .installed ∧ worker.stores.storage.contains "old" = true ∧
      ∃ dropped, worker.activate.1 = .ok dropped ∧ "old" ∈ dropped ∧ "pages" ∉ dropped ∧
        worker.activate.2.stores.storage.get? "pages" = worker.stores.storage.get? "pages" := by
  intro worker
  have compiles : worker.ruleSet.compile = .ok worker.routes := rfl
  have ready : worker.state = .installed := by decide +kernel
  have present : worker.stores.storage.contains "old" = true := by decide +kernel
  obtain ⟨dropped, answer, -, -, cleansUp⟩ := worker.activation_drops_unused compiles ready
  have works : CachingRule.lastPage.WorksOn "pages" :=
    CachingRule.worksOn_iff.mpr ⟨rfl, rfl⟩
  have stays : "pages" ∉ dropped := by
    rw [cleansUp.outdated rfl "pages" (by decide +kernel)]
    rintro ⟨-, unnamed⟩
    cases unnamed .lastPage (by decide +kernel) works
  have goes : "old" ∈ dropped := by
    rw [cleansUp.unused rfl "old" present (.inl (by decide))]
    refine ⟨by decide, ?_⟩
    simp only [CachingRule.worksOn_iff]
    decide +kernel
  exact ⟨ready, present, dropped, answer, goes, stays, cleansUp.kept "pages" stays⟩

/-- The picture is dropped with the cache of old, though a rule works on its partition. -/
theorem activation_drops_pictures :
    let worker := (Worker.pictures.history Bench.environment [(.install, .at 0 [] false)]).worker
    Worker.new .pictures = .ok { Worker.pictures with stores := .empty } ∧
      worker.state = .installed ∧
      worker.ruleSet.lifecycle.cleanupOutdatedCaches = true ∧
      worker.stores.storage.urls "runtime" = ["http://localhost/pictures/a"] ∧
      CachingRule.pictures ∈ worker.routes.rules ∧ CachingRule.pictures.WorksOn "runtime" ∧
      worker.activate.1 = .ok ["old", "runtime"] ∧
      worker.activate.2.stores.storage.contains "runtime" = false := by
  have works : CachingRule.pictures.WorksOn "runtime" :=
    CachingRule.worksOn_iff.mpr ⟨rfl, rfl⟩
  intro worker
  exact ⟨rfl, by decide +kernel, rfl, by decide +kernel, by decide +kernel, works,
    by decide +kernel, by decide +kernel⟩

end CachePolicy
