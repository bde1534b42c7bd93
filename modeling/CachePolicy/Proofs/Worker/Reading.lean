import CachePolicy.Proofs.Worker.Abandonment
import CachePolicy.Proofs.Worker.Installation
import CachePolicy.Proofs.Worker.Provenance

/-!
# Rules that only read

A rule may answer from its cache and never ask the network.  It stores nothing, so what it removes
does not come back.  The bound on the age of entries counts for such a rule as for any other that
uses a cache.  An entry within the bound is served, and nothing changes; one past it is removed,
and the request fails as if there had been none.
-/

namespace CachePolicy

/-! ## Look-ups -/

namespace Stores

variable (environment : Environment ν) {rule : CachingRule} {href : String} {stores : Stores}
  (world : ν)

theorem find_of_missing (missing : stores.storage.lookup rule.workingPartition href = none) :
    stores.find environment rule.workingPartition href rule.effectiveExpiration world =
      (none, stores, world) := by
  rw [find, missing]

variable {entry : CachedEntry}

theorem exists_find_of_fresh
    (found : stores.storage.lookup rule.workingPartition href = some entry)
    (fresh : rule.isFresh (environment.now world).1 entry = true) :
    ∃ later, stores.find environment rule.workingPartition href rule.effectiveExpiration world =
      (some entry.response, stores, later) := by
  rw [find, found]
  rw [CachingRule.isFresh] at fresh
  cases bounded : rule.effectiveExpiration with
  | none => exact ⟨world, rfl⟩
  | some bounds =>
      rw [bounded] at fresh
      exact ⟨_, if_pos fresh⟩

theorem exists_find_of_stale
    (found : stores.storage.lookup rule.workingPartition href = some entry)
    (stale : rule.isFresh (environment.now world).1 entry = false) :
    ∃ later, stores.find environment rule.workingPartition href rule.effectiveExpiration world =
      (none, stores.withStorage (stores.storage.delete rule.workingPartition href), later) := by
  rw [find, found]
  rw [CachingRule.isFresh] at stale
  cases bounded : rule.effectiveExpiration with
  | none => simp [bounded] at stale
  | some bounds =>
      rw [bounded] at stale
      exact ⟨_, if_neg (by simpa using stale)⟩

end Stores

/-- An entry that is removed cannot be found any more. -/
theorem Storage.lookup_delete (storage : Storage) (partition url : String) :
    (storage.delete partition url).lookup partition url = none := by
  rw [lookup, entries_delete, if_pos rfl, find?_without, if_pos rfl]

/-! ## Requests -/

/-- How a request ends that a rule answers from its cache alone at some moment, and what it leaves
of the worker. -/
inductive Worker.Reads (worker : Worker) (index : Nat) (rule : CachingRule)
    (request : PageRequest) (moment : Moment) : Outcome → Worker → Prop where
  /-- There is no entry for the URL. -/
  | missed : worker.stores.storage.lookup rule.workingPartition request.href = none →
      Reads worker index rule request moment
        (.failed (.cacheMiss rule.workingPartition request.href)) worker
  /-- The entry is within the bound on age. -/
  | served {entry : CachedEntry} :
      worker.stores.storage.lookup rule.workingPartition request.href = some entry →
      rule.isFresh moment entry = true →
      Reads worker index rule request moment (.response entry.response .cache (some index)) worker
  /-- The entry is too old, and is removed. -/
  | expired {entry : CachedEntry} :
      worker.stores.storage.lookup rule.workingPartition request.href = some entry →
      rule.isFresh moment entry = false →
      Reads worker index rule request moment
        (.failed (.cacheMiss rule.workingPartition request.href))
        (worker.withStorage
          (worker.stores.storage.delete rule.workingPartition request.href))

namespace Worker

variable {worker : Worker} {request : PageRequest} {given : Bool} {index : Nat}
  {rule : CachingRule}

theorem Dispatches.reads (dispatches : worker.Dispatches request given index rule)
    (strategy : rule.strategy = .cacheOnly) (environment : Environment ν)
    (signal : Option Signal) (world : ν) :
    let fetched := worker.fetch environment request signal given world
    worker.Reads index rule request (environment.now world).1 fetched.1 fetched.2.1 := by
  intro fetched
  have same : fetched = _ := dispatches.fetch_eq environment signal world
  rw [CachingRule.dispatch, strategy] at same
  simp only [Task.run_cached] at same
  cases found : worker.stores.storage.lookup rule.workingPartition request.href with
  | none =>
      rw [Stores.find_of_missing environment world found] at same
      rw [same]
      exact .missed found
  | some entry =>
      cases fresh : rule.isFresh (environment.now world).1 entry with
      | true =>
          obtain ⟨later, looked⟩ := Stores.exists_find_of_fresh environment world found fresh
          rw [looked] at same
          rw [same]
          exact .served found fresh
      | false =>
          obtain ⟨later, looked⟩ := Stores.exists_find_of_stale environment world found fresh
          rw [looked] at same
          rw [same]
          exact .expired found fresh

/-- An entry within the bound on age is served, and nothing changes. -/
theorem Reads.of_fresh {moment : Moment} {outcome : Outcome} {after : Worker}
    {entry : CachedEntry} (reads : worker.Reads index rule request moment outcome after)
    (found : worker.stores.storage.lookup rule.workingPartition request.href = some entry)
    (fresh : rule.isFresh moment entry = true) :
    outcome = .response entry.response .cache (some index) ∧ after = worker := by
  cases reads with
  | missed missing =>
      rw [missing] at found
      cases found
  | served held _ =>
      cases held.symm.trans found
      exact ⟨rfl, rfl⟩
  | expired held stale =>
      cases held.symm.trans found
      rw [fresh] at stale
      cases stale

/-- To read changes the caches just when the rule bounds the age of entries, and the entry for the
URL is past that age. -/
theorem Reads.changes_iff {moment : Moment} {outcome : Outcome} {after : Worker}
    (reads : worker.Reads index rule request moment outcome after)
    (uses : rule.strategy.usesCache = true) :
    after.stores.storage ≠ worker.stores.storage ↔
      ∃ entry, worker.stores.storage.lookup rule.workingPartition request.href = some entry ∧
        ∃ bounds seconds, rule.expiration = some bounds ∧ bounds.maxAgeSeconds = some seconds ∧
          0 < seconds ∧ span seconds < moment - entry.storedAt := by
  have stale_iff (entry : CachedEntry) := @CachingRule.isFresh_eq_false_iff rule moment entry
  simp only [uses, true_and] at stale_iff
  simp only [← stale_iff]
  cases reads with
  | missed missing => simp [missing]
  | served found fresh => simp [found, fresh]
  | @expired entry found stale =>
      refine ⟨fun _ => ⟨entry, found, stale⟩, fun _ same => ?_⟩
      have gone := worker.stores.storage.lookup_delete rule.workingPartition request.href
      rw [show worker.stores.storage.delete rule.workingPartition request.href = _ from same,
        found] at gone
      cases gone

section Answered

variable (environment : Environment ν) (signal : Option Signal) (world : ν)

theorem fetch_given (active : worker.state = .activated) :
    worker.fetch environment request signal true world = (.aborted, worker, world) := by
  rw [fetch, worker.handle_given request signal active, Task.run]

theorem fetch_precached (active : worker.state = .activated) {response : Response}
    (precached : worker.precached? request.info = some response) :
    worker.fetch environment request signal false world =
      (.response response .precache none, worker, world) := by
  have ran := worker.run_handle request signal environment world active
  rw [precached] at ran
  rw [fetch, ran]

end Answered

theorem dispatches_of_firstMatch (active : worker.state = .activated)
    (matched : worker.routes.firstMatch request.info = some (index, rule))
    (unstored : worker.precached? request.info = none) :
    worker.Dispatches request false index rule where
  active := active
  ungiven := rfl
  decided := by
    rw [decision, unstored, CompiledRuleSet.decision, matched]
    rfl

/-- What becomes of a request whose first rule answers from its cache alone, whatever the worker
holds, and whatever the clock and the network do.  The network is not asked.  A request that was
given up before, or for which a response is precached, does not come to the rule and changes
nothing.  Otherwise the entry for the URL is served, or the request fails for want of one; and the
caches change just when the rule bounds the age of entries and the entry is past that age, in which
case it is removed. -/
theorem cacheOnly_request (active : worker.state = .activated)
    (matched : worker.routes.firstMatch request.info = some (index, rule))
    (strategy : rule.strategy = .cacheOnly) (environment : Environment ν)
    (signal : Option Signal) (given : Bool) (world : ν) :
    let fetched := worker.fetch environment.recorded request signal given (world, [])
    let outcome := fetched.1
    let after := fetched.2.1
    let moment := (environment.now world).1
    Observation.exchanges fetched.2.2.2 = [] ∧
      (given = true → outcome = .aborted ∧ after = worker) ∧
      (∀ response, given = false → worker.precached? request.info = some response →
        outcome = .response response .precache none ∧ after = worker) ∧
      (given = false → worker.precached? request.info = none →
        worker.Reads index rule request moment outcome after ∧
          (after.stores.storage ≠ worker.stores.storage ↔
            ∃ entry,
              worker.stores.storage.lookup rule.workingPartition request.href = some entry ∧
              ∃ bounds seconds, rule.expiration = some bounds ∧
                bounds.maxAgeSeconds = some seconds ∧ 0 < seconds ∧
                span seconds < moment - entry.storedAt)) := by
  intro fetched outcome after moment
  cases given with
  | true =>
      have same : fetched = (.aborted, worker, world, []) :=
        fetch_given environment.recorded signal (world, []) active
      refine ⟨congrArg (fun ended => Observation.exchanges ended.2.2.2) same,
        fun _ => ⟨congrArg (·.1) same, congrArg (·.2.1) same⟩, ?_, ?_⟩
      · intro _ ungiven
        cases ungiven
      · intro ungiven
        cases ungiven
  | false =>
      cases precached : worker.precached? request.info with
      | some stored =>
          have same : fetched = (.response stored .precache none, worker, world, []) :=
            fetch_precached environment.recorded signal (world, []) active precached
          refine ⟨congrArg (fun ended => Observation.exchanges ended.2.2.2) same, ?_, ?_, ?_⟩
          · intro gone
            cases gone
          · intro response _ found
            cases found
            exact ⟨congrArg (·.1) same, congrArg (·.2.1) same⟩
          · intro _ unstored
            cases unstored
      | none =>
          have dispatches := dispatches_of_firstMatch active matched precached
          have reads : worker.Reads index rule request moment outcome after :=
            dispatches.reads strategy environment.recorded signal (world, [])
          have same : fetched = _ := dispatches.fetch_eq environment.recorded signal (world, [])
          refine ⟨?_, ?_, ?_, fun _ _ => ⟨reads, reads.changes_iff (by rw [strategy]; rfl)⟩⟩
          · rw [same]
            exact rule.exchanges_dispatch_of_cacheOnly environment index request signal
              worker.stores world strategy
          · intro gone
            cases gone
          · intro response _ stored
            cases stored

end Worker

/-! ## A guide that is kept for reading off line -/

/-- Options under which a guide is served from its cache alone. -/
def Options.guide : Options where
  preset := .disabled
  runtimeCaching := [⟨.matching (.pathPrefix "/guide"), "CacheOnly", {}⟩]

/-- The rule for the guide. -/
def CachingRule.guide : CachingRule where
  origin := .runtimeCaching
  matcher := .pathPrefix "/guide"
  strategy := .cacheOnly
  cacheName := some "astro-runtime"
  expiration := some ⟨some 50, some 86400⟩

/-- The rule set of these options. -/
def RuleSet.guide : RuleSet :=
  { RuleSet.postedForm with rules := [Options.guide.staticAssetsRule, .guide] }

/-- The new worker of this rule set. -/
def Worker.guide : Worker :=
  { Worker.postedForm with
    ruleSet := .guide
    routes := ⟨RuleSet.guide.rules.map fun rule => ⟨rule, ⟨rule.matcher, none⟩⟩⟩ }

/-- The guide as it is stored in the beginning. -/
def CachedEntry.guide : CachedEntry := ⟨"http://localhost/guide", .ok "guide".toUTF8, 0⟩

/-- The worker with the guide in its cache, once it is installed. -/
def Worker.withGuide : Worker :=
  let worker := (Worker.guide.history Bench.environment [(.install, .at 0 [] false)]).worker
  worker.withStorage (worker.stores.storage.put "astro-runtime" CachedEntry.guide.url
    CachedEntry.guide.response CachedEntry.guide.storedAt)

/-- A request for the guide. -/
def PageRequest.guide : PageRequest := .onSite "GET" "/guide"

/-- To the end of the day the guide is served, and nothing changes. -/
theorem cacheOnly_request_guide :
    let fetched := Worker.withGuide.fetch Bench.environment.recorded .guide none false
      (.at 86400000 [] true, [])
    Worker.withGuide.state = .activated ∧
      Worker.withGuide.routes.firstMatch PageRequest.guide.info = some (1, .guide) ∧
      CachingRule.guide.strategy = .cacheOnly ∧
      fetched.1 = .response (.ok "guide".toUTF8) .cache (some 1) ∧ fetched.2.1 = .withGuide := by
  intro fetched
  have active : Worker.withGuide.state = .activated := by decide +kernel
  have matched : Worker.withGuide.routes.firstMatch PageRequest.guide.info = some (1, .guide) := by
    decide +kernel
  have unstored : Worker.withGuide.precached? PageRequest.guide.info = none := by decide +kernel
  have found : Worker.withGuide.stores.storage.lookup CachingRule.guide.workingPartition
      PageRequest.guide.href = some .guide := by decide +kernel
  have fresh : CachingRule.guide.isFresh 86400000 .guide = true := by decide +kernel
  obtain ⟨-, -, -, handed⟩ := Worker.cacheOnly_request active matched rfl Bench.environment none
    false (.at 86400000 [] true)
  obtain ⟨reads, -⟩ := handed rfl unstored
  exact ⟨active, matched, rfl, reads.of_fresh found fresh⟩

/-- After that day the guide is removed, though the rule never stores anything, and the request
fails. -/
theorem guide_removed_after_day :
    let fetched := Worker.withGuide.fetch Bench.environment .guide none false
      (.at 86401000 [] true)
    Options.guide.plan [] = .ok .guide ∧ Worker.new .guide = .ok .guide ∧
      Worker.withGuide.state = .activated ∧
      Worker.withGuide.routes.firstMatch PageRequest.guide.info = some (1, .guide) ∧
      CachingRule.guide.strategy.writesCache = false ∧
      Worker.withGuide.stores.storage.lookup "astro-runtime" PageRequest.guide.href =
        some .guide ∧
      fetched.1 = .failed (.cacheMiss "astro-runtime" PageRequest.guide.href) ∧
      fetched.2.1.stores.storage.lookup "astro-runtime" PageRequest.guide.href = none := by
  intro fetched
  exact ⟨rfl, rfl, by decide +kernel, by decide +kernel, rfl, by decide +kernel,
    by decide +kernel, by decide +kernel⟩

end CachePolicy
