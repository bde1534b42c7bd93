import CachePolicy.Proofs.Worker.Caches

/-!
# What a worker has precached

An installed worker has stored just the URLs that its rule set lists, and it keeps them:
activation spares the partition of the precache, and so does everything else as long as
no rule uses it as its cache.
-/

namespace CachePolicy

/-! ## Changes elsewhere -/

namespace Storage

variable {storage after : Storage} {rule : CachingRule} {href partition : String}
variable {moments : List Moment} {deposits : List Deposit}

/-- A request changes no partition but that of the rule, and not even this one if the
rule neither stores anything in it nor bounds it. -/
theorem Touched.entries_eq (touched : storage.Touched rule href moments deposits after)
    (idle : rule.workingPartition = partition →
      rule.strategy.writesCache = false ∧ rule.effectiveExpiration = none) :
    after.entries partition = storage.entries partition := by
  obtain ⟨first, second, middle, -, purged, supplied⟩ := touched
  have kept : middle.entries partition = storage.entries partition := by
    cases purged with
    | unread => rfl
    | read moment => rfl
    | dropped bounded _ _ =>
        have differs : partition ≠ rule.workingPartition := by
          intro same
          rw [(idle same.symm).2] at bounded
          cases bounded
        rw [entries_delete, if_neg differs]
  rw [← kept]
  cases supplied with
  | untimed => rfl
  | timed moment => rfl
  | stored moment writes _ =>
      have differs : partition ≠ rule.workingPartition := by
        intro same
        rw [(idle same.symm).1] at writes
        cases writes
      rw [entries_keepFor, if_neg differs]

theorem entries_foldl_deletePartition {names : List String} (spared : partition ∉ names)
    (storage : Storage) :
    (names.foldl deletePartition storage).entries partition = storage.entries partition := by
  induction names generalizing storage with
  | nil => rfl
  | cons name rest ih =>
      rw [List.mem_cons, not_or] at spared
      rw [List.foldl_cons, ih spared.2, entries_deletePartition, if_neg spared.1]

theorem entries_sweepAll {bounded : List (String × Expiration)}
    (other : ∀ limit ∈ bounded, limit.1 ≠ partition) (moment : Moment) (storage : Storage) :
    (Worker.sweepAll moment bounded storage).2.entries partition = storage.entries partition := by
  induction bounded generalizing storage with
  | nil => rfl
  | cons limit rest ih =>
      have differs := other limit List.mem_cons_self
      have later := ih fun next member => other next (List.mem_cons_of_mem _ member)
      calc
        (Worker.sweepAll moment (limit :: rest) storage).2.entries partition
          = (storage.sweep limit.1 limit.2 moment).entries partition := later _
        _ = storage.entries partition := by rw [entries_sweep, if_neg differs.symm]

theorem mem_urls_put {url other : String} {response : Response} {moment : Moment} :
    other ∈ (storage.put partition url response moment).urls partition ↔
      other = url ∨ other ∈ storage.urls partition := by
  rw [urls, urls, entries_put, if_pos rfl, List.map_append, List.mem_append]
  simp only [List.mem_map, mem_without, List.mem_singleton]
  constructor
  · rintro (⟨entry, ⟨member, -⟩, rfl⟩ | ⟨entry, rfl, rfl⟩)
    · exact .inr ⟨entry, member, rfl⟩
    · exact .inl rfl
  · rintro (rfl | ⟨entry, member, rfl⟩)
    · exact .inr ⟨_, rfl, rfl⟩
    · by_cases same : entry.url = url
      · exact .inr ⟨_, rfl, same.symm⟩
      · exact .inl ⟨entry, ⟨member, same⟩, rfl⟩

theorem isSome_lookup : (storage.lookup partition href).isSome = true ↔
    href ∈ storage.urls partition := by
  rw [lookup, urls, List.find?_isSome]
  simp only [List.mem_map, beq_iff_eq]

end Storage

/-! ## Installation -/

/-- Whether an entry is stored under a URL. -/
def PrecacheEntry.names (entry : PrecacheEntry) (href : String) : Bool :=
  match Request.get entry.url with
  | .ok stored => stored.href == href
  | .error _ => false

/-- Whether a URL is one of those to store ahead. -/
def RuleSet.lists (ruleSet : RuleSet) (href : String) : Bool :=
  ruleSet.precache.entries.any (·.names href)

theorem PrecacheEntry.names_iff {entry : PrecacheEntry} {request : PageRequest}
    (read : PageRequest.get entry.url = .ok request) (href : String) :
    entry.names href = true ↔ request.href = href := by
  rw [PageRequest.get] at read
  rw [names]
  cases info : Request.get entry.url with
  | error e =>
      rw [info] at read
      cases read
  | ok stored =>
      rw [info] at read
      cases read
      exact beq_iff_eq

theorem RuleSet.precaches_eq (ruleSet : RuleSet) (request : Request) :
    ruleSet.precaches request = (request.method == "GET" && ruleSet.lists request.href) := rfl

namespace Worker

/-- To store entries ahead adds their URLs, and all of them if none fails. -/
theorem urls_of_precaching {entries : List PrecacheEntry} {storage after : Storage}
    {learned : List Observation} {result : Except WorkerError Unit}
    (precaching : Precaching entries storage learned result after) :
    (∀ href ∈ after.urls precachePartition, href ∈ storage.urls precachePartition ∨
      ∃ entry ∈ entries, entry.names href = true) ∧
    (∀ href ∈ storage.urls precachePartition, href ∈ after.urls precachePartition) ∧
    (result = .ok () → ∀ entry ∈ entries, ∀ href, entry.names href = true →
      href ∈ after.urls precachePartition) := by
  induction precaching with
  | finished =>
      refine ⟨fun href => .inl, fun href => id, ?_⟩
      intro _ entry member
      exact absurd member List.not_mem_nil
  | unread | unanswered | incomplete =>
      exact ⟨fun href => .inl, fun href => id, fun failed => by cases failed⟩
  | @stored entry rest storage after request reply response learned result read answered complete
      moment precaching ih =>
      have named := PrecacheEntry.names_iff read
      obtain ⟨only, keeps, all⟩ := ih
      refine ⟨?_, ?_, ?_⟩
      · intro href member
        rcases only href member with stored | ⟨other, listed, names⟩
        · rcases Storage.mem_urls_put.mp stored with same | old
          · exact .inr ⟨entry, List.mem_cons_self, (named href).mpr same.symm⟩
          · exact .inl old
        · exact .inr ⟨other, List.mem_cons_of_mem _ listed, names⟩
      · intro href member
        exact keeps href (Storage.mem_urls_put.mpr (.inr member))
      · intro succeeds other listed href names
        rcases List.mem_cons.mp listed with rfl | later
        · apply keeps
          exact Storage.mem_urls_put.mpr (.inl ((named href).mp names).symm)
        · exact all succeeds other later href names

end Worker

/-! ## Histories -/

/-- No rule has the partition of precached responses as its cache. -/
def RuleSet.SparesPrecache (ruleSet : RuleSet) : Prop :=
  ∀ rule ∈ ruleSet.rules, rule.strategy.usesCache = true →
    rule.workingPartition ≠ precachePartition

/-- Every rule leaves what is precached as it is: one that has the precache as its cache
neither stores anything in it nor bounds it. -/
structure RuleSet.LeavesPrecache (ruleSet : RuleSet) : Prop where
  unwritten : ∀ rule ∈ ruleSet.rules, rule.partition = some precachePartition →
    rule.strategy.writesCache = false
  unbounded : ∀ rule ∈ ruleSet.rules, rule.partition = some precachePartition →
    rule.effectiveExpiration = none

theorem CachingRule.partition_eq_precache {rule : CachingRule}
    (uses : rule.strategy.usesCache = true) (works : rule.workingPartition = precachePartition) :
    rule.partition = some precachePartition := by
  rw [partition, if_pos uses]
  rw [workingPartition] at works
  cases named : rule.cacheName with
  | none =>
      rw [named] at works
      exact absurd works (by decide)
  | some name =>
      rw [named] at works
      exact congrArg some works

namespace RuleSet

variable {ruleSet : RuleSet} {rule : CachingRule}

theorem SparesPrecache.partition_ne (spares : ruleSet.SparesPrecache)
    (member : rule ∈ ruleSet.rules) :
    rule.partition ≠ some precachePartition := by
  intro used
  rw [CachingRule.partition] at used
  split at used
  next uses =>
    apply spares rule member uses
    rw [CachingRule.workingPartition, used]
    rfl
  next => cases used

theorem SparesPrecache.leaves (spares : ruleSet.SparesPrecache) : ruleSet.LeavesPrecache where
  unwritten _ member used := absurd used (spares.partition_ne member)
  unbounded _ member used := absurd used (spares.partition_ne member)

/-- A rule that works on the precache is idle there. -/
theorem LeavesPrecache.idle (leaves : ruleSet.LeavesPrecache) (member : rule ∈ ruleSet.rules)
    (works : rule.workingPartition = precachePartition) :
    rule.strategy.writesCache = false ∧ rule.effectiveExpiration = none := by
  constructor
  · cases writes : rule.strategy.writesCache with
    | false => rfl
    | true =>
        have uses := Strategy.usesCache_of_writesCache writes
        rw [← writes]
        exact leaves.unwritten rule member (rule.partition_eq_precache uses works)
  · cases bounded : rule.effectiveExpiration with
    | none => rfl
    | some bounds =>
        have uses := CachingRule.usesCache_of_effectiveExpiration bounded
        rw [← bounded]
        exact leaves.unbounded rule member (rule.partition_eq_precache uses works)

end RuleSet

/-- A sweep spares the precache when no rule bounds it. -/
theorem Worker.entries_precache_sweep {worker : Worker}
    (unbounded : ∀ rule ∈ worker.routes.rules, rule.partition = some precachePartition →
      rule.effectiveExpiration = none) (environment : Environment ν) (world : ν) :
    (worker.sweep environment world).2.1.stores.storage.entries precachePartition =
      worker.stores.storage.entries precachePartition := by
  apply Storage.entries_sweepAll
  intro limit bounded
  obtain ⟨rule, member, used, limits⟩ := exists_of_mem_boundedPartitions bounded
  intro same
  rw [same] at used
  rw [unbounded rule member used] at limits
  cases limits

/-- Activation spares the precache. -/
theorem Worker.entries_precache_activated (worker : Worker) :
    worker.activated.stores.storage.entries precachePartition =
      worker.stores.storage.entries precachePartition := by
  apply Storage.entries_foldl_deletePartition
  rw [outdated]
  split
  · intro member
    have dropped := (List.mem_filter.mp member).2
    simp [keepsPartition] at dropped
  · exact List.not_mem_nil

theorem Worker.entries_precache_of_movesOn {worker after : Worker} (moves : worker.MovesOn after) :
    after.stores.storage.entries precachePartition =
      worker.stores.storage.entries precachePartition := by
  rcases moves.storage with same | ⟨-, same⟩
  · rw [same]
  · rw [same, worker.entries_precache_activated]

/-- What a worker has precached is listed, and everything that is listed is there as soon
as the worker is installed. -/
structure Worker.Precaches (worker : Worker) : Prop where
  listed : ∀ href ∈ worker.stores.storage.urls precachePartition,
    worker.ruleSet.lists href = true
  stored : worker.state = .installed ∨ worker.state = .activated →
    ∀ href, worker.ruleSet.lists href = true →
      href ∈ worker.stores.storage.urls precachePartition

namespace Worker.Precaches

variable {worker other : Worker}

theorem of_entries (precaches : worker.Precaches) (rules : other.ruleSet = worker.ruleSet)
    (entries : other.stores.storage.entries precachePartition =
      worker.stores.storage.entries precachePartition)
    (state : other.state = .installed ∨ other.state = .activated →
      worker.state = .installed ∨ worker.state = .activated) : other.Precaches where
  listed href member := by
    rw [Storage.urls, entries] at member
    rw [rules]
    exact precaches.listed href member
  stored ready href listed := by
    rw [rules] at listed
    rw [Storage.urls, entries]
    exact precaches.stored (state ready) href listed

theorem activated (precaches : worker.Precaches) (ready : worker.state = .installed) :
    worker.activated.Precaches :=
  precaches.of_entries rfl worker.entries_precache_activated fun _ => .inl ready

theorem movesOn (precaches : worker.Precaches) (moves : worker.MovesOn other) :
    other.Precaches := by
  cases moves with
  | waits skipWaiting => exact precaches.of_entries rfl rfl id
  | takesOver ready skipWaiting => exact activated (precaches.of_entries rfl rfl id) ready

theorem install (precaches : worker.Precaches) (environment : Environment ν) (world : ν) :
    (worker.stage environment .install world).after.Precaches := by
  by_cases new : worker.state = .installing
  · obtain ⟨result, storage, learned, precaching, staged⟩ :=
      worker.exists_stage_install environment world new
    obtain ⟨only, -, all⟩ := urls_of_precaching precaching
    have listed : ∀ href ∈ storage.urls precachePartition,
        worker.ruleSet.lists href = true := by
      intro href member
      rcases only href member with before | ⟨entry, member, names⟩
      · rw [Storage.urls, Storage.entries_openPartition] at before
        exact precaches.listed href before
      · exact List.any_eq_true.mpr ⟨entry, member, names⟩
    rw [staged]
    cases result with
    | error e =>
        refine ⟨listed, ?_⟩
        intro ready
        cases e <;> simp [stateAfter] at ready
    | ok done =>
        have ready : Precaches { worker.withStorage storage with state := .installed } := by
          refine ⟨listed, ?_⟩
          intro _ href listed
          obtain ⟨entry, member, names⟩ := List.any_eq_true.mp listed
          exact all rfl entry member href names
        exact ready.movesOn (worker.withStorage storage).movesOn_installed
  · rw [worker.stage_install_of_settled environment world new]
    exact precaches

/-- Every operation keeps what is precached. -/
theorem stage (leaves : worker.ruleSet.LeavesPrecache)
    (routes : worker.routes.rules = worker.ruleSet.rules) (precaches : worker.Precaches)
    (environment : Environment ν) (operation : Operation) (world : ν) :
    (worker.stage environment operation world).after.Precaches := by
  cases operation with
  | install => exact precaches.install environment world
  | message data => exact precaches.movesOn (worker.movesOn_receive data)
  | activate => exact precaches.movesOn worker.movesOn_activate
  | fetch request signal given =>
      have changed := worker.touched_handle request signal environment world given
      refine precaches.of_entries rfl ?_ id
      rcases changed with ⟨stores, -, -⟩ | ⟨index, rule, -, -, matched, touched⟩
      · exact congrArg (·.storage.entries precachePartition) stores
      · apply touched.entries_eq
        apply leaves.idle
        rw [← routes]
        exact CompiledRuleSet.mem_of_firstMatch matched
  | replay => exact precaches.of_entries rfl rfl id
  | sweep =>
      refine precaches.of_entries rfl ?_ id
      apply entries_precache_sweep
      rw [routes]
      exact leaves.unbounded

end Worker.Precaches

/-- After every history, a worker has precached what its rules list, and nothing else, if
every rule leaves that as it is. -/
theorem Worker.precaches_of_leaves {ruleSet : RuleSet} {start : Worker}
    (created : Worker.new ruleSet = .ok start) (leaves : ruleSet.LeavesPrecache)
    (environment : Environment ν) (steps : List (Operation × ν)) :
    (start.history environment steps).worker.Precaches := by
  refine history_induction_of_new created environment
    (motive := fun history => history.worker.Precaches) ?_ ?_ steps
  · obtain ⟨compiled, -, rfl⟩ := eq_of_new created
    constructor
    · intro href member
      exact absurd member List.not_mem_nil
    · rintro (impossible | impossible) <;> cases impossible
  · intro past operation world carries precaches
    apply precaches.stage (carries.rules ▸ leaves) ?_ environment operation world
    rw [carries.routes, carries.rules]

/-- After every history, a worker has precached what its rules list, and nothing else,
unless a rule has the precache as its cache. -/
theorem Worker.precaches_history {ruleSet : RuleSet} {start : Worker}
    (created : Worker.new ruleSet = .ok start) (spares : ruleSet.SparesPrecache)
    (environment : Environment ν) (steps : List (Operation × ν)) :
    (start.history environment steps).worker.Precaches :=
  precaches_of_leaves created spares.leaves environment steps

end CachePolicy
