import CachePolicy.Proofs.Policy.Conflict
import CachePolicy.Proofs.Rule.Set
import CachePolicy.Proofs.Worker.Decision
import CachePolicy.Proofs.Worker.Partition
import CachePolicy.Proofs.Worker.Replay

/-!
# The caches of a worker

Every partition of a worker has bounds, those of the rules that use it.  When the rules
of a partition agree on them, each operation changes the partition as `Kept` allows, so
what holds of a single partition holds of all of them after every history.

Two things are asked of the rules: that no conflict is reported, and that every rule
which uses a cache names one, other than that of the precached responses.
-/

namespace CachePolicy

/-- Rules that agree on the bounds of their caches, and leave the precache alone. -/
structure RuleSet.Orderly (ruleSet : RuleSet) : Prop where
  clean : ruleSet.conflicts = []
  named : ∀ rule ∈ ruleSet.rules, rule.strategy.usesCache = true →
    ∃ name, rule.cacheName = some name ∧ name ≠ precachePartition

namespace RuleSet.Orderly

variable {ruleSet : RuleSet} {rule : CachingRule}

theorem partition_eq (orderly : ruleSet.Orderly) (member : rule ∈ ruleSet.rules)
    (uses : rule.strategy.usesCache = true) : rule.partition = some rule.workingPartition := by
  obtain ⟨name, named, -⟩ := orderly.named rule member uses
  rw [CachingRule.partition, if_pos uses, CachingRule.workingPartition, named]
  rfl

theorem workingPartition_ne (orderly : ruleSet.Orderly) (member : rule ∈ ruleSet.rules)
    (uses : rule.strategy.usesCache = true) : rule.workingPartition ≠ precachePartition := by
  obtain ⟨name, named, other⟩ := orderly.named rule member uses
  rw [CachingRule.workingPartition, named]
  exact other

theorem bounds_eq (orderly : ruleSet.Orderly) (member : rule ∈ ruleSet.rules)
    (uses : rule.strategy.usesCache = true) :
    rule.effectiveExpiration = ruleSet.boundsOf rule.workingPartition :=
  effectiveExpiration_eq_boundsOf orderly.clean member (orderly.partition_eq member uses)

theorem boundsOf_precache (orderly : ruleSet.Orderly) :
    ruleSet.boundsOf precachePartition = none := by
  apply boundsOf_eq_none
  intro rule member used
  rw [CachingRule.partition] at used
  split at used
  next uses =>
    obtain ⟨name, named, other⟩ := orderly.named rule member uses
    rw [named] at used
    exact other (Option.some.inj used)
  next => cases used

end RuleSet.Orderly

theorem CachingRule.usesCache_of_effectiveExpiration {rule : CachingRule} {bounds : Expiration}
    (bounded : rule.effectiveExpiration = some bounds) : rule.strategy.usesCache = true := by
  rw [effectiveExpiration] at bounded
  cases given : rule.expiration with
  | none =>
      rw [given] at bounded
      cases bounded
  | some limits =>
      rw [given] at bounded
      simp only [Option.ite_none_right_eq_some, Bool.and_eq_true] at bounded
      exact bounded.1.1

/-! ## Partitions of a storage -/

/-- The responses among deposits that were stored in a partition. -/
def storedIn (deposits : List Deposit) (partition : String) : List CachedEntry :=
  (deposits.filter (·.partition == partition)).map (·.entry)

@[simp] theorem storedIn_append (left right : List Deposit) (partition : String) :
    storedIn (left ++ right) partition = storedIn left partition ++ storedIn right partition := by
  simp [storedIn]

theorem storedIn_singleton (deposit : Deposit) (partition : String) :
    storedIn [deposit] partition =
      if partition = deposit.partition then [deposit.entry] else [] := by
  by_cases same : partition = deposit.partition
  · simp [storedIn, same]
  · simp [storedIn, same, Ne.symm same]

namespace Storage

theorem entries_delete (storage : Storage) (partition other url : String) :
    (storage.delete partition url).entries other =
      if other = partition then without url (storage.entries partition)
      else storage.entries other :=
  entries_modify storage partition other rfl

theorem entries_keepFor (storage : Storage) (rule : CachingRule) (url other : String)
    (response : Response) (moment : Moment) :
    (storage.keepFor rule url response moment).entries other =
      if other = rule.workingPartition then
        tidied rule.effectiveExpiration moment
          (without url (storage.entries rule.workingPartition) ++ [⟨url, response, moment⟩])
      else storage.entries other := by
  cases bounded : rule.effectiveExpiration with
  | none =>
      simp only [keepFor, keep, bounded]
      exact entries_put ..
  | some bounds =>
      simp only [keepFor, keep, bounded, entries_sweep, entries_put, if_true, tidied]
      split <;> rfl

/-- A response that was stored is the only one, and it has been put after all entries of
its partition before the partition was swept. -/
theorem Touched.stored {storage after : Storage} {rule : CachingRule} {href : String}
    {moments : List Moment} {deposits : List Deposit} {deposit : Deposit}
    (touched : storage.Touched rule href moments deposits after) (member : deposit ∈ deposits) :
    ∃ entries, rule.strategy.writesCache = true ∧ deposits = [deposit] ∧
      deposit.partition = rule.workingPartition ∧ deposit.entry.url = href ∧
      moments.getLast? = some deposit.entry.storedAt ∧
      after.entries rule.workingPartition =
        tidied rule.effectiveExpiration deposit.entry.storedAt (entries ++ [deposit.entry]) := by
  obtain ⟨first, second, middle, rfl, -, supplied⟩ := touched
  cases supplied with
  | untimed => exact absurd member List.not_mem_nil
  | timed moment => exact absurd member List.not_mem_nil
  | stored moment writes complete =>
      obtain rfl := List.mem_singleton.mp member
      refine ⟨without href (middle.entries rule.workingPartition), writes, rfl, rfl, rfl,
        List.getLast?_concat, ?_⟩
      rw [entries_keepFor, if_pos rfl]

/-- Every partition is kept within the bounds that the rules put on it.  Responses to
requests are stored in partitions that rules use; the precache is filled apart from
them. -/
structure KeptBy (ruleSet : RuleSet) (moments : List Moment) (deposits : List Deposit)
    (storage : Storage) : Prop where
  kept : ∀ partition, ∃ stored,
    Kept (ruleSet.boundsOf partition) moments stored (storage.entries partition) ∧
      (partition ≠ precachePartition → stored = storedIn deposits partition)
  declared : ∀ deposit ∈ deposits, ∃ rule ∈ ruleSet.rules,
    rule.partition = some deposit.partition

namespace KeptBy

variable {ruleSet : RuleSet} {moments more : List Moment} {deposits : List Deposit}
variable {storage after : Storage} {rule : CachingRule} {href : String}

theorem empty : KeptBy ruleSet [] [] .empty where
  kept _ := ⟨[], .empty, fun _ => rfl⟩
  declared _ member := absurd member List.not_mem_nil

theorem of_entries (same : ∀ partition, after.entries partition = storage.entries partition)
    (keptBy : KeptBy ruleSet moments deposits storage) :
    KeptBy ruleSet moments deposits after where
  kept partition := by
    rw [same partition]
    exact keptBy.kept partition
  declared := keptBy.declared

theorem reads (keptBy : KeptBy ruleSet moments deposits storage) (more : List Moment) :
    KeptBy ruleSet (moments ++ more) deposits storage where
  kept partition := by
    obtain ⟨stored, kept, same⟩ := keptBy.kept partition
    exact ⟨stored, kept.reads more, same⟩
  declared := keptBy.declared

/-- Nothing is stored in a partition that no rule uses. -/
theorem entries_eq_nil (keptBy : KeptBy ruleSet moments deposits storage) {partition : String}
    (other : partition ≠ precachePartition)
    (unused : ∀ rule ∈ ruleSet.rules, rule.partition ≠ some partition) :
    storage.entries partition = [] := by
  obtain ⟨stored, kept, same⟩ := keptBy.kept partition
  apply List.eq_nil_iff_forall_not_mem.mpr
  intro entry member
  have found := kept.subset_stored member
  rw [same other, storedIn, List.mem_map] at found
  obtain ⟨deposit, found, -⟩ := found
  obtain ⟨found, place⟩ := List.mem_filter.mp found
  obtain ⟨rule, present, used⟩ := keptBy.declared deposit found
  exact unused rule present (used.trans (congrArg some (by simpa using place)))

/-! ### Requests -/

theorem purged (orderly : ruleSet.Orderly) (member : rule ∈ ruleSet.rules)
    (purged : storage.Purged rule href more after)
    (keptBy : KeptBy ruleSet moments deposits storage) :
    KeptBy ruleSet (moments ++ more) deposits after := by
  cases purged with
  | unread =>
      rw [List.append_nil]
      exact keptBy
  | read moment => exact keptBy.reads [moment]
  | @dropped moment entry bounds bounded looked stale =>
      have uses := CachingRule.usesCache_of_effectiveExpiration bounded
      have read := keptBy.reads [moment]
      refine ⟨?_, keptBy.declared⟩
      intro partition
      obtain ⟨stored, kept, same⟩ := read.kept partition
      refine ⟨stored, ?_, same⟩
      rw [entries_delete]
      by_cases here : partition = rule.workingPartition
      · rw [if_pos here]
        subst here
        have url : entry.url = href := by simpa using List.find?_some looked
        rw [← url]
        have present := List.mem_of_find?_eq_some looked
        rw [orderly.bounds_eq member uses] at bounded
        exact .dropped (by simp) bounded present stale kept
      · rw [if_neg here]
        exact kept

theorem supplied (orderly : ruleSet.Orderly) (member : rule ∈ ruleSet.rules)
    {fresh : List Deposit} (supplied : storage.Supplied rule href more fresh after)
    (keptBy : KeptBy ruleSet moments deposits storage) :
    KeptBy ruleSet (moments ++ more) (deposits ++ fresh) after := by
  cases supplied with
  | untimed =>
      rw [List.append_nil, List.append_nil]
      exact keptBy
  | timed moment =>
      rw [List.append_nil]
      exact keptBy.reads [moment]
  | stored moment writes complete =>
      have uses := Strategy.usesCache_of_writesCache writes
      constructor
      · intro partition
        obtain ⟨stored, kept, same⟩ := keptBy.kept partition
        rw [entries_keepFor, storedIn_append, storedIn_singleton]
        by_cases here : partition = rule.workingPartition
        · subst here
          simp only [if_true]
          rw [orderly.bounds_eq member uses]
          refine ⟨_, .stored moment href complete kept, ?_⟩
          intro other
          rw [same other]
        · simp only [if_neg here, List.append_nil]
          exact ⟨stored, kept.read moment, same⟩
      · intro deposit found
        rw [List.mem_append, List.mem_singleton] at found
        rcases found with old | rfl
        · exact keptBy.declared deposit old
        · exact ⟨rule, member, orderly.partition_eq member uses⟩

theorem touched (orderly : ruleSet.Orderly) (member : rule ∈ ruleSet.rules)
    {fresh : List Deposit} (touched : storage.Touched rule href more fresh after)
    (keptBy : KeptBy ruleSet moments deposits storage) :
    KeptBy ruleSet (moments ++ more) (deposits ++ fresh) after := by
  obtain ⟨first, second, middle, rfl, purge, supply⟩ := touched
  rw [← List.append_assoc]
  exact supplied orderly member supply (purged orderly member purge keptBy)

/-! ### Installation and activation -/

/-- A response that is stored ahead. -/
theorem precached (orderly : ruleSet.Orderly) (keptBy : KeptBy ruleSet moments deposits storage)
    (url : String) {response : Response} (complete : response.isCacheable = true)
    (moment : Moment) :
    KeptBy ruleSet (moments ++ [moment]) deposits
      (storage.put precachePartition url response moment) where
  kept partition := by
    obtain ⟨stored, kept, same⟩ := keptBy.kept partition
    rw [entries_put]
    by_cases here : partition = precachePartition
    · subst here
      rw [if_pos rfl]
      have next := kept.stored moment url complete
      rw [orderly.boundsOf_precache] at next ⊢
      exact ⟨_, next, fun other => absurd rfl other⟩
    · rw [if_neg here]
      exact ⟨stored, kept.read moment, same⟩
  declared := keptBy.declared

theorem precaching (orderly : ruleSet.Orderly) {entries : List PrecacheEntry}
    {learned : List Observation} {result : Except WorkerError Unit} {after : Storage}
    (precaching : Worker.Precaching entries storage learned result after)
    (keptBy : KeptBy ruleSet moments deposits storage) :
    KeptBy ruleSet (moments ++ Observation.moments learned) deposits after := by
  induction precaching generalizing moments with
  | finished | unread | unanswered | incomplete => simpa using keptBy
  | stored read answered complete moment precaching ih =>
      have last := ih (keptBy.precached orderly _ complete moment)
      simpa using last

/-- Activation drops only partitions in which nothing is stored. -/
theorem activated {worker : Worker} (rules : worker.ruleSet = ruleSet)
    (keptBy : KeptBy ruleSet moments deposits worker.stores.storage) :
    KeptBy ruleSet moments deposits worker.activated.stores.storage := by
  have unused : ∀ name ∈ worker.outdated, name ≠ precachePartition ∧
      ∀ rule ∈ ruleSet.rules, rule.partition ≠ some name := by
    intro name outdated
    rw [Worker.outdated] at outdated
    split at outdated
    · have dropped := (List.mem_filter.mp outdated).2
      rw [Worker.keepsPartition, rules] at dropped
      simp only [Bool.not_or, Bool.and_eq_true, Bool.not_eq_true',
        beq_eq_false_iff_ne] at dropped
      constructor
      · exact dropped.1
      · intro rule member used
        have listed := RuleSet.mem_declaredCacheNames member used
        simp [listed] at dropped
    · exact absurd outdated List.not_mem_nil
  change KeptBy ruleSet moments deposits
    (worker.outdated.foldl deletePartition worker.stores.storage)
  generalize worker.stores.storage = before at keptBy
  generalize worker.outdated = outdated at unused
  induction outdated generalizing before with
  | nil => exact keptBy
  | cons name rest ih =>
      rw [List.foldl_cons]
      apply ih
      · apply keptBy.of_entries
        intro partition
        obtain ⟨other, free⟩ := unused name List.mem_cons_self
        rw [entries_deletePartition]
        split
        next same => rw [same, keptBy.entries_eq_nil other free]
        next => rfl
      · intro other member
        exact unused other (List.mem_cons_of_mem _ member)

/-! ### Sweeps -/

theorem swept (keptBy : KeptBy ruleSet moments deposits storage) {moment : Moment}
    (read : moment ∈ moments) {name : String} {bounds : Expiration}
    (bounded : ruleSet.boundsOf name = some bounds) :
    KeptBy ruleSet moments deposits (storage.sweep name bounds moment) where
  kept partition := by
    obtain ⟨stored, kept, same⟩ := keptBy.kept partition
    refine ⟨stored, ?_, same⟩
    rw [entries_sweep]
    by_cases here : partition = name
    · subst here
      rw [if_pos rfl]
      exact .swept read bounded kept
    · rw [if_neg here]
      exact kept
  declared := keptBy.declared

theorem sweepAll {moment : Moment} (read : moment ∈ moments)
    {bounded : List (String × Expiration)}
    (limits : ∀ limit ∈ bounded, ruleSet.boundsOf limit.1 = some limit.2)
    (keptBy : KeptBy ruleSet moments deposits storage) :
    KeptBy ruleSet moments deposits (Worker.sweepAll moment bounded storage).2 := by
  induction bounded generalizing storage with
  | nil => exact keptBy
  | cons limit rest ih =>
      apply ih
      · intro other member
        exact limits other (List.mem_cons_of_mem _ member)
      · exact keptBy.swept read (limits limit List.mem_cons_self)

end KeptBy

end Storage

theorem Worker.exists_of_mem_boundedPartitions {rules : List CachingRule}
    {limit : String × Expiration} (member : limit ∈ boundedPartitions rules) :
    ∃ rule ∈ rules, rule.partition = some limit.1 ∧ rule.effectiveExpiration = some limit.2 := by
  induction rules with
  | nil => exact absurd member List.not_mem_nil
  | cons rule rest ih =>
      rw [boundedPartitions] at member
      split at member
      next name bounds used bounded =>
        rcases List.mem_cons.mp member with rfl | later
        · exact ⟨rule, List.mem_cons_self, used, bounded⟩
        · obtain ⟨other, found, facts⟩ := ih (List.mem_filter.mp later).1
          exact ⟨other, List.mem_cons_of_mem _ found, facts⟩
      next =>
        obtain ⟨other, found, facts⟩ := ih member
        exact ⟨other, List.mem_cons_of_mem _ found, facts⟩

/-! ## Histories -/

namespace Storage.KeptBy

variable {ruleSet : RuleSet} {moments : List Moment} {deposits : List Deposit}
variable {worker : Worker} (environment : Environment ν) (world : ν)

theorem movesOn {after : Worker} (moves : worker.MovesOn after) (rules : worker.ruleSet = ruleSet)
    (keptBy : KeptBy ruleSet moments deposits worker.stores.storage) :
    KeptBy ruleSet moments deposits after.stores.storage := by
  rcases moves.storage with same | ⟨-, same⟩
  · rw [same]
    exact keptBy
  · rw [same]
    exact keptBy.activated rules

theorem install (orderly : ruleSet.Orderly) (rules : worker.ruleSet = ruleSet)
    (keptBy : KeptBy ruleSet moments deposits worker.stores.storage) :
    let stage := worker.stage environment .install world
    KeptBy ruleSet (moments ++ Observation.moments stage.observed) deposits
      stage.after.stores.storage := by
  by_cases new : worker.state = .installing
  · obtain ⟨result, storage, learned, precaching, staged⟩ :=
      worker.exists_stage_install environment world new
    have opened : KeptBy ruleSet moments deposits
        (worker.stores.storage.openPartition precachePartition) :=
      keptBy.of_entries (entries_openPartition _ _)
    have filled := KeptBy.precaching orderly precaching opened
    rw [staged]
    cases result with
    | error e => exact filled
    | ok done => exact movesOn (worker.withStorage storage).movesOn_installed rules filled
  · rw [worker.stage_install_of_settled environment world new]
    exact keptBy.reads []

/-- Every operation keeps every partition within its bounds. -/
theorem stage (orderly : ruleSet.Orderly) (rules : worker.ruleSet = ruleSet)
    (routes : worker.routes.rules = ruleSet.rules)
    (keptBy : KeptBy ruleSet moments deposits worker.stores.storage) (operation : Operation) :
    let stage := worker.stage environment operation world
    KeptBy ruleSet (moments ++ Observation.moments stage.observed) (deposits ++ stage.deposits)
      stage.after.stores.storage := by
  cases operation with
  | install =>
      have installed := keptBy.install environment world orderly rules
      simpa only [Worker.stage, Worker.deposits, List.append_nil] using installed
  | message data =>
      have received := movesOn (worker.movesOn_receive data) rules keptBy
      simpa only [Worker.stage, Worker.perform, Worker.deposits, Observation.moments_nil,
        List.append_nil] using received
  | activate =>
      have activated := movesOn worker.movesOn_activate rules keptBy
      simpa only [Worker.stage, Worker.perform, Worker.deposits, Observation.moments_nil,
        List.append_nil] using activated
  | fetch request signal given =>
      rcases worker.touched_handle request signal environment world given with
        ⟨stores, none, unseen⟩ | ⟨index, rule, -, -, matched, touched⟩
      · simp only [Worker.stage, Worker.perform, Worker.fetch, Worker.deposits, stores, none,
          unseen, Observation.moments_nil, List.append_nil]
        exact keptBy
      · have member : rule ∈ ruleSet.rules := by
          rw [← routes]
          exact CompiledRuleSet.mem_of_firstMatch matched
        exact keptBy.touched orderly member touched
  | replay =>
      obtain ⟨report, queues, learned, -, staged⟩ := worker.exists_stage_replay environment world
      rw [staged]
      simp only [List.append_nil]
      exact keptBy.reads _
  | sweep =>
      simp only [Worker.stage, Worker.perform, Worker.sweep, Worker.deposits,
        Environment.recorded_now, List.nil_append, List.append_nil, Observation.moments_clock,
        Observation.moments_nil]
      apply (keptBy.reads [(environment.now world).1]).sweepAll (by simp)
      intro limit bounded
      obtain ⟨rule, member, used, limits⟩ := Worker.exists_of_mem_boundedPartitions bounded
      rw [routes] at member
      rw [← RuleSet.effectiveExpiration_eq_boundsOf orderly.clean member used, limits]

end Storage.KeptBy

/-- A worker carries out a rule set, and its caches are kept as the set says. -/
structure Worker.Keeps (ruleSet : RuleSet) (moments : List Moment) (deposits : List Deposit)
    (worker : Worker) : Prop where
  rules : worker.ruleSet = ruleSet
  routes : worker.routes.rules = ruleSet.rules
  storage : worker.stores.storage.KeptBy ruleSet moments deposits

namespace Worker

variable {ruleSet : RuleSet} {start : Worker}

theorem keeps_of_new (created : new ruleSet = .ok start) : start.Keeps ruleSet [] [] := by
  obtain ⟨compiled, compiles, rfl⟩ := eq_of_new created
  exact ⟨rfl, RuleSet.rules_of_compile compiles, .empty⟩

theorem Keeps.stage {worker : Worker} {moments : List Moment} {deposits : List Deposit}
    (orderly : ruleSet.Orderly) (keeps : worker.Keeps ruleSet moments deposits)
    (environment : Environment ν) (operation : Operation) (world : ν) :
    let stage := worker.stage environment operation world
    stage.after.Keeps ruleSet (moments ++ Observation.moments stage.observed)
      (deposits ++ stage.deposits) := by
  obtain ⟨rules, routes⟩ := worker.rules_stage environment operation world
  exact ⟨rules.trans keeps.rules, (congrArg (·.rules) routes).trans keeps.routes,
    keeps.storage.stage environment world orderly keeps.rules keeps.routes operation⟩

/-- After every history, the caches are kept as the rules say. -/
theorem keeps_history (created : new ruleSet = .ok start) (orderly : ruleSet.Orderly)
    (environment : Environment ν) (steps : List (Operation × ν)) :
    let history := start.history environment steps
    history.worker.Keeps ruleSet history.moments history.deposits := by
  refine history_induction environment start
    (motive := fun history => history.worker.Keeps ruleSet history.moments history.deposits)
    ?_ ?_ steps
  · exact keeps_of_new created
  · intro past operation world keeps
    rw [History.moments_extend, History.deposits_extend]
    exact keeps.stage orderly environment operation world

end Worker

/-! ## A site with two pages -/

/-- A rule that keeps the page that was asked for last, for a minute. -/
def CachingRule.lastPage : CachingRule where
  origin := .runtimeCaching
  matcher := .pathPrefix "/"
  strategy := .cacheFirst
  cacheName := some "pages"
  expiration := some ⟨some 1, some 60⟩

/-- A policy with one rule. -/
def RuleSet.lastPage : RuleSet where
  lifecycle := ⟨true, true, true⟩
  includeBuildManifest := false
  precache := .empty
  rules := [.lastPage]

theorem RuleSet.orderly_lastPage : RuleSet.lastPage.Orderly where
  clean := rfl
  named rule member _ := by
    obtain rfl := List.mem_singleton.mp member
    exact ⟨"pages", rfl, by decide⟩

/-- The new worker of this policy. -/
def Worker.lastPage : Worker where
  ruleSet := .lastPage
  routes := ⟨[⟨.lastPage, ⟨.pathPrefix "/", none⟩⟩]⟩
  stores := .empty
  state := .installing
  skipWaiting := true
  clientsClaimed := false

theorem Worker.new_lastPage : Worker.new .lastPage = .ok .lastPage := rfl

/-- The answers of a site with two pages. -/
def twoPages : List (String × OriginRoute) :=
  [("http://localhost/a", ⟨.ok ByteArray.empty, 0⟩),
    ("http://localhost/b", ⟨.ok ByteArray.empty, 0⟩)]

end CachePolicy
