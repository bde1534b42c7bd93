import CachePolicy.Proofs.Worker.Hits
import CachePolicy.Proofs.Worker.Removal
import CachePolicy.Proofs.Worker.Waiting

/-!
# The effects of a request

A request asks the network once at most, and changes only what its rule works on: one partition
of the caches, or one queue.  In the partition it may remove the entry for its own URL, if that is
too old, or store a response.  The bounds of the rule decide which entries for other URLs make
room for the response; the others stay as they were, in their order.

Nothing is assumed about the worker, which may hold anything, nor about the clock and the network.
-/

namespace CachePolicy

/-! ## Calls -/

namespace Task

variable {request : PageRequest} {signal : Option Signal} {most : Nat}

/-- A task asks the network for one request only, and not more often than `most`. -/
def Asks (request : PageRequest) (signal : Option Signal) : Task α → Nat → Prop
  | .done _, _ => True
  | .now next, most => ∀ moment, (next moment).Asks request signal most
  | .lookup _ _ next, most => ∀ found, (next found).Asks request signal most
  | .delete _ _ next, most => next.Asks request signal most
  | .put _ _ _ _ next, most => next.Asks request signal most
  | .sweep _ _ _ next, most => next.Asks request signal most
  | .enqueue _ _ _ next, most => next.Asks request signal most
  | .fetch call next, most => call.request = request ∧ call.signal = signal ∧
    ∃ fewer, most = fewer + 1 ∧ ∀ reply, (next reply).Asks request signal fewer

namespace Asks

theorem run {task : Task α} (asks : task.Asks request signal most) (environment : Environment ν)
    (stores : Stores) (world : ν) (seen : List Observation) :
    ∃ made : List (Call × Reply),
      Observation.exchanges (task.run environment.recorded (stores, world, seen)).2.2.2 =
        Observation.exchanges seen ++ made ∧
      made.length ≤ most ∧
      ∀ exchange ∈ made, exchange.1.request = request ∧ exchange.1.signal = signal := by
  induction task generalizing most stores world seen with
  | done result => exact ⟨[], by simp [Task.run], Nat.zero_le _, by simp⟩
  | now next ih =>
      obtain ⟨made, learned, rest⟩ := ih _ (asks _) stores _
        (seen ++ [.clock (environment.now world).1])
      refine ⟨made, learned.trans ?_, rest⟩
      simp
  | lookup partition url next ih => exact ih _ (asks _) _ _ _
  | delete partition url next ih => exact ih asks _ _ _
  | put partition url response moment next ih => exact ih asks _ _ _
  | sweep partition bounds moment next ih => exact ih asks _ _ _
  | enqueue queue request moment next ih => exact ih asks _ _ _
  | fetch call next ih =>
      obtain ⟨sameRequest, sameSignal, fewer, rfl, later⟩ := asks
      obtain ⟨made, learned, few, same⟩ := ih _ (later (environment.fetch call world).1) stores
        (environment.fetch call world).2
        (seen ++ [.exchange call (environment.fetch call world).1])
      refine ⟨(call, (environment.fetch call world).1) :: made, learned.trans ?_,
        Nat.succ_le_succ few, ?_⟩
      · simp
      · intro exchange member
        cases member with
        | head => exact ⟨sameRequest, sameSignal⟩
        | tail _ member => exact same exchange member

theorem fetch {timeout : Option Millis} {next : Reply → Task α}
    (later : ∀ reply, (next reply).Asks request signal most) :
    (Task.fetch ⟨request, timeout, signal⟩ next).Asks request signal (most + 1) :=
  ⟨rfl, rfl, most, rfl, later⟩

theorem passes (partition : String) :
    Passes partition fun task : Task α => task.Asks request signal most where
  now _ later := later
  lookup _ _ later := later
  delete _ _ later := later
  put _ _ _ _ later := later
  sweep _ _ _ later := later

end Asks

end Task

namespace CachingRule

variable (index : Nat) {rule : CachingRule} (request : PageRequest) (signal : Option Signal)

/-- Whatever its strategy, a rule asks the network for its request once at most. -/
theorem asks_dispatch (rule : CachingRule) :
    (rule.dispatch index request signal).Asks request signal 1 := by
  rw [dispatch]
  cases rule.strategy with
  | cacheFirst =>
      apply (Task.Asks.passes _).cached
      intro found
      cases found with
      | some response => trivial
      | none =>
          apply Task.Asks.fetch
          intro reply
          cases reply.settled with
          | ok response => exact (Task.Asks.passes _).store trivial
          | error e => trivial
  | networkFirst =>
      apply Task.Asks.fetch
      intro reply
      split
      · exact (Task.Asks.passes _).store trivial
      · trivial
      · apply (Task.Asks.passes _).cached
        intro found
        cases found with
        | some response => trivial
        | none => trivial
  | staleWhileRevalidate =>
      apply (Task.Asks.passes _).cached
      intro found
      apply Task.Asks.fetch
      intro reply
      cases reply.settled with
      | ok response =>
          apply (Task.Asks.passes _).store
          cases found with
          | some old => trivial
          | none => trivial
      | error e =>
          cases found with
          | some old => trivial
          | none => trivial
  | networkOnly =>
      apply Task.Asks.fetch
      intro reply
      split
      · trivial
      · trivial
      · cases rule.replayQueue with
        | some queue => exact fun _ => trivial
        | none => trivial
  | cacheOnly =>
      apply (Task.Asks.passes _).cached
      intro found
      cases found with
      | some response => trivial
      | none => trivial

/-- A rule that never asks the network does not. -/
theorem asks_dispatch_of_cacheOnly (strategy : rule.strategy = .cacheOnly) :
    (rule.dispatch index request signal).Asks request signal 0 := by
  rw [dispatch, strategy]
  apply (Task.Asks.passes _).cached
  intro found
  cases found with
  | some response => trivial
  | none => trivial

end CachingRule

/-! ## Changes of the caches -/

namespace Storage

variable {before after : Storage} {rule : CachingRule} {href : String} {moments : List Moment}

/-- The entry for a URL in the partition of a rule is too old at one of some moments. -/
def Expires (before : Storage) (rule : CachingRule) (href : String) (moments : List Moment) :
    Prop :=
  ∃ moment ∈ moments, ∃ bounds entry, rule.effectiveExpiration = some bounds ∧
    before.lookup rule.workingPartition href = some entry ∧ bounds.isFresh moment entry = false

/-- What is left where a rule has stored an entry. -/
structure Receives (before : Storage) (rule : CachingRule) (own : CachedEntry) (after : Storage) :
    Prop where
  /-- Other partitions are as before. -/
  elsewhere : ∀ partition, partition ≠ rule.workingPartition →
    after.get? partition = before.get? partition
  /-- The entry is the newest. -/
  newest : (after.entries rule.workingPartition).getLast? = some own
  /-- There is no other for its URL. -/
  only : ∀ entry ∈ after.entries rule.workingPartition, entry.url = own.url → entry = own
  /-- The entries for other URLs are as before and in the same order, as far as they are left. -/
  others : (without own.url (after.entries rule.workingPartition)).Sublist
    (without own.url (before.entries rule.workingPartition))
  /-- An entry for another URL is not left if it is too old, or if as many newer ones as the bound
  on their number allows are left. -/
  lost : ∀ entry ∈ before.entries rule.workingPartition, entry.url ≠ own.url →
    entry ∉ after.entries rule.workingPartition →
    ∃ bounds, rule.effectiveExpiration = some bounds ∧
      (bounds.isFresh own.storedAt entry = false ∨
        ∃ most older newer, bounds.normalized.maxEntries = some most ∧
          without own.url (before.entries rule.workingPartition) ++ [own] =
            older ++ entry :: newer ∧
          (after.entries rule.workingPartition).Sublist newer ∧
          (after.entries rule.workingPartition).length = most.toNat)

/-- What a request leaves of the caches that a rule serves it from. -/
inductive Serves (before : Storage) (rule : CachingRule) (href : String) (moments : List Moment) :
    Storage → Prop where
  | unchanged : Serves before rule href moments before
  /-- The entry for the URL was too old, and is removed. -/
  | expired : before.Expires rule href moments →
      Serves before rule href moments (before.delete rule.workingPartition href)
  /-- A complete response was stored for the URL. -/
  | stored {own : CachedEntry} {after : Storage} :
      rule.strategy.writesCache = true → own.url = href → own.response.isCacheable = true →
      own.storedAt ∈ moments → before.Receives rule own after →
      Serves before rule href moments after

theorem get?_modify (before : Storage) (partition other : String)
    (change : List CachedEntry → List CachedEntry) :
    (before.modify partition change).get? other =
      if other = partition then (before.get? partition).map change else before.get? other := by
  rw [modify]
  cases present : before.get? partition with
  | some entries => exact SortedMap.get?_insert ..
  | none =>
      by_cases same : other = partition
      · rw [if_pos same, same]
        exact present
      · rw [if_neg same]

theorem get?_modify_of_ne {partition other : String} (elsewhere : other ≠ partition)
    (change : List CachedEntry → List CachedEntry) :
    (before.modify partition change).get? other = before.get? other := by
  rw [get?_modify, if_neg elsewhere]

/-- A change that leaves the entries of a partition as they are leaves everything as it is. -/
theorem modify_eq_self {partition : String} {change : List CachedEntry → List CachedEntry}
    (kept : change (before.entries partition) = before.entries partition) :
    before.modify partition change = before := by
  apply SortedMap.ext_get?
  intro other
  rw [get?_modify]
  split
  next own =>
    rw [own]
    rw [entries] at kept
    cases present : before.get? partition with
    | none => rfl
    | some entries =>
        rw [present, Option.getD_some] at kept
        rw [Option.map_some, kept]
  next => rfl

theorem get?_delete_of_ne {partition other : String} (elsewhere : other ≠ partition)
    (url : String) : (before.delete partition url).get? other = before.get? other :=
  get?_modify_of_ne elsewhere _

theorem get?_keepFor_of_ne {other : String} (elsewhere : other ≠ rule.workingPartition)
    (url : String) (response : Response) (moment : Moment) :
    (before.keepFor rule url response moment).get? other = before.get? other := by
  have put : (before.put rule.workingPartition url response moment).get? other =
      before.get? other := by
    rw [Storage.put, SortedMap.get?_insert, if_neg elsewhere]
  cases bounded : rule.effectiveExpiration with
  | none =>
      simp only [keepFor, keep, bounded]
      exact put
  | some bounds =>
      simp only [keepFor, keep, bounded, sweep]
      rw [get?_modify_of_ne elsewhere, put]

theorem without_without (url : String) (entries : List CachedEntry) :
    without url (without url entries) = without url entries := by
  rw [without, without, List.filter_filter]
  simp only [Bool.and_self]

/-- What the bounds of a rule leave after an entry was stored. -/
theorem receives_of_entries {own : CachedEntry}
    (elsewhere : ∀ partition, partition ≠ rule.workingPartition →
      after.get? partition = before.get? partition)
    (entries : after.entries rule.workingPartition =
      tidied rule.effectiveExpiration own.storedAt
        (without own.url (before.entries rule.workingPartition) ++ [own])) :
    before.Receives rule own after where
  elsewhere := elsewhere
  newest := by rw [entries, getLast?_tidied_append]
  only := by
    intro entry member same
    rw [entries] at member
    rcases List.mem_append.mp ((tidied_sublist _ _ _).subset member) with old | new
    · exact absurd same (mem_without.mp old).2
    · exact List.mem_singleton.mp new
  others := by
    rw [entries]
    have fewer := (tidied_sublist rule.effectiveExpiration own.storedAt
      (without own.url (before.entries rule.workingPartition) ++ [own])).filter (·.url != own.url)
    rwa [List.filter_append, List.filter_cons_of_neg (by simp), List.filter_nil, List.append_nil,
      ← without, ← without, without_without] at fewer
  lost := by
    intro entry member other gone
    have listed : entry ∈ without own.url (before.entries rule.workingPartition) ++ [own] :=
      List.mem_append_left _ (mem_without.mpr ⟨member, other⟩)
    rw [entries] at gone ⊢
    cases bounded : rule.effectiveExpiration with
    | none =>
        rw [bounded] at gone
        exact absurd listed gone
    | some bounds =>
        rw [bounded] at gone
        exact ⟨bounds, rfl, Expiration.cases_of_notMem_swept listed gone⟩

/-- A look-up leaves the entries for other URLs as they were, and other partitions. -/
theorem Purged.frame (purged : before.Purged rule href moments after) :
    (∀ partition, partition ≠ rule.workingPartition →
        after.get? partition = before.get? partition) ∧
      without href (after.entries rule.workingPartition) =
        without href (before.entries rule.workingPartition) := by
  cases purged with
  | unread => exact ⟨fun _ _ => rfl, rfl⟩
  | read moment => exact ⟨fun _ _ => rfl, rfl⟩
  | dropped bounded found stale =>
      refine ⟨fun _ other => get?_delete_of_ne other _, ?_⟩
      rw [entries_delete, if_pos rfl, without_without]

theorem Purged.serves (purged : before.Purged rule href moments after) {all : List Moment}
    (listed : ∀ moment ∈ moments, moment ∈ all) : before.Serves rule href all after := by
  cases purged with
  | unread => exact .unchanged
  | read moment => exact .unchanged
  | dropped bounded found stale =>
      exact .expired ⟨_, listed _ List.mem_cons_self, _, _, bounded, found, stale⟩

/-- A look-up and an answer of the network leave what a request leaves. -/
theorem Touched.serves {deposits : List Deposit}
    (touched : before.Touched rule href moments deposits after) :
    before.Serves rule href moments after := by
  obtain ⟨first, second, middle, rfl, purged, supplied⟩ := touched
  have looked : before.Serves rule href (first ++ second) middle :=
    purged.serves fun moment member => List.mem_append_left _ member
  cases supplied with
  | untimed => exact looked
  | timed moment => exact looked
  | @stored moment response writes complete =>
      obtain ⟨elsewhere, others⟩ := purged.frame
      have received : before.Receives rule ⟨href, response, moment⟩
          (middle.keepFor rule href response moment) := by
        apply receives_of_entries
        · intro partition other
          rw [get?_keepFor_of_ne other, elsewhere partition other]
        · rw [entries_keepFor, if_pos rfl, others]
      exact .stored writes rfl complete (List.mem_append_right _ List.mem_cons_self) received

/-- A rule without a cache leaves the caches as they were. -/
theorem Serves.eq_of_unused (serves : before.Serves rule href moments after)
    (unused : rule.strategy.usesCache = false) : after = before := by
  cases serves with
  | unchanged => rfl
  | expired expires =>
      obtain ⟨_, -, _, _, bounded, -⟩ := expires
      rw [CachingRule.usesCache_of_effectiveExpiration bounded] at unused
      cases unused
  | stored writes =>
      rw [Strategy.usesCache_of_writesCache writes] at unused
      cases unused

/-- A rule that stores nothing removes the entry for the URL at most. -/
theorem Serves.eq_or_expired (serves : before.Serves rule href moments after)
    (reads : rule.strategy.writesCache = false) :
    after = before ∨ before.Expires rule href moments ∧
      after = before.delete rule.workingPartition href := by
  cases serves with
  | unchanged => exact .inl rfl
  | expired expires => exact .inr ⟨expires, rfl⟩
  | stored writes =>
      rw [writes] at reads
      cases reads

end Storage

/-! ## Changes of the queues -/

/-- What a request leaves of the queues of a rule: the request waits at the end of the queue that
the rule names, or all is as before. -/
inductive Stores.Enqueues (before : Stores) (rule : CachingRule) (request : PageRequest) :
    SortedMap String WaitingQueue → Prop where
  | unchanged : Enqueues before rule request before.queues
  | appended {queue : ReplayQueue} {waiting : WaitingQueue} (moment : Moment) :
      rule.replayQueue = some queue → before.queues.get? queue.name = some waiting →
      Enqueues before rule request
        (before.queues.insert queue.name (waiting.push request moment))

theorem CachingRule.enqueues_dispatch (environment : Environment ν) (index : Nat)
    (rule : CachingRule) (request : PageRequest) (signal : Option Signal) (stores : Stores)
    (world : ν) :
    stores.Enqueues rule request ((rule.dispatch index request signal).run environment.recorded
      (stores, world, [])).2.1.queues := by
  rcases rule.dispatch_queues environment index request signal stores world with
    ⟨same, -⟩ | ⟨name, moment, -, after, queues⟩
  · rw [same]
    exact .unchanged
  · obtain ⟨queue, named, rfl⟩ := queues.named
    rw [after, Stores.enqueue]
    cases present : stores.queues.get? queue.name with
    | none => exact .unchanged
    | some waiting => exact .appended moment named present

/-! ## Requests -/

namespace Worker

variable (environment : Environment ν) (worker : Worker) (request : PageRequest)
  (signal : Option Signal) (given : Bool) (world : ν)

/-- A worker hands a request to a rule: it is active, the page has not given up on the request, and
no precached response comes before the rule. -/
structure Dispatches (index : Nat) (rule : CachingRule) : Prop where
  active : worker.state = .activated
  ungiven : given = false
  decided : worker.decision request.info = .rule index rule

variable {worker request given}

theorem Dispatches.run_handle {index : Nat} {rule : CachingRule}
    (dispatches : worker.Dispatches request given index rule) :
    (worker.handle request signal given).run environment (worker.stores, world) =
      (rule.dispatch index request signal).run environment (worker.stores, world) := by
  have carried := worker.run_handle_of_decision request signal environment world dispatches.active
  rw [dispatches.decided] at carried
  rw [dispatches.ungiven]
  exact carried.2

variable (worker request given)

/-- A request that is handed to no rule is answered on the spot. -/
theorem run_handle_of_not_dispatches
    (alone : ∀ index rule, ¬ worker.Dispatches request given index rule) :
    ∃ outcome, (worker.handle request signal given).run environment (worker.stores, world) =
      (outcome, worker.stores, world) := by
  rcases worker.handle_cases request signal environment world given with
    ⟨outcome, -, same, -⟩ | ⟨index, rule, active, ungiven, matched, same, -⟩
  · exact ⟨outcome, same⟩
  · subst ungiven
    have carried := worker.run_handle_of_decision request signal environment world active
    cases decided : worker.decision request.info with
    | precache =>
        rw [decided] at carried
        obtain ⟨response, -, ran⟩ := carried
        exact ⟨_, ran⟩
    | rule index rule => exact absurd ⟨active, rfl, decided⟩ (alone index rule)
    | passthrough =>
        rw [decided] at carried
        exact ⟨_, carried.2⟩

theorem Dispatches.fetch_eq {worker : Worker} {request : PageRequest} {given : Bool} {index : Nat}
    {rule : CachingRule} (dispatches : worker.Dispatches request given index rule) :
    worker.fetch environment request signal given world =
      let ran := (rule.dispatch index request signal).run environment (worker.stores, world)
      (ran.1, { worker with stores := ran.2.1 }, ran.2.2) := by
  rw [fetch, dispatches.run_handle environment signal world]

/-- A request for which the network is asked is handed to a rule. -/
theorem exists_dispatches_of_exchange {exchange : Call × Reply}
    (made : exchange ∈ Observation.exchanges
      (worker.fetch environment.recorded request signal given (world, [])).2.2.2) :
    ∃ index rule, worker.Dispatches request given index rule := by
  by_contra alone
  simp only [not_exists] at alone
  obtain ⟨outcome, ran⟩ := worker.run_handle_of_not_dispatches environment.recorded request signal
    given (world, []) alone
  rw [fetch, ran] at made
  exact absurd made List.not_mem_nil

end Worker

namespace CachingRule

variable (environment : Environment ν) (index : Nat) (rule : CachingRule) (request : PageRequest)
  (signal : Option Signal) (stores : Stores) (world : ν)

theorem exchanges_dispatch :
    let ran := (rule.dispatch index request signal).run environment.recorded (stores, world, [])
    Observation.exchanges ran.2.2.2 = [] ∨
      ∃ timeout reply, Observation.exchanges ran.2.2.2 = [(⟨request, timeout, signal⟩, reply)] := by
  intro ran
  obtain ⟨made, learned, few, same⟩ :=
    (asks_dispatch index request signal rule).run environment stores world []
  rw [Observation.exchanges_nil, List.nil_append] at learned
  rw [learned]
  match made with
  | [] => exact .inl rfl
  | [(⟨_, timeout, _⟩, reply)] =>
      obtain ⟨rfl, rfl⟩ := same _ List.mem_cons_self
      exact .inr ⟨timeout, reply, rfl⟩
  | _ :: _ :: _ =>
      rw [List.length_cons, List.length_cons] at few
      omega

theorem exchanges_dispatch_of_cacheOnly (strategy : rule.strategy = .cacheOnly) :
    Observation.exchanges ((rule.dispatch index request signal).run environment.recorded
      (stores, world, [])).2.2.2 = [] := by
  obtain ⟨made, learned, none, -⟩ :=
    (asks_dispatch_of_cacheOnly index request signal strategy).run environment stores world []
  rw [learned, List.length_eq_zero_iff.mp (Nat.le_zero.mp none)]
  rfl

theorem exchanges_dispatch_of_hit (strategy : rule.strategy = .cacheFirst) {response : Response}
    (hit : ((rule.dispatch index request signal).run environment.recorded (stores, world, [])).1 =
      .response response .cache (some index)) :
    Observation.exchanges ((rule.dispatch index request signal).run environment.recorded
      (stores, world, [])).2.2.2 = [] := by
  have ran := rule.run_cacheFirst environment index strategy request signal stores world
  split at ran
  · exact ran.2
  · exact absurd hit (ran.1 response)

theorem serves_dispatch :
    let ran := (rule.dispatch index request signal).run environment.recorded (stores, world, [])
    stores.storage.Serves rule request.href (Observation.moments ran.2.2.2) ran.2.1.storage := by
  obtain ⟨moments, touched, learned⟩ :=
    rule.touches_dispatch environment index request signal stores world []
  rw [Observation.moments_nil, List.nil_append] at learned
  rw [← learned] at touched
  exact touched.serves

end CachingRule

/-- The effects of a request, whatever the worker holds, and whatever the clock, the network and
the page do.  The network is asked for this request once at most.  It is not asked when the request
is left to the browser, was given up before, or is answered from the precache; and the worker then
stays as it was.  Otherwise a rule decides what may change: the partition that it serves the
request from, as `Storage.Serves` says, or the queue that it names.  All else stays as it was. -/
theorem effects_of_request (environment : Environment ν) (worker : Worker) (request : PageRequest)
    (signal : Option Signal) (given : Bool) (world : ν) :
    let fetched := worker.fetch environment.recorded request signal given (world, [])
    let outcome := fetched.1
    let after := fetched.2.1
    let observed := fetched.2.2.2
    let exchanges := Observation.exchanges observed
    (exchanges = [] ∨ ∃ timeout reply, exchanges = [(⟨request, timeout, signal⟩, reply)]) ∧
      (outcome = .passthrough ∨ given = true ∨
        (∃ response rule, outcome = .response response .precache rule) → exchanges = []) ∧
      { after with stores := worker.stores } = worker ∧
      ((∀ index rule, ¬ worker.Dispatches request given index rule) →
        after = worker ∧ exchanges = []) ∧
      ∀ index rule, worker.Dispatches request given index rule →
        match rule.strategy with
        | .cacheFirst =>
          (∀ response, outcome = .response response .cache (some index) → exchanges = []) ∧
            after.stores.queues = worker.stores.queues ∧
            worker.stores.storage.Serves rule request.href (Observation.moments observed)
              after.stores.storage
        | .networkFirst | .staleWhileRevalidate =>
          after.stores.queues = worker.stores.queues ∧
            worker.stores.storage.Serves rule request.href (Observation.moments observed)
              after.stores.storage
        | .cacheOnly =>
          exchanges = [] ∧ after.stores.queues = worker.stores.queues ∧
            (after.stores.storage = worker.stores.storage ∨
              worker.stores.storage.Expires rule request.href (Observation.moments observed) ∧
                after.stores.storage =
                  worker.stores.storage.delete rule.workingPartition request.href)
        | .networkOnly =>
          after.stores.storage = worker.stores.storage ∧
            worker.stores.Enqueues rule request after.stores.queues := by
  intro fetched outcome after observed exchanges
  by_cases alone : ∀ index rule, ¬ worker.Dispatches request given index rule
  · obtain ⟨spot, ran⟩ := worker.run_handle_of_not_dispatches environment.recorded request signal
      given (world, []) alone
    have same : fetched = (spot, worker, world, []) := by
      change Worker.fetch _ _ _ _ _ _ = _
      rw [Worker.fetch, ran]
    have unasked : exchanges = [] := by
      change Observation.exchanges fetched.2.2.2 = []
      rw [same, Observation.exchanges_nil]
    have unchanged : after = worker := by
      change fetched.2.1 = worker
      rw [same]
    refine ⟨.inl unasked, fun _ => unasked, by rw [unchanged], fun _ => ⟨unchanged, unasked⟩, ?_⟩
    intro index rule dispatches
    exact absurd dispatches (alone index rule)
  · simp only [not_forall, not_not] at alone
    obtain ⟨index, rule, dispatches⟩ := alone
    have handed := dispatches.run_handle environment.recorded signal (world, [])
    let ran := (rule.dispatch index request signal).run environment.recorded
      (worker.stores, world, [])
    have same : fetched = (ran.1, { worker with stores := ran.2.1 }, ran.2.2) := by
      change Worker.fetch _ _ _ _ _ _ = _
      rw [Worker.fetch, handed]
    have ofRule : ran.1.OfRule index :=
      (rule.leaves_dispatch index request signal).run environment.recorded worker.stores (world, [])
    simp only [exchanges, observed, after, outcome, same]
    refine ⟨rule.exchanges_dispatch environment index request signal worker.stores world, ?_,
      trivial, fun alone => absurd dispatches (alone index rule), ?_⟩
    · rintro (left | gone | ⟨response, other, precached⟩)
      · rw [left] at ofRule
        exact ofRule.elim
      · cases gone.symm.trans dispatches.ungiven
      · rw [precached] at ofRule
        exact absurd rfl ofRule.1
    · intro other chosen dispatched
      cases dispatched.decided.symm.trans dispatches.decided
      have serves := rule.serves_dispatch environment index request signal worker.stores world
      have silent (caches : rule.strategy ≠ .networkOnly) : ran.2.1.queues = worker.stores.queues :=
        (rule.silent_dispatch environment.recorded index caches request signal worker.stores _).1
      cases strategy : rule.strategy with
      | cacheFirst =>
          refine ⟨fun response => ?_, silent (by simp [strategy]), serves⟩
          exact rule.exchanges_dispatch_of_hit environment index request signal worker.stores world
            strategy
      | networkFirst => exact ⟨silent (by simp [strategy]), serves⟩
      | staleWhileRevalidate => exact ⟨silent (by simp [strategy]), serves⟩
      | cacheOnly =>
          refine ⟨?_, silent (by simp [strategy]), serves.eq_or_expired (by rw [strategy]; rfl)⟩
          exact rule.exchanges_dispatch_of_cacheOnly environment index request signal worker.stores
            world strategy
      | networkOnly =>
          refine ⟨serves.eq_of_unused (by rw [strategy]; rfl), ?_⟩
          exact rule.enqueues_dispatch environment index request signal worker.stores world

/-- After the first page is kept, the second is asked for once, and the first makes room for it. -/
theorem effects_of_request_lastPage :
    let worker := (Worker.lastPage.history Bench.environment firstVisit).worker
    let request := PageRequest.onSite "GET" "/b"
    let fetched := worker.fetch Bench.environment.recorded request none false
      (.at 66000 twoPages false, [])
    let exchanges := Observation.exchanges fetched.2.2.2
    worker.Dispatches request false 0 .lastPage ∧
      worker.stores.storage.urls "pages" = ["http://localhost/a"] ∧
      fetched.2.1.stores.storage.urls "pages" = ["http://localhost/b"] ∧
      exchanges.length = 1 ∧
      (exchanges = [] ∨ ∃ timeout reply, exchanges = [(⟨request, timeout, none⟩, reply)]) ∧
      fetched.2.1.stores.queues = worker.stores.queues ∧
      worker.stores.storage.Serves .lastPage request.href
        (Observation.moments fetched.2.2.2) fetched.2.1.stores.storage := by
  intro worker request fetched exchanges
  have dispatches : worker.Dispatches request false 0 .lastPage :=
    ⟨by decide +kernel, rfl, by decide +kernel⟩
  have effects := effects_of_request Bench.environment worker request none false
    (.at 66000 twoPages false)
  have same : worker.fetch Bench.environment.recorded request none false
    (.at 66000 twoPages false, []) = fetched := rfl
  dsimp only at effects
  rw [same] at effects
  obtain ⟨once, -, -, -, served⟩ := effects
  obtain ⟨-, queues, serves⟩ := served 0 .lastPage dispatches
  exact ⟨dispatches, by decide +kernel, by decide +kernel, by decide +kernel, once, queues, serves⟩

end CachePolicy
