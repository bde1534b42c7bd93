import CachePolicy.Proofs.Worker.Effects

/-!
# Requests that the page gives up on

A page may give up on a request before the worker takes it, or while the network is asked for it.
The worker then stores nothing and leaves nothing in a queue, whatever the network has answered.
All that may have changed is that an entry for the URL, too old to be served, is gone.  The request
ends as given up, except that a copy which was found before the network was asked is served all the
same.
-/

namespace CachePolicy

/-! ## Fresh copies -/

/-- Whether an entry is within the bound that a rule puts on the age of entries. -/
def CachingRule.isFresh (rule : CachingRule) (moment : Moment) (entry : CachedEntry) : Bool :=
  match rule.effectiveExpiration with
  | some bounds => bounds.isFresh moment entry
  | none => true

/-- The copy from which a rule may answer at a moment. -/
def Storage.freshCopy? (storage : Storage) (rule : CachingRule) (href : String)
    (moment : Moment) : Option Response :=
  ((storage.lookup rule.workingPartition href).filter (rule.isFresh moment)).map (·.response)

theorem Expiration.isFresh_eq_false_iff {bounds : Expiration} {moment : Moment}
    {entry : CachedEntry} : bounds.isFresh moment entry = false ↔
      ∃ seconds, bounds.maxAgeSeconds = some seconds ∧ 0 < seconds ∧
        span seconds < moment - entry.storedAt := by
  rw [← Bool.not_eq_true, isFresh_iff]
  simp only [normalized, Option.filter_eq_some_iff, decide_eq_true_eq, not_forall, exists_prop,
    Int.not_le, and_assoc]

/-- An entry is not fresh when the rule bounds the age of the entries in its cache, and the entry is
past that age. -/
theorem CachingRule.isFresh_eq_false_iff {rule : CachingRule} {moment : Moment}
    {entry : CachedEntry} :
    rule.isFresh moment entry = false ↔ rule.strategy.usesCache = true ∧
      ∃ bounds seconds, rule.expiration = some bounds ∧ bounds.maxAgeSeconds = some seconds ∧
        0 < seconds ∧ span seconds < moment - entry.storedAt := by
  cases bounded : rule.expiration with
  | none => simp [isFresh, effectiveExpiration, bounded]
  | some bounds =>
      have aged : (∃ limits seconds, some bounds = some limits ∧
          limits.maxAgeSeconds = some seconds ∧ 0 < seconds ∧
            span seconds < moment - entry.storedAt) ↔ bounds.isFresh moment entry = false := by
        simp [Expiration.isFresh_eq_false_iff]
      have same : bounds.normalized.isFresh moment entry = bounds.isFresh moment entry := by
        simp only [Expiration.isFresh, Expiration.normalized_normalized]
      rw [aged, isFresh, effectiveExpiration, bounded]
      cases rule.strategy.usesCache with
      | false => simp
      | true =>
          cases unbounded : bounds.isUnbounded with
          | false => simp [unbounded, same]
          | true =>
              have fresh : bounds.isFresh moment entry = true := by
                rw [Expiration.isUnbounded, Bool.and_eq_true, Option.isNone_iff_eq_none,
                  Option.isNone_iff_eq_none] at unbounded
                simp [Expiration.isFresh, unbounded.2]
              simp [unbounded, fresh]

namespace Storage.Purged

variable {before after : Storage} {rule : CachingRule} {href : String} {moments : List Moment}

theorem eq_or_stale (purged : before.Purged rule href moments after) :
    after = before ∨ ∃ moment ∈ moments, ∃ entry,
      before.lookup rule.workingPartition href = some entry ∧
        rule.isFresh moment entry = false ∧
        after = before.delete rule.workingPartition href := by
  cases purged with
  | unread => exact .inl rfl
  | read moment => exact .inl rfl
  | dropped bounded found stale =>
      refine .inr ⟨_, List.mem_cons_self, _, found, ?_, rfl⟩
      rw [CachingRule.isFresh, bounded]
      exact stale

/-- A look-up makes no partition, and no entry is stored or moved. -/
theorem sublist (purged : before.Purged rule href moments after) (partition : String) :
    after.contains partition = before.contains partition ∧
      (after.entries partition).Sublist (before.entries partition) := by
  rcases purged.eq_or_stale with rfl | ⟨_, -, _, -, -, rfl⟩
  · exact ⟨rfl, .refl _⟩
  · constructor
    · rw [SortedMap.contains, SortedMap.contains, Storage.delete, Storage.get?_modify]
      split
      next same => rw [Option.isSome_map, same]
      next => rfl
    · rw [Storage.entries_delete]
      split
      next same =>
        rw [same]
        exact List.filter_sublist
      next => exact .refl _

end Storage.Purged

/-- A look-up looks at the clock once at most, and finds the copy that is fresh then. -/
theorem Stores.exists_find_freshCopy (environment : Environment ν) (rule : CachingRule)
    (href : String) (stores : Stores) (world : ν) :
    ∃ (moments : List Moment) (middle : Storage) (later : ν),
      stores.storage.Purged rule href moments middle ∧
      (∀ moment ∈ moments, moment = (environment.now world).1) ∧
      stores.find environment.recorded rule.workingPartition href rule.effectiveExpiration
          (world, []) =
        (stores.storage.freshCopy? rule href (environment.now world).1, stores.withStorage middle,
          later, moments.map Observation.clock) := by
  rw [find, Storage.freshCopy?]
  cases looked : stores.storage.lookup rule.workingPartition href with
  | none => exact ⟨[], _, world, .unread, by simp, by simp [withStorage]⟩
  | some entry =>
      cases bounded : rule.effectiveExpiration with
      | none =>
          have fresh (moment : Moment) : rule.isFresh moment entry = true := by
            rw [CachingRule.isFresh, bounded]
          exact ⟨[], _, world, .unread, by simp, by simp [fresh, withStorage]⟩
      | some bounds =>
          have same (moment : Moment) : rule.isFresh moment entry = bounds.isFresh moment entry :=
            by rw [CachingRule.isFresh, bounded]
          cases fresh : bounds.isFresh (environment.now world).1 entry with
          | true =>
              exact ⟨[(environment.now world).1], _, (environment.now world).2, .read _, by simp,
                by simp [same, fresh, withStorage]⟩
          | false =>
              exact ⟨[(environment.now world).1], _, (environment.now world).2,
                .dropped bounded looked fresh, by simp, by simp [same, fresh]⟩

/-! ## Calls that are given up -/

namespace Task

variable (environment : Environment ν) {stores : Stores} {world : ν} {seen : List Observation}

/-- What a task has learned before is not forgotten. -/
theorem prefix_run (task : Task α) (stores : Stores) (world : ν) (seen : List Observation) :
    seen <+: (task.run environment.recorded (stores, world, seen)).2.2.2 := by
  induction task generalizing stores world seen with
  | done result => exact List.prefix_rfl
  | now next ih => exact (List.prefix_append ..).trans (ih _ _ _ _)
  | lookup partition url next ih => exact ih _ _ _ _
  | delete partition url next ih => exact ih _ _ _
  | put partition url response moment next ih => exact ih _ _ _
  | sweep partition bounds moment next ih => exact ih _ _ _
  | fetch call next ih => exact (List.prefix_append ..).trans (ih _ _ _ _)
  | enqueue queue request moment next ih => exact ih _ _ _

/-- A task that ends as soon as its call is given up has no further effect. -/
theorem run_fetch_aborted {call : Call} {next : Reply → Task α} {result : α}
    {ran : α × Stores × ν × List Observation}
    (ends : (Task.fetch call next).run environment.recorded (stores, world, seen) = ran)
    (aborted : ∀ exchange ∈ Observation.exchanges ran.2.2.2, exchange.2.aborted = true)
    (stops : ∀ reply, reply.settled = .error .aborted → next reply = .done result) :
    ran.1 = result ∧ ran.2.1 = stores := by
  subst ends
  have made : (call, (environment.fetch call world).1) ∈ Observation.exchanges
      ((Task.fetch call next).run environment.recorded (stores, world, seen)).2.2.2 := by
    have grown := (next (environment.fetch call world).1).prefix_run environment stores
      (environment.fetch call world).2 (seen ++ [.exchange call (environment.fetch call world).1])
    apply (grown.filterMap _).subset
    simp
  have settled : (environment.fetch call world).1.settled = .error .aborted := by
    rw [Reply.settled, if_pos (aborted _ made)]
  rw [run]
  simp only [Environment.recorded_fetch, stops _ settled]
  exact ⟨rfl, rfl⟩

end Task

namespace CachingRule

variable (environment : Environment ν) (index : Nat) (rule : CachingRule) (request : PageRequest)
  (signal : Option Signal) (stores : Stores) (world : ν)

/-- How a request ends that is given up while the network is asked for it. -/
def abandoned (copy : Option Response) : Outcome :=
  match rule.strategy with
  | .staleWhileRevalidate =>
    match copy with
    | some response => .response response .cache (some index)
    | none => .aborted
  | _ => .aborted

/-- A rule that looks for a copy and then asks the network leaves what the look-up has left, once
its call is given up. -/
theorem leaves_of_aborted {moments : List Moment} {middle : Storage} {later : ν}
    {seen : List Observation} {call : Call} {next : Reply → Task Outcome} {result : Outcome}
    {ran : Outcome × Stores × ν × List Observation}
    (purged : stores.storage.Purged rule request.href moments middle)
    (read : ∀ moment ∈ moments, moment = (environment.now world).1)
    (aborted : ∀ exchange ∈ Observation.exchanges ran.2.2.2, exchange.2.aborted = true)
    (ends : (Task.fetch call next).run environment.recorded
      (stores.withStorage middle, later, seen) = ran)
    (stops : ∀ reply, reply.settled = .error .aborted → next reply = .done result) :
    ran.2.1.queues = stores.queues ∧
      (∃ moments, (∀ moment ∈ moments, moment = (environment.now world).1) ∧
        stores.storage.Purged rule request.href moments ran.2.1.storage) ∧
      ran.1 = result := by
  obtain ⟨answer, left⟩ := Task.run_fetch_aborted environment ends aborted stops
  rw [answer, left]
  exact ⟨rfl, ⟨moments, read, purged⟩, rfl⟩

/-- Whatever its strategy, a rule does nothing more once its call is given up. -/
theorem run_dispatch_abandoned {ran : Outcome × Stores × ν × List Observation}
    (ends : (rule.dispatch index request signal).run environment.recorded (stores, world, []) = ran)
    {exchange : Call × Reply} (made : exchange ∈ Observation.exchanges ran.2.2.2)
    (given : exchange.2.aborted = true) :
    ran.2.1.queues = stores.queues ∧
      (∃ moments, (∀ moment ∈ moments, moment = (environment.now world).1) ∧
        stores.storage.Purged rule request.href moments ran.2.1.storage) ∧
      ran.1 = rule.abandoned index
        (stores.storage.freshCopy? rule request.href (environment.now world).1) := by
  have aborted : ∀ other ∈ Observation.exchanges ran.2.2.2, other.2.aborted = true := by
    have once := rule.exchanges_dispatch environment index request signal stores world
    dsimp only at once
    rw [ends] at once
    rcases once with none | ⟨timeout, reply, one⟩
    · rw [none] at made
      exact absurd made List.not_mem_nil
    · rw [one] at made ⊢
      intro other member
      rw [List.mem_singleton.mp member, ← List.mem_singleton.mp made]
      exact given
  have unasked (strategy : rule.strategy = .cacheOnly) : False := by
    have none := rule.exchanges_dispatch_of_cacheOnly environment index request signal stores world
      strategy
    rw [ends] at none
    rw [none] at made
    exact absurd made List.not_mem_nil
  obtain ⟨moments, middle, later, purged, read, found⟩ :=
    stores.exists_find_freshCopy environment rule request.href world
  rw [dispatch] at ends
  unfold abandoned
  cases strategy : rule.strategy with
  | cacheFirst =>
      simp only [strategy, Task.run_cached, found] at ends
      cases copy : stores.storage.freshCopy? rule request.href (environment.now world).1 with
      | some response =>
          rw [copy] at ends
          subst ends
          simp [served, Task.run] at made
      | none =>
          rw [copy] at ends
          exact leaves_of_aborted environment rule request stores world purged read aborted ends
            (fun reply settled => by rw [settled]; rfl)
  | networkFirst =>
      rw [strategy] at ends
      exact leaves_of_aborted environment rule request stores world .unread (by simp) aborted ends
        (fun reply settled => by rw [settled]; rfl)
  | staleWhileRevalidate =>
      simp only [strategy, Task.run_cached, found] at ends
      cases copy : stores.storage.freshCopy? rule request.href (environment.now world).1 with
      | some response =>
          rw [copy] at ends
          exact leaves_of_aborted environment rule request stores world purged read aborted ends
            (fun reply settled => by rw [settled]; rfl)
      | none =>
          rw [copy] at ends
          exact leaves_of_aborted environment rule request stores world purged read aborted ends
            (fun reply settled => by rw [settled]; rfl)
  | networkOnly =>
      rw [strategy] at ends
      exact leaves_of_aborted environment rule request stores world .unread (by simp) aborted ends
        (fun reply settled => by rw [settled]; rfl)
  | cacheOnly => exact (unasked strategy).elim

end CachingRule

/-- What a request leaves behind that the page gives up on, whatever the worker holds and whatever
the network answers.  One that was given up before changes nothing and asks nobody.  When the page
gives up while the network is asked, all stays as it was, except that the entry for the URL may be
gone from the cache of the rule, if it is past the age that the rule allows.  The request ends as
given up, unless the rule answers from its cache while it asks the network, and had a copy that was
fresh. -/
theorem abandoned_request {worker : Worker} (active : worker.state = .activated)
    (environment : Environment ν) (request : PageRequest) (signal : Option Signal) (given : Bool)
    (world : ν) :
    let fetched := worker.fetch environment.recorded request signal given (world, [])
    let outcome := fetched.1
    let after := fetched.2.1
    let exchanges := Observation.exchanges fetched.2.2.2
    let moment := (environment.now world).1
    (given = true → outcome = .aborted ∧ after = worker ∧ exchanges = []) ∧
      ∀ call reply, (call, reply) ∈ exchanges → reply.aborted = true →
        ∃ index rule, worker.Dispatches request given index rule ∧
          outcome = rule.abandoned index
            (worker.stores.storage.freshCopy? rule request.href moment) ∧
          { after with stores := worker.stores } = worker ∧
          after.stores.queues = worker.stores.queues ∧
          (∀ partition,
            after.stores.storage.contains partition =
                worker.stores.storage.contains partition ∧
              (after.stores.storage.entries partition).Sublist
                (worker.stores.storage.entries partition)) ∧
          (after.stores.storage = worker.stores.storage ∨ ∃ entry bounds seconds,
            worker.stores.storage.lookup rule.workingPartition request.href = some entry ∧
              rule.expiration = some bounds ∧ bounds.maxAgeSeconds = some seconds ∧
              span seconds < moment - entry.storedAt ∧
              after.stores.storage =
                worker.stores.storage.delete rule.workingPartition request.href) := by
  intro fetched outcome after exchanges moment
  constructor
  · intro gone
    have same : fetched = (.aborted, worker, world, []) := by
      change Worker.fetch _ _ _ _ _ _ = _
      rw [Worker.fetch, gone, worker.handle_given request signal active, Task.run]
    exact ⟨congrArg (·.1) same, congrArg (·.2.1) same,
      congrArg (fun ended => Observation.exchanges ended.2.2.2) same⟩
  · intro call reply made aborted
    obtain ⟨index, rule, dispatches⟩ :=
      worker.exists_dispatches_of_exchange environment request signal given world made
    generalize ended : (rule.dispatch index request signal).run environment.recorded
      (worker.stores, world, []) = ran
    have same : fetched = (ran.1, { worker with stores := ran.2.1 }, ran.2.2) := by
      rw [← ended]
      exact dispatches.fetch_eq environment.recorded signal (world, [])
    simp only [outcome, after, exchanges, same] at made ⊢
    obtain ⟨queues, ⟨moments, read, purged⟩, answer⟩ :=
      rule.run_dispatch_abandoned environment index request signal worker.stores world ended made
        aborted
    refine ⟨index, rule, dispatches, answer, trivial, queues, purged.sublist, ?_⟩
    rcases purged.eq_or_stale with unchanged | ⟨earlier, member, entry, found, stale, dropped⟩
    · exact .inl unchanged
    · obtain ⟨-, bounds, seconds, bounded, aged, -, old⟩ :=
        CachingRule.isFresh_eq_false_iff.mp stale
      rw [read earlier member] at old
      exact .inr ⟨entry, bounds, seconds, found, bounded, aged, old, dropped⟩

/-- A bench on which a signal is given while the next call is under way. -/
def Bench.giving (bench : Bench) (signal : Signal) : Bench :=
  { bench with origin := { bench.origin with armed := some signal } }

/-- A rule that answers with the page it has kept, and asks for a new one meanwhile. -/
def CachingRule.revalidated : CachingRule :=
  { CachingRule.lastPage with strategy := .staleWhileRevalidate }

/-- The new worker of a policy with this rule. -/
def Worker.revalidated : Worker :=
  { Worker.lastPage with
    ruleSet := { RuleSet.lastPage with rules := [.revalidated] }
    routes := ⟨[⟨.revalidated, ⟨.pathPrefix "/", none⟩⟩]⟩ }

/-- A page that was kept is served although it was given up, and the new one is not stored; a page
that was not kept is given up. -/
theorem abandoned_request_revalidated :
    let worker := (Worker.revalidated.history Bench.environment
      [(.install, .at 0 twoPages false),
        (.fetch (.onSite "GET" "/a") none false, .at 0 twoPages false)]).worker
    let giving := (Bench.at 5000 twoPages false).giving 7
    let old := PageRequest.onSite "GET" "/a"
    let new := PageRequest.onSite "GET" "/b"
    let kept := worker.fetch Bench.environment.recorded old (some 7) false (giving, [])
    let missing := worker.fetch Bench.environment.recorded new (some 7) false (giving, [])
    worker.state = .activated ∧
      Observation.exchanges kept.2.2.2 =
        [(⟨old, none, some 7⟩, ⟨.ok (.ok ByteArray.empty), true⟩)] ∧
      kept.1 = .response (.ok ByteArray.empty) .cache (some 0) ∧
      missing.1 = .aborted ∧
      missing.2.1.stores.queues = worker.stores.queues := by
  intro worker giving old new kept missing
  have active : worker.state = .activated := by decide +kernel
  have oldAsked : Observation.exchanges kept.2.2.2 =
      [(⟨old, none, some 7⟩, ⟨.ok (.ok ByteArray.empty), true⟩)] := by decide +kernel
  have newAsked : Observation.exchanges missing.2.2.2 =
      [(⟨new, none, some 7⟩, ⟨.ok (.ok ByteArray.empty), true⟩)] := by decide +kernel
  have oldDecided : worker.decision old.info = .rule 0 .revalidated := by decide +kernel
  have newDecided : worker.decision new.info = .rule 0 .revalidated := by decide +kernel
  have copy : worker.stores.storage.freshCopy? .revalidated old.href 5000 =
      some (.ok ByteArray.empty) := by decide +kernel
  have none : worker.stores.storage.freshCopy? .revalidated new.href 5000 = none := by
    decide +kernel
  -- What is left holds of any worker with these facts.
  clear_value worker
  obtain ⟨index, rule, oldHanded, served, -⟩ :=
    (abandoned_request active Bench.environment old (some 7) false giving).2 _ _
      (oldAsked ▸ List.mem_cons_self) rfl
  obtain ⟨other, second, newHanded, lost, -, queues, -, -⟩ :=
    (abandoned_request active Bench.environment new (some 7) false giving).2 _ _
      (newAsked ▸ List.mem_cons_self) rfl
  cases oldHanded.decided.symm.trans oldDecided
  cases newHanded.decided.symm.trans newDecided
  refine ⟨active, oldAsked, served.trans ?_, lost.trans ?_, queues⟩
  · exact congrArg (CachingRule.abandoned 0 .revalidated) copy
  · exact congrArg (CachingRule.abandoned 0 .revalidated) none

end CachePolicy
