import CachePolicy.Proofs.Worker.Effects

/-!
# What a task works on

A task works on the partitions that it may come to read or change, and on the queues in which
it may come to leave a request.  All else stays as it was, and makes no difference to the task
as long as the clock stands still and the network gives equal calls equal answers.  Two tasks
that work on nothing in common may therefore be run in either order.

A rule works on one partition or on one queue at most, whatever it is told by the clock, the
caches and the network.
-/

namespace CachePolicy

namespace Task

/-- A task may come to read or change a partition. -/
def Visits (partition : String) : Task α → Prop
  | .done _ => False
  | .now next => ∃ moment, (next moment).Visits partition
  | .lookup other _ next => other = partition ∨ ∃ found, (next found).Visits partition
  | .delete other _ next => other = partition ∨ next.Visits partition
  | .put other _ _ _ next => other = partition ∨ next.Visits partition
  | .sweep other _ _ next => other = partition ∨ next.Visits partition
  | .fetch _ next => ∃ reply, (next reply).Visits partition
  | .enqueue _ _ _ next => next.Visits partition

/-- A task may come to leave a request in a queue. -/
def Fills (queue : String) : Task α → Prop
  | .done _ => False
  | .now next => ∃ moment, (next moment).Fills queue
  | .lookup _ _ next => ∃ found, (next found).Fills queue
  | .delete _ _ next => next.Fills queue
  | .put _ _ _ _ next => next.Fills queue
  | .sweep _ _ _ next => next.Fills queue
  | .fetch _ next => ∃ reply, (next reply).Fills queue
  | .enqueue other _ _ next => other = queue ∨ next.Fills queue

end Task

/-! ## Single steps -/

namespace Storage

variable (storage : Storage) (partition other : String)

theorem get?_put (url : String) (response : Response) (moment : Moment) :
    (storage.put partition url response moment).get? other =
      if other = partition then
        some (without url ((storage.get? partition).getD []) ++ [⟨url, response, moment⟩])
      else storage.get? other := by
  rw [put, SortedMap.get?_insert, entries]

variable {storage partition}

theorem lookup_congr_get? {after : Storage}
    (same : after.get? partition = storage.get? partition) (url : String) :
    after.lookup partition url = storage.lookup partition url := by
  rw [lookup, lookup, entries, entries, same]

end Storage

namespace Task

variable (environment : Environment ν) (stores : Stores) (world : ν)

theorem run_now (next : Moment → Task α) :
    (Task.now next).run environment (stores, world) =
      (next (environment.now world).1).run environment (stores, (environment.now world).2) := rfl

theorem run_fetch (call : Call) (next : Reply → Task α) :
    (Task.fetch call next).run environment (stores, world) =
      (next (environment.fetch call world).1).run environment
        (stores, (environment.fetch call world).2) := rfl

end Task

theorem Stores.get?_enqueue (stores : Stores) (queue other : String) (request : PageRequest)
    (moment : Moment) :
    (stores.enqueue queue request moment).queues.get? other =
      if other = queue then (stores.queues.get? queue).map (·.push request moment)
      else stores.queues.get? other := by
  rw [enqueue]
  cases present : stores.queues.get? queue with
  | some waiting => exact SortedMap.get?_insert ..
  | none =>
      by_cases same : other = queue
      · rw [if_pos same, same]
        exact present
      · rw [if_neg same]

/-! ## What stays as it was -/

namespace Task

variable {task : Task α} (environment : Environment ν) (stores : Stores) (world : ν)

/-- A partition that a task does not work on stays as it was. -/
theorem storage_run_of_not_visits {partition : String} (unvisited : ¬ task.Visits partition) :
    (task.run environment (stores, world)).2.1.storage.get? partition =
      stores.storage.get? partition := by
  induction task generalizing stores world with
  | done result => rfl
  | now next ih => exact ih _ stores _ fun visits => unvisited ⟨_, visits⟩
  | lookup other url next ih => exact ih _ stores world fun visits => unvisited (.inr ⟨_, visits⟩)
  | delete other url next ih =>
      have elsewhere : partition ≠ other := fun same => unvisited (.inl same.symm)
      rw [run, ih _ _ fun visits => unvisited (.inr visits)]
      exact Storage.get?_delete_of_ne elsewhere url
  | put other url response moment next ih =>
      have elsewhere : partition ≠ other := fun same => unvisited (.inl same.symm)
      rw [run, ih _ _ fun visits => unvisited (.inr visits)]
      exact (Storage.get?_put ..).trans (if_neg elsewhere)
  | sweep other bounds moment next ih =>
      have elsewhere : partition ≠ other := fun same => unvisited (.inl same.symm)
      rw [run, ih _ _ fun visits => unvisited (.inr visits)]
      exact Storage.get?_modify_of_ne elsewhere _
  | fetch call next ih => exact ih _ stores _ fun visits => unvisited ⟨_, visits⟩
  | enqueue queue request moment next ih => rw [run, ih _ _ unvisited, Stores.storage_enqueue]

/-- A queue that a task does not work on stays as it was. -/
theorem queues_run_of_not_fills {queue : String} (unfilled : ¬ task.Fills queue) :
    (task.run environment (stores, world)).2.1.queues.get? queue = stores.queues.get? queue := by
  induction task generalizing stores world with
  | done result => rfl
  | now next ih => exact ih _ stores _ fun fills => unfilled ⟨_, fills⟩
  | lookup partition url next ih => exact ih _ stores world fun fills => unfilled ⟨_, fills⟩
  | delete partition url next ih => exact ih _ world unfilled
  | put partition url response moment next ih => exact ih _ world unfilled
  | sweep partition bounds moment next ih => exact ih _ world unfilled
  | fetch call next ih => exact ih _ stores _ fun fills => unfilled ⟨_, fills⟩
  | enqueue other request moment next ih =>
      have elsewhere : queue ≠ other := fun same => unfilled (.inl same.symm)
      rw [run, ih _ _ fun fills => unfilled (.inr fills), Stores.get?_enqueue, if_neg elsewhere]

end Task

/-! ## What makes no difference -/

/-- While the world is in one of some states, the clock stands still, the network gives equal
calls equal answers, and neither leads to another state. -/
structure Environment.Steady (environment : Environment ν) (moment : Moment)
    (answer : Call → Reply) (steady : ν → Prop) : Prop where
  now : ∀ world, steady world →
    (environment.now world).1 = moment ∧ steady (environment.now world).2
  fetch : ∀ call world, steady world →
    (environment.fetch call world).1 = answer call ∧ steady (environment.fetch call world).2

/-- Stores that do not differ in some partitions and some queues. -/
structure Stores.Alike (partitions queues : String → Prop) (first second : Stores) : Prop where
  storage : ∀ partition, partitions partition →
    first.storage.get? partition = second.storage.get? partition
  queues : ∀ queue, queues queue → first.queues.get? queue = second.queues.get? queue

namespace Stores.Alike

variable {partitions queues : String → Prop} {first second : Stores}

/-- Equal changes of one partition make no difference. -/
theorem modify (alike : Alike partitions queues first second) (partition : String)
    (change : List CachedEntry → List CachedEntry) :
    Alike partitions queues (first.withStorage (first.storage.modify partition change))
      (second.withStorage (second.storage.modify partition change)) where
  storage other listed := by
    rw [storage_withStorage, storage_withStorage, Storage.get?_modify, Storage.get?_modify]
    split
    next same => rw [← same, alike.storage other listed]
    next => exact alike.storage other listed
  queues := alike.queues

theorem put (alike : Alike partitions queues first second) (partition url : String)
    (response : Response) (moment : Moment) :
    Alike partitions queues
      (first.withStorage (first.storage.put partition url response moment))
      (second.withStorage (second.storage.put partition url response moment)) where
  storage other listed := by
    rw [storage_withStorage, storage_withStorage, Storage.get?_put, Storage.get?_put]
    split
    next same => rw [← same, alike.storage other listed]
    next => exact alike.storage other listed
  queues := alike.queues

theorem enqueue (alike : Alike partitions queues first second) (queue : String)
    (request : PageRequest) (moment : Moment) :
    Alike partitions queues (first.enqueue queue request moment)
      (second.enqueue queue request moment) where
  storage := by
    rw [storage_enqueue, storage_enqueue]
    exact alike.storage
  queues other listed := by
    rw [get?_enqueue, get?_enqueue]
    split
    next same => rw [← same, alike.queues other listed]
    next => exact alike.queues other listed

end Stores.Alike

section Steady

variable {environment : Environment ν} {moment : Moment} {answer : Call → Reply}
variable {steady : ν → Prop} (still : environment.Steady moment answer steady)

include still

/-- A task leaves the world steady. -/
theorem Task.steady_run (task : Task α) (stores : Stores) {world : ν} (here : steady world) :
    steady (task.run environment (stores, world)).2.2 := by
  induction task generalizing stores world with
  | done result => exact here
  | now next ih => exact ih _ stores (still.now world here).2
  | lookup partition url next ih => exact ih _ stores here
  | delete partition url next ih => exact ih _ here
  | put partition url response moment next ih => exact ih _ here
  | sweep partition bounds moment next ih => exact ih _ here
  | fetch call next ih => exact ih _ stores (still.fetch call world here).2
  | enqueue queue request moment next ih => exact ih _ here

/-- Only what a task works on makes a difference to it. -/
theorem Task.run_congr {partitions queues : String → Prop} {task : Task α}
    (visits : ∀ partition, task.Visits partition → partitions partition)
    {first second : Stores} (alike : first.Alike partitions queues second) {one other : ν}
    (here : steady one) (there : steady other) :
    (task.run environment (first, one)).1 = (task.run environment (second, other)).1 ∧
      (task.run environment (first, one)).2.1.Alike partitions queues
        (task.run environment (second, other)).2.1 := by
  induction task generalizing first second one other with
  | done result => exact ⟨rfl, alike⟩
  | now next ih =>
      obtain ⟨shown, here⟩ := still.now one here
      obtain ⟨same, there⟩ := still.now other there
      rw [run_now, run_now, shown, same]
      exact ih _ (fun partition later => visits partition ⟨_, later⟩) alike here there
  | lookup partition url next ih =>
      have found := Storage.lookup_congr_get? (alike.storage partition (visits _ (.inl rfl))) url
      rw [run, run, found]
      exact ih _ (fun partition later => visits partition (.inr ⟨_, later⟩)) alike here there
  | delete partition url next ih =>
      exact ih (fun partition later => visits partition (.inr later)) (alike.modify partition _)
        here there
  | put partition url response moment next ih =>
      exact ih (fun partition later => visits partition (.inr later))
        (alike.put partition url response moment) here there
  | sweep partition bounds moment next ih =>
      exact ih (fun partition later => visits partition (.inr later)) (alike.modify partition _)
        here there
  | fetch call next ih =>
      obtain ⟨told, here⟩ := still.fetch call one here
      obtain ⟨same, there⟩ := still.fetch call other there
      rw [run_fetch, run_fetch, told, same]
      exact ih _ (fun partition later => visits partition ⟨_, later⟩) alike here there
  | enqueue queue request moment next ih =>
      exact ih visits (alike.enqueue queue request moment) here there

end Steady

/-! ## Rules -/

namespace CachingRule

variable (index : Nat) (rule : CachingRule) (request : PageRequest) (signal : Option Signal)

/-- A rule works on its own partition only. -/
theorem eq_of_visits_dispatch {partition : String}
    (visits : (rule.dispatch index request signal).Visits partition) :
    rule.workingPartition = partition := by
  have passes : Task.Passes rule.workingPartition
      fun task : Task Outcome => task.Visits partition → rule.workingPartition = partition := {
    now next later visits := by
      obtain ⟨moment, visits⟩ := visits
      exact later moment visits
    lookup url next later visits := by
      obtain same | ⟨found, visits⟩ := visits
      · exact same
      · exact later found visits
    delete _ _ later visits := visits.elim id later
    put _ _ _ _ later visits := visits.elim id later
    sweep _ _ _ later visits := visits.elim id later }
  have parts : rule.Parts index request signal
      (fun task => task.Visits partition → rule.workingPartition = partition)
      (fun task => task.Visits partition → rule.workingPartition = partition) := {
    unread _ := id
    lookup _ := passes.cached
    ask timeout next later visits := by
      obtain ⟨reply, visits⟩ := visits
      exact later reply visits
    askThen timeout next later visits := by
      obtain ⟨reply, visits⟩ := visits
      exact later reply visits
    store _ _ _ _ := passes.store
    serve _ _ _ visits := visits.elim
    fail _ visits := visits.elim
    queue queue _ _ visits := by
      obtain ⟨moment, visits⟩ := visits
      exact visits.elim }
  exact parts.dispatch visits

theorem not_visits_dispatch_of_unused (unused : rule.strategy.usesCache = false)
    (partition : String) : ¬ (rule.dispatch index request signal).Visits partition := by
  have strategy : rule.strategy = .networkOnly := by
    cases strategy : rule.strategy with
    | networkOnly => rfl
    | _ =>
        rw [strategy] at unused
        cases unused
  rw [dispatch, strategy]
  rintro ⟨reply, visits⟩
  beta_reduce at visits
  cases settled : reply.settled with
  | ok response =>
      rw [settled] at visits
      exact visits
  | error error =>
      rw [settled] at visits
      cases queued : rule.replayQueue with
      | none =>
          rw [queued] at visits
          cases error <;> exact visits
      | some queue =>
          rw [queued] at visits
          cases error with
          | aborted => exact visits
          | _ =>
              obtain ⟨moment, visits⟩ := visits
              exact visits

/-- A rule that uses a cache may come to work on it, whatever the request. -/
theorem visits_dispatch_of_uses (uses : rule.strategy.usesCache = true) :
    (rule.dispatch index request signal).Visits rule.workingPartition := by
  rw [dispatch]
  cases strategy : rule.strategy with
  | cacheFirst => exact .inl rfl
  | networkFirst => exact ⟨⟨.error .offline, false⟩, .inl rfl⟩
  | staleWhileRevalidate => exact .inl rfl
  | networkOnly =>
      rw [strategy] at uses
      cases uses
  | cacheOnly => exact .inl rfl

theorem visits_dispatch_iff (partition : String) :
    (rule.dispatch index request signal).Visits partition ↔
      rule.strategy.usesCache = true ∧ rule.workingPartition = partition := by
  constructor
  · intro visits
    cases uses : rule.strategy.usesCache with
    | true => exact ⟨rfl, rule.eq_of_visits_dispatch index request signal visits⟩
    | false =>
        exact absurd visits (rule.not_visits_dispatch_of_unused index request signal uses partition)
  · rintro ⟨uses, rfl⟩
    exact rule.visits_dispatch_of_uses index request signal uses

/-- The queue in which a rule leaves a request that the network does not take. -/
def FillsQueue (name : String) : Prop :=
  rule.strategy = .networkOnly ∧ ∃ queue, rule.replayQueue = some queue ∧ queue.name = name

/-- A rule works on its own queue only. -/
theorem fillsQueue_of_fills_dispatch {name : String}
    (fills : (rule.dispatch index request signal).Fills name) : rule.FillsQueue name := by
  have passes : Task.Passes rule.workingPartition
      fun task : Task Outcome => task.Fills name → rule.FillsQueue name := {
    now next later fills := by
      obtain ⟨moment, fills⟩ := fills
      exact later moment fills
    lookup url next later fills := by
      obtain ⟨found, fills⟩ := fills
      exact later found fills
    delete _ _ later := later
    put _ _ _ _ later := later
    sweep _ _ _ later := later }
  have parts : rule.Parts index request signal
      (fun task => task.Fills name → rule.FillsQueue name)
      (fun task => task.Fills name → rule.FillsQueue name) := {
    unread _ := id
    lookup _ := passes.cached
    ask timeout next later fills := by
      obtain ⟨reply, fills⟩ := fills
      exact later reply fills
    askThen timeout next later fills := by
      obtain ⟨reply, fills⟩ := fills
      exact later reply fills
    store _ _ _ _ := passes.store
    serve _ _ _ fills := fills.elim
    fail _ fills := fills.elim
    queue queue only named fills := by
      obtain ⟨moment, same | fills⟩ := fills
      · exact ⟨only, queue, named, same⟩
      · exact fills.elim }
  exact parts.dispatch fills

end CachingRule

end CachePolicy
