import CachePolicy.Policy.Explain
import CachePolicy.Proofs.Worker.History

/-!
# What a request does to the caches

Two parts of a task touch what is stored: looking for a response, which removes one
that is too old, and storing a response, which also sweeps its partition.  Both are
given here as functions on what is stored.  Every strategy makes use of each of them
once at most, the look-up first, so a request changes its partition in at most two
ways, whatever its strategy.
-/

namespace CachePolicy

/-! ## The parts of a task -/

/-- The partition with a response stored, swept if the rule bounds it. -/
def Storage.keep (storage : Storage) (partition url : String) (response : Response)
    (bounds : Option Expiration) (moment : Moment) : Storage :=
  match bounds with
  | some bounds => (storage.put partition url response moment).sweep partition bounds moment
  | none => storage.put partition url response moment

namespace Stores

/-- Exchange what is stored. -/
def withStorage (stores : Stores) (storage : Storage) : Stores := { stores with storage }

@[simp] theorem storage_withStorage (stores : Stores) (storage : Storage) :
    (stores.withStorage storage).storage = storage := rfl

@[simp] theorem queues_withStorage (stores : Stores) (storage : Storage) :
    (stores.withStorage storage).queues = stores.queues := rfl

/-- Look for a response, where one that is too old is removed and does not count. -/
def find (environment : Environment ν) (partition href : String) (bounds : Option Expiration)
    (stores : Stores) (world : ν) : Option Response × Stores × ν :=
  match stores.storage.lookup partition href with
  | none => (none, stores, world)
  | some entry =>
    match bounds with
    | none => (some entry.response, stores, world)
    | some bounds =>
      let (moment, world) := environment.now world
      if bounds.isFresh moment entry then (some entry.response, stores, world)
      else (none, stores.withStorage (stores.storage.delete partition href), world)

end Stores

namespace Task

variable (environment : Environment ν) (partition href : String)
variable (bounds : Option Expiration) (stores : Stores) (world : ν)

theorem run_cached (next : Option Response → Task α) :
    (Task.cached partition href bounds next).run environment (stores, world) =
      let (found, state) := stores.find environment partition href bounds world
      (next found).run environment state := by
  simp only [Task.cached, Stores.find, Task.run]
  cases stores.storage.lookup partition href with
  | none => rfl
  | some entry =>
      cases bounds with
      | none => rfl
      | some bounds =>
          simp only [Task.run]
          split <;> rfl

theorem deposits_cached (next : Option Response → Task α) :
    (Task.cached partition href bounds next).deposits environment (stores, world) =
      let (found, state) := stores.find environment partition href bounds world
      (next found).deposits environment state := by
  simp only [Task.cached, Stores.find, Task.deposits]
  cases stores.storage.lookup partition href with
  | none => rfl
  | some entry =>
      cases bounds with
      | none => rfl
      | some bounds =>
          simp only [Task.deposits]
          split <;> rfl

variable {response : Response}

theorem run_store_of_isCacheable (complete : response.isCacheable = true) (next : Task α) :
    (Task.store partition href response bounds next).run environment (stores, world) =
      let (moment, world) := environment.now world
      next.run environment
        (stores.withStorage (stores.storage.keep partition href response bounds moment),
          world) := by
  rw [Task.store, if_pos complete]
  cases bounds <;> rfl

theorem deposits_store_of_isCacheable (complete : response.isCacheable = true)
    (next : Task α) :
    (Task.store partition href response bounds next).deposits environment (stores, world) =
      let (moment, world) := environment.now world
      ⟨partition, href, response, moment⟩ :: next.deposits environment
        (stores.withStorage (stores.storage.keep partition href response bounds moment),
          world) := by
  rw [Task.store, if_pos complete]
  cases bounds <;> rfl

theorem store_of_not_isCacheable (incomplete : response.isCacheable = false) (next : Task α) :
    Task.store partition href response bounds next = next := by
  rw [Task.store, if_neg (by simp [incomplete])]

end Task

/-! ## What a task is about to do -/

/-- A property of tasks that is not lost by looking at the clock or by a step on a partition. -/
structure Task.Passes (partition : String) (holds : Task α → Prop) : Prop where
  now : ∀ next, (∀ moment, holds (next moment)) → holds (.now next)
  lookup : ∀ url next, (∀ found, holds (next found)) → holds (.lookup partition url next)
  delete : ∀ url next, holds next → holds (.delete partition url next)
  put : ∀ url response moment next, holds next → holds (.put partition url response moment next)
  sweep : ∀ bounds moment next, holds next → holds (.sweep partition bounds moment next)

namespace Task.Passes

variable {partition : String} {holds : Task α → Prop} (passes : Passes partition holds)
variable {href : String} {bounds : Option Expiration}

include passes

/-- It is enough that what is done with the response has it, whichever is found. -/
theorem cached {next : Option Response → Task α} (later : ∀ found, holds (next found)) :
    holds (.cached partition href bounds next) := by
  apply passes.lookup
  intro found
  cases found with
  | none => exact later none
  | some entry =>
      cases bounds with
      | none => exact later _
      | some limits =>
          apply passes.now
          intro moment
          split
          · exact later _
          · exact passes.delete _ _ (later none)

theorem store {response : Response} {next : Task α} (later : holds next) :
    holds (.store partition href response bounds next) := by
  rw [Task.store]
  split
  · apply passes.now
    intro moment
    apply passes.put
    cases bounds with
    | none => exact later
    | some limits => exact passes.sweep _ _ _ later
  · exact later

end Task.Passes

/-! ## The task of a rule -/

/-- A property of tasks that comes down to the parts of a rule's task: `rest` is what it
comes to once the rule has looked into its cache, or need not do so. -/
structure CachingRule.Parts (rule : CachingRule) (index : Nat) (request : PageRequest)
    (signal : Option Signal) (whole rest : Task Outcome → Prop) : Prop where
  unread : ∀ task, rest task → whole task
  lookup : ∀ next, (∀ found, rest (next found)) →
    whole (.cached rule.workingPartition request.href rule.effectiveExpiration next)
  ask : ∀ timeout next, (∀ reply, whole (next reply)) →
    whole (.fetch ⟨request, timeout, signal⟩ next)
  askThen : ∀ timeout next, (∀ reply, rest (next reply)) →
    rest (.fetch ⟨request, timeout, signal⟩ next)
  store : ∀ response source answer, rule.strategy.writesCache = true →
    rest (served index source answer) →
    rest (.store rule.workingPartition request.href response rule.effectiveExpiration
      (served index source answer))
  serve : ∀ source response, source ≠ .precache → rest (served index source response)
  fail : ∀ error, rest (.done (.failed error))
  queue : ∀ queue, rule.strategy = .networkOnly → rule.replayQueue = some queue →
    rest (.now fun moment => .enqueue queue.name request moment (.done (.queued queue.name)))

namespace CachingRule.Parts

variable {rule : CachingRule} {index : Nat} {request : PageRequest} {signal : Option Signal}
variable {whole rest : Task Outcome → Prop}

theorem fromCache (parts : rule.Parts index request signal whole rest) (response : Response) :
    rest (served index .cache response) :=
  parts.serve .cache response (by decide)

theorem fromNetwork (parts : rule.Parts index request signal whole rest) (response : Response) :
    rest (served index .network response) :=
  parts.serve .network response (by decide)

/-- Whatever its strategy, the task of a rule has what its parts have. -/
theorem dispatch (parts : rule.Parts index request signal whole rest) :
    whole (rule.dispatch index request signal) := by
  rw [CachingRule.dispatch]
  cases strategy : rule.strategy with
  | cacheFirst =>
      have writes : rule.strategy.writesCache = true := by rw [strategy]; rfl
      apply parts.lookup
      intro found
      cases found with
      | some response => exact parts.fromCache response
      | none =>
          apply parts.askThen
          intro reply
          cases reply.settled with
          | ok response => exact parts.store response _ _ writes (parts.fromNetwork response)
          | error e => exact parts.fail _
  | networkFirst =>
      have writes : rule.strategy.writesCache = true := by rw [strategy]; rfl
      apply parts.ask
      intro reply
      split
      next response _ =>
        apply parts.unread
        exact parts.store response _ _ writes (parts.fromNetwork response)
      next => exact parts.unread _ (parts.fail _)
      next =>
        apply parts.lookup
        intro found
        cases found with
        | some response => exact parts.fromCache response
        | none => exact parts.fail _
  | staleWhileRevalidate =>
      have writes : rule.strategy.writesCache = true := by rw [strategy]; rfl
      apply parts.lookup
      intro found
      apply parts.askThen
      intro reply
      cases reply.settled with
      | ok response =>
          cases found with
          | some old => exact parts.store response _ _ writes (parts.fromCache old)
          | none => exact parts.store response _ _ writes (parts.fromNetwork response)
      | error e =>
          cases found with
          | some old => exact parts.fromCache old
          | none => exact parts.fail _
  | networkOnly =>
      apply parts.unread
      apply parts.askThen
      intro reply
      split
      next response _ => exact parts.fromNetwork response
      next => exact parts.fail _
      next =>
        cases named : rule.replayQueue with
        | none => exact parts.fail _
        | some queue => exact parts.queue queue strategy named
  | cacheOnly =>
      apply parts.lookup
      intro found
      cases found with
      | some response => exact parts.fromCache response
      | none => exact parts.fail _

end CachingRule.Parts

/-! ## Changes of a partition -/

namespace Storage

/-- Store a response as a rule does. -/
def keepFor (storage : Storage) (rule : CachingRule) (url : String) (response : Response)
    (moment : Moment) : Storage :=
  storage.keep rule.workingPartition url response rule.effectiveExpiration moment

/-- What the look-up of a rule leaves, with the moments at which it looked at the clock:
only the entry that it looked for may be gone, and only if it was too old. -/
inductive Purged (storage : Storage) (rule : CachingRule) (href : String) :
    List Moment → Storage → Prop where
  | unread : Purged storage rule href [] storage
  | read (moment : Moment) : Purged storage rule href [moment] storage
  | dropped {moment : Moment} {entry : CachedEntry} {bounds : Expiration} :
      rule.effectiveExpiration = some bounds →
      storage.lookup rule.workingPartition href = some entry →
      bounds.isFresh moment entry = false →
      Purged storage rule href [moment] (storage.delete rule.workingPartition href)

/-- What an answer of the network leaves, with the moments at which the clock was
looked at and the responses that were stored: one response at most. -/
inductive Supplied (storage : Storage) (rule : CachingRule) (href : String) :
    List Moment → List Deposit → Storage → Prop where
  | untimed : Supplied storage rule href [] [] storage
  | timed (moment : Moment) : Supplied storage rule href [moment] [] storage
  | stored (moment : Moment) {response : Response} : rule.strategy.writesCache = true →
      response.isCacheable = true →
      Supplied storage rule href [moment] [⟨rule.workingPartition, href, response, moment⟩]
        (storage.keepFor rule href response moment)

/-- What a look-up and then an answer of the network leave. -/
def Touched (storage : Storage) (rule : CachingRule) (href : String) (moments : List Moment)
    (deposits : List Deposit) (after : Storage) : Prop :=
  ∃ first second middle, moments = first ++ second ∧
    storage.Purged rule href first middle ∧ middle.Supplied rule href second deposits after

variable {storage after : Storage} {rule : CachingRule} {href : String}
variable {moments : List Moment} {deposits : List Deposit}

theorem Supplied.touched (supplied : storage.Supplied rule href moments deposits after) :
    storage.Touched rule href moments deposits after :=
  ⟨[], moments, storage, rfl, .unread, supplied⟩

end Storage

@[simp] theorem Observation.moments_map_clock (moments : List Moment) :
    Observation.moments (moments.map .clock) = moments := by
  induction moments with
  | nil => rfl
  | cons moment rest ih =>
      rw [List.map_cons, ← List.singleton_append, Observation.moments_append, ih]
      rfl

/-- A look-up learns nothing but the time, and purges its partition. -/
theorem Stores.exists_find_recorded (environment : Environment ν) (rule : CachingRule)
    (href : String) (stores : Stores) (world : ν) (seen : List Observation) :
    ∃ found moments middle later, stores.storage.Purged rule href moments middle ∧
      stores.find environment.recorded rule.workingPartition href rule.effectiveExpiration
          (world, seen) =
        (found, stores.withStorage middle, later, seen ++ moments.map .clock) := by
  rw [Stores.find]
  cases looked : stores.storage.lookup rule.workingPartition href with
  | none => exact ⟨none, [], _, world, .unread, by simp [Stores.withStorage]⟩
  | some entry =>
      cases bounded : rule.effectiveExpiration with
      | none => exact ⟨some entry.response, [], _, world, .unread, by simp [Stores.withStorage]⟩
      | some bounds =>
          by_cases fresh : bounds.isFresh (environment.now world).1 entry
          · exact ⟨_, [_], _, _, .read _, if_pos fresh⟩
          · have stale : bounds.isFresh (environment.now world).1 entry = false := by
              simpa using fresh
            exact ⟨_, [_], _, _, .dropped bounded looked stale, if_neg fresh⟩

namespace Task

variable (environment : Environment ν) (rule : CachingRule) (href : String)

/-- Every run of the task changes the partition of a rule as an answer of the network
does. -/
def Supplies (task : Task α) : Prop :=
  ∀ (stores : Stores) (world : ν) (seen : List Observation), ∃ moments,
    stores.storage.Supplied rule href moments
      (task.deposits environment.recorded (stores, world, seen))
      (task.run environment.recorded (stores, world, seen)).2.1.storage ∧
    Observation.moments (task.run environment.recorded (stores, world, seen)).2.2.2 =
      Observation.moments seen ++ moments

/-- Every run of the task changes the partition of a rule as a look-up and an answer of
the network do. -/
def Touches (task : Task α) : Prop :=
  ∀ (stores : Stores) (world : ν) (seen : List Observation), ∃ moments,
    stores.storage.Touched rule href moments
      (task.deposits environment.recorded (stores, world, seen))
      (task.run environment.recorded (stores, world, seen)).2.1.storage ∧
    Observation.moments (task.run environment.recorded (stores, world, seen)).2.2.2 =
      Observation.moments seen ++ moments

variable {environment rule href}

theorem Supplies.done (result : α) : (Task.done result).Supplies environment rule href :=
  fun _ _ _ => ⟨[], .untimed, by simp [run]⟩

theorem Supplies.fetch {call : Call} {next : Reply → Task α}
    (later : ∀ reply, (next reply).Supplies environment rule href) :
    (Task.fetch call next).Supplies environment rule href := by
  intro stores world seen
  obtain ⟨moments, supplied, same⟩ := later (environment.fetch call world).1 stores
    (environment.fetch call world).2
    (seen ++ [.exchange call (environment.fetch call world).1])
  refine ⟨moments, supplied, same.trans ?_⟩
  simp

theorem Supplies.store (writes : rule.strategy.writesCache = true) (response : Response)
    (result : α) :
    (Task.store rule.workingPartition href response rule.effectiveExpiration
      (.done result)).Supplies environment rule href := by
  cases complete : response.isCacheable with
  | false =>
      rw [store_of_not_isCacheable _ _ _ complete]
      exact .done result
  | true =>
      intro stores world seen
      refine ⟨[(environment.now world).1], ?_, ?_⟩
      · rw [deposits_store_of_isCacheable _ _ _ _ _ _ complete,
          run_store_of_isCacheable _ _ _ _ _ _ complete]
        exact .stored _ writes complete
      · rw [run_store_of_isCacheable _ _ _ _ _ _ complete]
        simp [run]

theorem Supplies.enqueue (queue : String) (request : PageRequest) (result : α) :
    (Task.now fun moment => .enqueue queue request moment (.done result)).Supplies
      environment rule href := by
  intro stores world seen
  refine ⟨[(environment.now world).1], ?_, by simp [run]⟩
  simp only [deposits, run, Stores.storage_enqueue]
  exact .timed _

theorem Supplies.touches {task : Task α} (supplies : task.Supplies environment rule href) :
    task.Touches environment rule href := by
  intro stores world seen
  obtain ⟨moments, supplied, same⟩ := supplies stores world seen
  exact ⟨moments, supplied.touched, same⟩

theorem Touches.cached {next : Option Response → Task α}
    (later : ∀ found, (next found).Supplies environment rule href) :
    (Task.cached rule.workingPartition href rule.effectiveExpiration next).Touches
      environment rule href := by
  intro stores world seen
  obtain ⟨found, first, middle, world', purged, looked⟩ :=
    stores.exists_find_recorded environment rule href world seen
  obtain ⟨second, supplied, same⟩ :=
    later found (stores.withStorage middle) world' (seen ++ first.map .clock)
  refine ⟨first ++ second, ?_, ?_⟩
  · rw [deposits_cached, run_cached, looked]
    exact ⟨first, second, middle, rfl, purged, supplied⟩
  · rw [run_cached, looked]
    simpa using same

theorem Touches.fetch {call : Call} {next : Reply → Task α}
    (later : ∀ reply, (next reply).Touches environment rule href) :
    (Task.fetch call next).Touches environment rule href := by
  intro stores world seen
  obtain ⟨moments, touched, same⟩ := later (environment.fetch call world).1 stores
    (environment.fetch call world).2
    (seen ++ [.exchange call (environment.fetch call world).1])
  refine ⟨moments, touched, same.trans ?_⟩
  simp

end Task

/-- Whatever its strategy, a rule changes its own partition only, by one look-up and one
stored response at most. -/
theorem CachingRule.touches_dispatch (environment : Environment ν) (index : Nat)
    (rule : CachingRule) (request : PageRequest) (signal : Option Signal) :
    (rule.dispatch index request signal).Touches environment rule request.href := by
  have parts : rule.Parts index request signal
      (Task.Touches environment rule request.href)
      (Task.Supplies environment rule request.href) := {
    unread _ := Task.Supplies.touches
    lookup _ := Task.Touches.cached
    ask _ _ := Task.Touches.fetch
    askThen _ _ := Task.Supplies.fetch
    store response _ _ writes _ := Task.Supplies.store writes response _
    serve _ _ _ := .done _
    fail _ := .done _
    queue queue _ _ := .enqueue queue.name request _ }
  exact parts.dispatch

end CachePolicy
