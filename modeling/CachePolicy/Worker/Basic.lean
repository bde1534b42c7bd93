import CachePolicy.Rule.Set
import CachePolicy.Worker.Task

/-!
# Workers

A worker carries out a rule set.  It stores the precached URLs when it is installed,
drops the partitions that no rule names when it is activated, and answers requests
only after that.  A worker whose installation fails is of no use any more.
-/

namespace CachePolicy

/-- How far a worker has come. -/
inductive WorkerState where
  | installing
  | installed
  | activating
  | activated
  | redundant
  deriving DecidableEq, Repr, Inhabited

/-- The name of a state, as messages write it. -/
def WorkerState.name : WorkerState → String
  | .installing => "Installing"
  | .installed => "Installed"
  | .activating => "Activating"
  | .activated => "Activated"
  | .redundant => "Redundant"

/-- Why a worker fails. -/
inductive WorkerError where
  | rule (error : RuleError)
  | precacheFailed (url reason : String)
  | invalidState (action : String) (state : WorkerState)
  | network (error : FetchError)
  | cacheMiss (cache url : String)
  deriving DecidableEq, Repr

/-- The wording of an error. -/
def WorkerError.message : WorkerError → String
  | .rule error => s!"rule error: {error.message}"
  | .precacheFailed url reason => s!"failed to precache {url}: {reason}"
  | .invalidState action state => s!"cannot {action} while {state.name}"
  | .network error => s!"fetch failed: {error.message}"
  | .cacheMiss cache url => s!"no cached response for {url} in '{cache}'"

/-- A worker. -/
structure Worker where
  ruleSet : RuleSet
  routes : CompiledRuleSet
  stores : Stores
  state : WorkerState
  /-- Whether the worker is activated as soon as it is installed. -/
  skipWaiting : Bool
  clientsClaimed : Bool

/-- The partition of precached responses. -/
def precachePartition : String := "precache"

/-- The partition of caching rules that name none. -/
def runtimePartition : String := "runtime"

namespace Worker

/-- Empty queues, the first of a name deciding how long it keeps a request. -/
def emptyQueues (queues : List ReplayQueue) : SortedMap String WaitingQueue :=
  queues.foldl
    (fun map queue =>
      if map.contains queue.name then map else map.insert queue.name (.new queue))
    .empty

/-- A worker for a rule set. -/
def new (ruleSet : RuleSet) : Except WorkerError Worker :=
  match ruleSet.compile with
  | .error e => .error (.rule e)
  | .ok routes => .ok {
      ruleSet
      routes
      stores := ⟨.empty, emptyQueues ruleSet.replayQueues⟩
      state := .installing
      skipWaiting := ruleSet.lifecycle.skipWaiting
      clientsClaimed := false }

/-- Change what is stored. -/
def withStorage (worker : Worker) (storage : Storage) : Worker :=
  { worker with stores := { worker.stores with storage } }

/-! ## Activation -/

/-- Whether activation keeps a partition. -/
def keepsPartition (worker : Worker) (name : String) : Bool :=
  name == precachePartition || worker.ruleSet.declaredCacheNames.contains name

/-- The partitions that activation drops. -/
def outdated (worker : Worker) : List String :=
  if worker.ruleSet.lifecycle.cleanupOutdatedCaches then
    worker.stores.storage.keys.filter (!worker.keepsPartition ·)
  else []

/-- The worker after activation. -/
def activated (worker : Worker) : Worker :=
  { worker with
    stores := { worker.stores with
      storage := worker.outdated.foldl Storage.deletePartition worker.stores.storage }
    state := .activated
    clientsClaimed := worker.clientsClaimed || worker.ruleSet.lifecycle.clientsClaim }

/-- Activate an installed worker.  The result names the partitions that were
dropped. -/
def activate (worker : Worker) : Except WorkerError (List String) × Worker :=
  if worker.state = .installed then (.ok worker.outdated, worker.activated)
  else (.error (.invalidState "activate" worker.state), worker)

/-! ## Installation -/

/-- Fetch and store entries one after the other, up to the first that fails. -/
def precacheAll (environment : Environment ν) :
    List PrecacheEntry → Storage × ν → Except WorkerError Unit × Storage × ν
  | [], (storage, world) => (.ok (), storage, world)
  | entry :: rest, (storage, world) =>
    match PageRequest.get entry.url with
    | .error e => (.error (.rule e), storage, world)
    | .ok request =>
      let (reply, world) := environment.fetch ⟨request, none, none⟩ world
      match reply.result with
      | .error e => (.error (.precacheFailed entry.url e.message), storage, world)
      | .ok response =>
        if response.isCacheable then
          let (moment, world) := environment.now world
          precacheAll environment rest
            (storage.put precachePartition request.href response moment, world)
        else
          (.error (.precacheFailed entry.url s!"status {response.status}"), storage, world)

/-- The state after a failed installation.  A URL that cannot be read leaves the
worker where it was. -/
def stateAfter : WorkerError → WorkerState
  | .rule _ => .installing
  | _ => .redundant

/-- The worker after its entries are stored. -/
def installed (worker : Worker) : Worker :=
  let worker := { worker with state := .installed }
  if worker.skipWaiting then worker.activated else worker

/-- Install a new worker: store its precached URLs, and activate it if it does not
wait. -/
def install (environment : Environment ν) (worker : Worker) (world : ν) :
    Except WorkerError WorkerState × Worker × ν :=
  if worker.state = .installing then
    let (result, storage, world) := precacheAll environment worker.ruleSet.precache.entries
      (worker.stores.storage.openPartition precachePartition, world)
    let worker := worker.withStorage storage
    match result with
    | .ok () => (.ok worker.installed.state, worker.installed, world)
    | .error e => (.error e, { worker with state := stateAfter e }, world)
  else (.error (.invalidState "install" worker.state), worker, world)

/-! ## Messages -/

/-- Whether a message asks the worker not to wait. -/
def asksToSkipWaiting (message : Json) : Bool :=
  match message.get? "type" with
  | some (.str "SKIP_WAITING") => true
  | _ => false

/-- Take a message from a page.  The result tells whether it was understood. -/
def receive (worker : Worker) (message : Json) : Bool × Worker :=
  if asksToSkipWaiting message then
    let worker := { worker with skipWaiting := true }
    (true, if worker.state = .installed then worker.activated else worker)
  else (false, worker)

/-! ## Upkeep -/

/-- Replay queues one after the other. -/
def replayQueues (fetch : Call → ν → Reply × ν) (now : Moment) :
    List (String × WaitingQueue) → ν → (ReplayReport × List (String × WaitingQueue)) × ν
  | [], world => ((.zero, []), world)
  | (name, queue) :: rest, world =>
    let ((report, queue), world) := queue.replay fetch now world
    let ((reports, queues), world) := replayQueues fetch now rest world
    ((report.add reports, (name, queue) :: queues), world)

/-- Replay every queue, in the order of their names. -/
def replay (environment : Environment ν) (worker : Worker) (world : ν) :
    ReplayReport × Worker × ν :=
  let (now, world) := environment.now world
  let ((report, queues), world) :=
    replayQueues environment.fetch now worker.stores.queues.pairs world
  let stores := { worker.stores with queues := worker.stores.queues.insertAll queues }
  (report, { worker with stores }, world)

/-- The partitions that rules bound, with the bounds of the first rule that does. -/
def boundedPartitions : List CachingRule → List (String × Expiration)
  | [] => []
  | rule :: rest =>
    match rule.partition, rule.effectiveExpiration with
    | some name, some bounds =>
      (name, bounds) :: (boundedPartitions rest).filter (·.1 != name)
    | _, _ => boundedPartitions rest

/-- Sweep partitions one after the other. -/
def sweepAll (now : Moment) :
    List (String × Expiration) → Storage → SweepReport × Storage
  | [], storage => (.zero, storage)
  | (name, bounds) :: rest, storage =>
    let (reports, swept) := sweepAll now rest (storage.sweep name bounds now)
    ((SweepReport.of bounds now (storage.entries name)).add reports, swept)

/-- Sweep every partition that rules bound. -/
def sweep (environment : Environment ν) (worker : Worker) (world : ν) :
    SweepReport × Worker × ν :=
  let (now, world) := environment.now world
  let (report, storage) :=
    sweepAll now (boundedPartitions worker.routes.rules) worker.stores.storage
  (report, worker.withStorage storage, world)

/-- How many requests wait in a queue. -/
def queueLength (worker : Worker) (queue : String) : Nat :=
  ((worker.stores.queues.get? queue).map fun waiting => waiting.waiting.length).getD 0

end Worker

end CachePolicy
