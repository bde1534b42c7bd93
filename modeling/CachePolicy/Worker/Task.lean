import CachePolicy.Worker.Queue

/-!
# Tasks

Answering a request takes several steps: looking at the clock, reading and changing
stored responses, calling the network, leaving a request in a queue.  A task is the
tree of such steps.  `Task.run` takes them one after the other; since each step is
whole in itself, the steps of several tasks may also be mixed.
-/

namespace CachePolicy

/-- What the tasks of a worker share. -/
structure Stores where
  storage : Storage
  queues : SortedMap String WaitingQueue

namespace Stores

/-- Nothing stored and no queues. -/
def empty : Stores := ⟨.empty, .empty⟩

/-- Leave a request in a queue, if there is one of the name. -/
def enqueue (stores : Stores) (queue : String) (request : PageRequest) (now : Moment) : Stores :=
  match stores.queues.get? queue with
  | some waiting =>
    { stores with queues := stores.queues.insert queue (waiting.push request now) }
  | none => stores

@[simp] theorem storage_enqueue (stores : Stores) (queue : String) (request : PageRequest)
    (now : Moment) : (stores.enqueue queue request now).storage = stores.storage := by
  unfold enqueue
  split <;> rfl

end Stores

/-- A tree of steps that ends in a result. -/
inductive Task (α : Type) where
  | done (result : α)
  | now (next : Moment → Task α)
  | lookup (partition url : String) (next : Option CachedEntry → Task α)
  | delete (partition url : String) (next : Task α)
  | put (partition url : String) (response : Response) (moment : Moment) (next : Task α)
  | sweep (partition : String) (bounds : Expiration) (moment : Moment) (next : Task α)
  | fetch (call : Call) (next : Reply → Task α)
  | enqueue (queue : String) (request : PageRequest) (moment : Moment) (next : Task α)

namespace Task

/-- Take one step. -/
def step (environment : Environment ν) : Task α → Stores × ν → Task α × Stores × ν
  | .done result, (stores, world) => (.done result, stores, world)
  | .now next, (stores, world) =>
    let (moment, world) := environment.now world
    (next moment, stores, world)
  | .lookup partition url next, (stores, world) =>
    (next (stores.storage.lookup partition url), stores, world)
  | .delete partition url next, (stores, world) =>
    (next, { stores with storage := stores.storage.delete partition url }, world)
  | .put partition url response moment next, (stores, world) =>
    (next, { stores with storage := stores.storage.put partition url response moment }, world)
  | .sweep partition bounds moment next, (stores, world) =>
    (next, { stores with storage := stores.storage.sweep partition bounds moment }, world)
  | .fetch call next, (stores, world) =>
    let (reply, world) := environment.fetch call world
    (next reply, stores, world)
  | .enqueue queue request moment next, (stores, world) =>
    (next, stores.enqueue queue request moment, world)

/-- Take all steps. -/
def run (environment : Environment ν) : Task α → Stores × ν → α × Stores × ν
  | .done result, (stores, world) => (result, stores, world)
  | .now next, (stores, world) =>
    let (moment, world) := environment.now world
    run environment (next moment) (stores, world)
  | .lookup partition url next, (stores, world) =>
    run environment (next (stores.storage.lookup partition url)) (stores, world)
  | .delete partition url next, (stores, world) =>
    run environment next ({ stores with storage := stores.storage.delete partition url }, world)
  | .put partition url response moment next, (stores, world) =>
    run environment next
      ({ stores with storage := stores.storage.put partition url response moment }, world)
  | .sweep partition bounds moment next, (stores, world) =>
    run environment next
      ({ stores with storage := stores.storage.sweep partition bounds moment }, world)
  | .fetch call next, (stores, world) =>
    let (reply, world) := environment.fetch call world
    run environment (next reply) (stores, world)
  | .enqueue queue request moment next, (stores, world) =>
    run environment next (stores.enqueue queue request moment, world)

/-- A step changes nothing about how a task ends. -/
theorem run_step (environment : Environment ν) (task : Task α) (state : Stores × ν) :
    run environment (step environment task state).1 (step environment task state).2 =
      run environment task state := by
  obtain ⟨stores, world⟩ := state
  cases task <;> rfl

end Task

end CachePolicy
