import CachePolicy.Worker.Basic

/-!
# Answering a request

An activated worker answers a request from what it has precached, or by the first
rule that takes it; anything else it leaves to the browser.  `Worker.handle` gives
the steps as a task.

A response is stored only if it is complete, and a partition is swept right after.
An entry that is too old is removed when it is met.
-/

namespace CachePolicy

/-- Where a response comes from. -/
inductive ResponseSource where
  | precache
  | cache
  | network
  deriving DecidableEq, Repr, Inhabited

/-- The name of a source. -/
def ResponseSource.name : ResponseSource → String
  | .precache => "Precache"
  | .cache => "Cache"
  | .network => "Network"

/-- How a request ends. -/
inductive Outcome where
  /-- The worker answers, by a rule unless the response was precached. -/
  | response (response : Response) (source : ResponseSource) (rule : Option Nat)
  /-- The browser fetches on its own. -/
  | passthrough
  /-- The request waits to be sent again. -/
  | queued (queue : String)
  | failed (error : WorkerError)

namespace Outcome

/-- A request that the page gave up on. -/
def aborted : Outcome := .failed (.network .aborted)

end Outcome

namespace Task

/-- Look for a response, where one that is too old is removed and does not
count. -/
def cached (partition href : String) (bounds : Option Expiration)
    (next : Option Response → Task α) : Task α :=
  .lookup partition href fun
    | none => next none
    | some entry =>
      match bounds with
      | none => next (some entry.response)
      | some bounds => .now fun moment =>
        if bounds.isFresh moment entry then next (some entry.response)
        else .delete partition href (next none)

/-- Store a complete response and sweep its partition. -/
def store (partition href : String) (response : Response) (bounds : Option Expiration)
    (next : Task α) : Task α :=
  if response.isCacheable then .now fun moment =>
    .put partition href response moment
      (match bounds with
        | some bounds => .sweep partition bounds moment next
        | none => next)
  else next

/-- Look for a precached response.  The page of a directory counts for the
directory. -/
def precached (href : String) (next : Option Response → Task α) : Task α :=
  .lookup precachePartition href fun
    | some entry => next (some entry.response)
    | none =>
      if href.toList.getLast? = some '/' then
        .lookup precachePartition (href ++ "index.html") fun entry =>
          next (entry.map (·.response))
      else next none

end Task

/-- The partition that a rule's strategy works on. -/
def CachingRule.workingPartition (rule : CachingRule) : String :=
  rule.cacheName.getD runtimePartition

/-- The outcome of a response by a rule. -/
def served (index : Nat) (source : ResponseSource) (response : Response) : Task Outcome :=
  .done (.response response source (some index))

/-- The outcome of a request without a response. -/
def failed (error : FetchError) : Task Outcome := .done (.failed (.network error))

/-- How long a rule lets the network take. -/
def CachingRule.networkTimeout (rule : CachingRule) : Option Millis :=
  rule.networkTimeoutSeconds.map fun seconds => seconds.toNat * 1000

/-- Answer a request by a rule. -/
def CachingRule.dispatch (index : Nat) (rule : CachingRule) (request : PageRequest)
    (signal : Option Signal) : Task Outcome :=
  let partition := rule.workingPartition
  let bounds := rule.effectiveExpiration
  let href := request.href
  match rule.strategy with
  | .cacheFirst =>
    .cached partition href bounds fun
      | some response => served index .cache response
      | none => .fetch ⟨request, none, signal⟩ fun reply =>
        match reply.settled with
        | .ok response => .store partition href response bounds (served index .network response)
        | .error e => failed e
  | .networkFirst =>
    .fetch ⟨request, rule.networkTimeout, signal⟩ fun reply =>
      match reply.settled with
      | .ok response => .store partition href response bounds (served index .network response)
      | .error .aborted => failed .aborted
      | .error e => .cached partition href bounds fun
        | some response => served index .cache response
        | none => failed e
  | .staleWhileRevalidate =>
    .cached partition href bounds fun old =>
      .fetch ⟨request, none, signal⟩ fun reply =>
        match reply.settled with
        | .ok response =>
          .store partition href response bounds
            (match old with
              | some old => served index .cache old
              | none => served index .network response)
        | .error e =>
          match old with
          | some old => served index .cache old
          | none => failed e
  | .networkOnly =>
    .fetch ⟨request, none, signal⟩ fun reply =>
      match reply.settled with
      | .ok response => served index .network response
      | .error .aborted => failed .aborted
      | .error e =>
        match rule.replayQueue with
        | some queue => .now fun moment =>
          .enqueue queue.name request moment (.done (.queued queue.name))
        | none => failed e
  | .cacheOnly =>
    .cached partition href bounds fun
      | some response => served index .cache response
      | none => .done (.failed (.cacheMiss partition href))

namespace Worker

/-- Answer a request by the first rule that takes it. -/
def route (worker : Worker) (request : PageRequest) (signal : Option Signal) : Task Outcome :=
  match worker.routes.firstMatch request.info with
  | some (index, rule) => rule.dispatch index request signal
  | none => .done .passthrough

/-- Answer a request; `given` tells whether the page has given up on it already. -/
def handle (worker : Worker) (request : PageRequest) (signal : Option Signal) (given : Bool) :
    Task Outcome :=
  if worker.state ≠ .activated then .done .passthrough
  else if given then .done .aborted
  else if request.info.method = "GET" then
    .precached request.href fun
      | some response => .done (.response response .precache none)
      | none => worker.route request signal
  else worker.route request signal

/-- Answer a request, one step after the other. -/
def fetch (environment : Environment ν) (worker : Worker) (request : PageRequest)
    (signal : Option Signal) (given : Bool) (world : ν) : Outcome × Worker × ν :=
  let (outcome, stores, world) :=
    (worker.handle request signal given).run environment (worker.stores, world)
  (outcome, { worker with stores }, world)

end Worker

end CachePolicy
