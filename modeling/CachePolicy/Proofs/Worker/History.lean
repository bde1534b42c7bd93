import CachePolicy.Proofs.Rule.Set
import CachePolicy.Worker.Fetch
import CachePolicy.Worker.Origin
import Mathlib.Data.List.Induction

/-!
# Histories of workers

A history tells what happened to a worker: the operations that it carried out one
after the other, what each of them answered, and what it learned meanwhile from
the clock and the network.

Nothing is assumed about the world.  An operation may find it in any state, which
need not be the one that the operation before has left, so a history covers every
network, every clock, and whatever happens between two operations.
-/

namespace CachePolicy

/-- What a worker learns from outside. -/
inductive Observation where
  | clock (moment : Moment)
  | exchange (call : Call) (reply : Reply)

namespace Observation

/-- The moments among observations, in order. -/
def moments (observed : List Observation) : List Moment :=
  observed.filterMap fun
    | clock moment => some moment
    | exchange .. => none

/-- The calls among observations with their replies, in order. -/
def exchanges (observed : List Observation) : List (Call × Reply) :=
  observed.filterMap fun
    | clock _ => none
    | exchange call reply => some (call, reply)

@[simp] theorem moments_nil : moments [] = [] := rfl

@[simp] theorem moments_append (left right : List Observation) :
    moments (left ++ right) = moments left ++ moments right := by
  simp [moments]

@[simp] theorem moments_clock (moment : Moment) (rest : List Observation) :
    moments (clock moment :: rest) = moment :: moments rest := rfl

@[simp] theorem moments_exchange (call : Call) (reply : Reply) (rest : List Observation) :
    moments (exchange call reply :: rest) = moments rest := rfl

@[simp] theorem exchanges_nil : exchanges [] = [] := rfl

@[simp] theorem exchanges_append (left right : List Observation) :
    exchanges (left ++ right) = exchanges left ++ exchanges right := by
  simp [exchanges]

@[simp] theorem exchanges_clock (moment : Moment) (rest : List Observation) :
    exchanges (clock moment :: rest) = exchanges rest := rfl

@[simp] theorem exchanges_exchange (call : Call) (reply : Reply) (rest : List Observation) :
    exchanges (exchange call reply :: rest) = (call, reply) :: exchanges rest := rfl

end Observation

namespace Environment

/-- The same environment, where a record is kept of what is learned from it. -/
def recorded (environment : Environment ν) : Environment (ν × List Observation) where
  now state :=
    let (moment, world) := environment.now state.1
    (moment, world, state.2 ++ [.clock moment])
  fetch call state :=
    let (reply, world) := environment.fetch call state.1
    (reply, world, state.2 ++ [.exchange call reply])

variable (environment : Environment ν) (world : ν) (seen : List Observation)

@[simp] theorem recorded_now :
    environment.recorded.now (world, seen) =
      ((environment.now world).1, (environment.now world).2,
        seen ++ [.clock (environment.now world).1]) := rfl

@[simp] theorem recorded_fetch (call : Call) :
    environment.recorded.fetch call (world, seen) =
      ((environment.fetch call world).1, (environment.fetch call world).2,
        seen ++ [.exchange call (environment.fetch call world).1]) := rfl

end Environment

/-! ## Operations -/

/-- What can be asked of a worker. -/
inductive Operation where
  | install
  | message (data : Json)
  | activate
  /-- A request, with the signal of the page and whether it has been given. -/
  | fetch (request : PageRequest) (signal : Option Signal) (given : Bool)
  | replay
  | sweep

/-- What an operation answers. -/
inductive Answer where
  | installed (result : Except WorkerError WorkerState)
  | received (understood : Bool)
  | activated (result : Except WorkerError (List String))
  | fetched (outcome : Outcome)
  | replayed (report : ReplayReport)
  | swept (report : SweepReport)

/-- A response on its way into a partition. -/
structure Deposit where
  partition : String
  entry : CachedEntry

/-- The responses that a task stores, in order. -/
def Task.deposits (environment : Environment ν) : Task α → Stores × ν → List Deposit
  | .done _, _ => []
  | .now next, (stores, world) =>
    let (moment, world) := environment.now world
    deposits environment (next moment) (stores, world)
  | .lookup partition url next, (stores, world) =>
    deposits environment (next (stores.storage.lookup partition url)) (stores, world)
  | .delete partition url next, (stores, world) =>
    deposits environment next
      ({ stores with storage := stores.storage.delete partition url }, world)
  | .put partition url response moment next, (stores, world) =>
    ⟨partition, url, response, moment⟩ :: deposits environment next
      ({ stores with storage := stores.storage.put partition url response moment }, world)
  | .sweep partition bounds moment next, (stores, world) =>
    deposits environment next
      ({ stores with storage := stores.storage.sweep partition bounds moment }, world)
  | .fetch call next, (stores, world) =>
    let (reply, world) := environment.fetch call world
    deposits environment (next reply) (stores, world)
  | .enqueue queue request moment next, (stores, world) =>
    deposits environment next (stores.enqueue queue request moment, world)

namespace Worker

/-- Carry out an operation. -/
def perform (environment : Environment ν) (worker : Worker) (operation : Operation)
    (world : ν) : Answer × Worker × ν :=
  match operation with
  | .install =>
    let (result, worker, world) := worker.install environment world
    (.installed result, worker, world)
  | .message data =>
    let (understood, worker) := worker.receive data
    (.received understood, worker, world)
  | .activate =>
    let (result, worker) := worker.activate
    (.activated result, worker, world)
  | .fetch request signal given =>
    let (outcome, worker, world) := worker.fetch environment request signal given world
    (.fetched outcome, worker, world)
  | .replay =>
    let (report, worker, world) := worker.replay environment world
    (.replayed report, worker, world)
  | .sweep =>
    let (report, worker, world) := worker.sweep environment world
    (.swept report, worker, world)

/-- The responses to requests that an operation stores. -/
def deposits (environment : Environment ν) (worker : Worker) (operation : Operation)
    (world : ν) : List Deposit :=
  match operation with
  | .fetch request signal given =>
    (worker.handle request signal given).deposits environment (worker.stores, world)
  | _ => []

end Worker

/-! ## Histories -/

/-- One operation in the history of a worker. -/
structure Stage where
  before : Worker
  operation : Operation
  answer : Answer
  observed : List Observation
  deposits : List Deposit
  after : Worker

/-- What happened to a worker, and what has become of it. -/
structure History where
  stages : List Stage
  worker : Worker

/-- An operation as a worker carries it out in some state of the world. -/
def Worker.stage (environment : Environment ν) (worker : Worker) (operation : Operation)
    (world : ν) : Stage :=
  let (answer, after, _, observed) := worker.perform environment.recorded operation (world, [])
  let deposits := worker.deposits environment.recorded operation (world, [])
  { before := worker, operation, answer, observed, deposits, after }

namespace History

/-- A history and one more operation. -/
def extend (environment : Environment ν) (past : History) (operation : Operation) (world : ν) :
    History :=
  let stage := past.worker.stage environment operation world
  ⟨past.stages ++ [stage], stage.after⟩

/-- What was learned in a history, in order. -/
def observed (history : History) : List Observation := history.stages.flatMap (·.observed)

/-- The moments that the clock showed in a history, in order. -/
def moments (history : History) : List Moment := Observation.moments history.observed

/-- The responses to requests that were stored in a history, in order. -/
def deposits (history : History) : List Deposit := history.stages.flatMap (·.deposits)

section Extend

variable (environment : Environment ν) (past : History) (operation : Operation) (world : ν)

@[simp] theorem stages_extend :
    (past.extend environment operation world).stages =
      past.stages ++ [past.worker.stage environment operation world] := rfl

/-- What all stages of a longer history have is what those before and the last one have. -/
theorem forall_stages_extend {property : Stage → Prop} :
    (∀ stage ∈ (past.extend environment operation world).stages, property stage) ↔
      (∀ stage ∈ past.stages, property stage) ∧
        property (past.worker.stage environment operation world) := by
  rw [stages_extend, List.forall_mem_append, List.forall_mem_singleton]

@[simp] theorem worker_extend :
    (past.extend environment operation world).worker =
      (past.worker.stage environment operation world).after := rfl

@[simp] theorem moments_extend :
    (past.extend environment operation world).moments = past.moments ++
      Observation.moments (past.worker.stage environment operation world).observed := by
  simp [moments, observed]

@[simp] theorem deposits_extend :
    (past.extend environment operation world).deposits =
      past.deposits ++ (past.worker.stage environment operation world).deposits := by
  simp [deposits]

end Extend

end History

/-- The history of a worker that carries out operations one after the other, each in
the given state of the world. -/
def Worker.history (environment : Environment ν) (worker : Worker)
    (steps : List (Operation × ν)) : History :=
  steps.foldl (fun past step => past.extend environment step.1 step.2) ⟨[], worker⟩

/-- What holds at first and is kept by every operation holds after every history. -/
theorem Worker.history_induction (environment : Environment ν) (worker : Worker)
    {motive : History → Prop} (first : motive ⟨[], worker⟩)
    (next : ∀ past operation world, motive past →
      motive (past.extend environment operation world))
    (steps : List (Operation × ν)) : motive (worker.history environment steps) := by
  induction steps using List.reverseRecOn with
  | nil => exact first
  | append_singleton steps step ih =>
      rw [Worker.history, List.foldl_append]
      exact next _ step.1 step.2 ih

/-! ## What no operation changes -/

namespace Worker

/-- A new worker has its rules compiled and nothing done. -/
theorem eq_of_new {ruleSet : RuleSet} {start : Worker} (created : new ruleSet = .ok start) :
    ∃ compiled, ruleSet.compile = .ok compiled ∧ start = {
      ruleSet
      routes := compiled
      stores := ⟨.empty, emptyQueues ruleSet.replayQueues⟩
      state := .installing
      skipWaiting := ruleSet.lifecycle.skipWaiting
      clientsClaimed := false } := by
  rw [new] at created
  cases compiles : ruleSet.compile with
  | error e => simp [compiles] at created
  | ok compiled =>
      simp only [compiles, Except.ok.injEq] at created
      exact ⟨compiled, rfl, created.symm⟩

/-- How a worker gets on that stores nothing: it is told whether to wait for its activation, or it
was installed and takes over. -/
inductive MovesOn (worker : Worker) : Worker → Prop where
  | waits (skipWaiting : Bool) : MovesOn worker { worker with skipWaiting }
  | takesOver (ready : worker.state = .installed) (skipWaiting : Bool) :
      MovesOn worker { worker with skipWaiting }.activated

theorem movesOn_receive (worker : Worker) (data : Json) :
    worker.MovesOn (worker.receive data).2 := by
  rw [receive]
  split
  · by_cases ready : worker.state = .installed
    · simp only [ready, if_true]
      exact .takesOver ready true
    · simp only [ready, if_false]
      exact .waits true
  · exact .waits worker.skipWaiting

theorem movesOn_activate (worker : Worker) : worker.MovesOn worker.activate.2 := by
  rw [activate]
  split
  next ready => exact .takesOver ready worker.skipWaiting
  next => exact .waits worker.skipWaiting

theorem movesOn_installed (worker : Worker) :
    MovesOn { worker with state := .installed } worker.installed := by
  rw [installed]
  split
  · exact .takesOver rfl worker.skipWaiting
  · exact .waits worker.skipWaiting

/-- Two workers have the same rules and the same queues. -/
structure Agrees (worker other : Worker) : Prop where
  ruleSet : other.ruleSet = worker.ruleSet
  routes : other.routes = worker.routes
  queues : other.stores.queues = worker.stores.queues

theorem MovesOn.agrees {worker after : Worker} (moves : worker.MovesOn after) :
    worker.Agrees after := by
  cases moves with
  | waits skipWaiting => exact ⟨rfl, rfl, rfl⟩
  | takesOver ready skipWaiting => exact ⟨rfl, rfl, rfl⟩

/-- What is stored stays, but for what an activation drops. -/
theorem MovesOn.storage {worker after : Worker} (moves : worker.MovesOn after) :
    after.stores.storage = worker.stores.storage ∨
      worker.state = .installed ∧ after.stores.storage = worker.activated.stores.storage := by
  cases moves with
  | waits skipWaiting => exact .inl rfl
  | takesOver ready skipWaiting => exact .inr ⟨ready, rfl⟩

variable (environment : Environment ν) (worker : Worker) (operation : Operation) (world : ν)

theorem agrees_install : worker.Agrees (worker.install environment world).2.1 := by
  rw [install]
  split
  · generalize precacheAll environment _ _ = done
    obtain ⟨result, storage, later⟩ := done
    cases result with
    | error e => exact ⟨rfl, rfl, rfl⟩
    | ok done =>
        have agrees := (movesOn_installed (worker.withStorage storage)).agrees
        exact ⟨agrees.ruleSet, agrees.routes, agrees.queues⟩
  · exact ⟨rfl, rfl, rfl⟩

/-- A worker keeps its rules. -/
theorem rules_perform :
    (worker.perform environment operation world).2.1.ruleSet = worker.ruleSet ∧
      (worker.perform environment operation world).2.1.routes = worker.routes := by
  cases operation with
  | install =>
      have agrees := agrees_install environment worker world
      exact ⟨agrees.ruleSet, agrees.routes⟩
  | message data =>
      have agrees := (worker.movesOn_receive data).agrees
      exact ⟨agrees.ruleSet, agrees.routes⟩
  | activate =>
      have agrees := worker.movesOn_activate.agrees
      exact ⟨agrees.ruleSet, agrees.routes⟩
  | fetch request signal given => exact ⟨rfl, rfl⟩
  | replay => exact ⟨rfl, rfl⟩
  | sweep => exact ⟨rfl, rfl⟩

theorem rules_stage :
    (worker.stage environment operation world).after.ruleSet = worker.ruleSet ∧
      (worker.stage environment operation world).after.routes = worker.routes :=
  rules_perform environment.recorded worker operation (world, [])

/-- A worker keeps its rules in every history. -/
theorem rules_history (steps : List (Operation × ν)) :
    (worker.history environment steps).worker.ruleSet = worker.ruleSet ∧
      (worker.history environment steps).worker.routes = worker.routes := by
  refine history_induction environment worker
    (motive := fun history => history.worker.ruleSet = worker.ruleSet ∧
      history.worker.routes = worker.routes) ⟨rfl, rfl⟩ ?_ steps
  rintro past operation world ⟨ruleSet, routes⟩
  have kept := rules_stage environment past.worker operation world
  exact ⟨kept.1.trans ruleSet, kept.2.trans routes⟩

/-- Only requests and replays change queues. -/
theorem queues_perform (noFetch : ∀ request signal given, operation ≠ .fetch request signal given)
    (noReplay : operation ≠ .replay) :
    (worker.perform environment operation world).2.1.stores.queues = worker.stores.queues := by
  cases operation with
  | install => exact (agrees_install environment worker world).queues
  | message data => exact (worker.movesOn_receive data).agrees.queues
  | activate => exact worker.movesOn_activate.agrees.queues
  | fetch request signal given => exact absurd rfl (noFetch request signal given)
  | replay => exact absurd rfl noReplay
  | sweep => rfl

theorem queues_stage (noFetch : ∀ request signal given, operation ≠ .fetch request signal given)
    (noReplay : operation ≠ .replay) :
    (worker.stage environment operation world).after.stores.queues = worker.stores.queues :=
  queues_perform environment.recorded worker operation (world, []) noFetch noReplay

end Worker

/-! ## Workers of a rule set -/

namespace Worker

/-- A worker carries out the rules of a set. -/
structure CarriesOut (ruleSet : RuleSet) (worker : Worker) : Prop where
  rules : worker.ruleSet = ruleSet
  routes : worker.routes.rules = ruleSet.rules

variable {ruleSet : RuleSet} {start : Worker}

theorem carriesOut_of_new (created : new ruleSet = .ok start) : start.CarriesOut ruleSet := by
  obtain ⟨compiled, compiles, rfl⟩ := eq_of_new created
  exact ⟨rfl, RuleSet.rules_of_compile compiles⟩

/-- A worker that was made from a rule set carries it out in every history. -/
theorem carriesOut_history (created : new ruleSet = .ok start)
    (environment : Environment ν) (steps : List (Operation × ν)) :
    (start.history environment steps).worker.CarriesOut ruleSet := by
  have carries := carriesOut_of_new created
  obtain ⟨rules, routes⟩ := start.rules_history environment steps
  exact ⟨rules.trans carries.rules, (congrArg (·.rules) routes).trans carries.routes⟩

/-- What holds of a new worker and is kept by every operation of a worker that carries out
the same rules holds after every history. -/
theorem history_induction_of_new (created : new ruleSet = .ok start)
    (environment : Environment ν) {motive : History → Prop} (first : motive ⟨[], start⟩)
    (next : ∀ past operation world, past.worker.CarriesOut ruleSet → motive past →
      motive (past.extend environment operation world))
    (steps : List (Operation × ν)) : motive (start.history environment steps) := by
  induction steps using List.reverseRecOn with
  | nil => exact first
  | append_singleton steps step ih =>
      have carries := carriesOut_history created environment steps
      rw [history] at carries ih ⊢
      rw [List.foldl_append]
      exact next _ step.1 step.2 carries ih

end Worker

/-! ## Keeping a record changes nothing -/

section Recorded

variable (environment : Environment ν)

/-- Forget the record at the end of a result. -/
def unrecorded (result : α × β × ν × List Observation) : α × β × ν :=
  (result.1, result.2.1, result.2.2.1)

theorem Task.unrecorded_run (task : Task α) (stores : Stores) (world : ν)
    (seen : List Observation) :
    unrecorded (task.run environment.recorded (stores, world, seen)) =
      task.run environment (stores, world) := by
  induction task generalizing stores world seen with
  | done result => rfl
  | now next ih => exact ih _ _ _ _
  | lookup partition url next ih => exact ih _ _ _ _
  | delete partition url next ih => exact ih _ _ _
  | put partition url response moment next ih => exact ih _ _ _
  | sweep partition bounds moment next ih => exact ih _ _ _
  | fetch call next ih => exact ih _ _ _ _
  | enqueue queue request moment next ih => exact ih _ _ _

theorem Worker.unrecorded_precacheAll (entries : List PrecacheEntry) (storage : Storage)
    (world : ν) (seen : List Observation) :
    unrecorded (Worker.precacheAll environment.recorded entries (storage, world, seen)) =
      Worker.precacheAll environment entries (storage, world) := by
  induction entries generalizing storage world seen with
  | nil => rfl
  | cons entry rest ih =>
      simp only [Worker.precacheAll]
      cases PageRequest.get entry.url with
      | error e => rfl
      | ok request =>
          simp only [Environment.recorded_fetch]
          cases (environment.fetch ⟨request, none, none⟩ world).1.result with
          | error e => rfl
          | ok response =>
              by_cases cacheable : response.isCacheable
              · simp only [cacheable, if_true]
                exact ih _ _ _
              · simp only [cacheable]
                rfl

/-- What is learned while entries are stored ahead, and what comes of it: one entry is stored after
the other, up to the first whose URL cannot be read, which the network does not answer, or whose
response is not complete. -/
inductive Worker.Precaching : List PrecacheEntry → Storage → List Observation →
    Except WorkerError Unit → Storage → Prop where
  | finished {storage : Storage} : Precaching [] storage [] (.ok ()) storage
  | unread {entry : PrecacheEntry} {rest : List PrecacheEntry} {storage : Storage}
      {error : RuleError} (read : PageRequest.get entry.url = .error error) :
      Precaching (entry :: rest) storage [] (.error (.rule error)) storage
  | unanswered {entry : PrecacheEntry} {rest : List PrecacheEntry} {storage : Storage}
      {request : PageRequest} {reply : Reply} {error : FetchError}
      (read : PageRequest.get entry.url = .ok request) (answered : reply.result = .error error) :
      Precaching (entry :: rest) storage [.exchange ⟨request, none, none⟩ reply]
        (.error (.precacheFailed entry.url error.message)) storage
  | incomplete {entry : PrecacheEntry} {rest : List PrecacheEntry} {storage : Storage}
      {request : PageRequest} {reply : Reply} {response : Response}
      (read : PageRequest.get entry.url = .ok request) (answered : reply.result = .ok response)
      (incomplete : response.isCacheable = false) :
      Precaching (entry :: rest) storage [.exchange ⟨request, none, none⟩ reply]
        (.error (.precacheFailed entry.url s!"status {response.status}")) storage
  | stored {entry : PrecacheEntry} {rest : List PrecacheEntry} {storage after : Storage}
      {request : PageRequest} {reply : Reply} {response : Response} {learned : List Observation}
      {result : Except WorkerError Unit} (read : PageRequest.get entry.url = .ok request)
      (answered : reply.result = .ok response) (complete : response.isCacheable = true)
      (moment : Moment)
      (later : Precaching rest (storage.put precachePartition request.href response moment)
        learned result after) :
      Precaching (entry :: rest) storage
        (.exchange ⟨request, none, none⟩ reply :: .clock moment :: learned) result after

theorem Worker.exists_precaching (entries : List PrecacheEntry) (storage : Storage) (world : ν)
    (seen : List Observation) :
    ∃ result after later learned,
      Worker.precacheAll environment.recorded entries (storage, world, seen) =
        (result, after, later, seen ++ learned) ∧
      Precaching entries storage learned result after := by
  induction entries generalizing storage world seen with
  | nil => exact ⟨.ok (), storage, world, [], by simp [Worker.precacheAll], .finished⟩
  | cons entry rest ih =>
      rw [Worker.precacheAll]
      cases read : PageRequest.get entry.url with
      | error e => exact ⟨_, storage, world, [], by rw [List.append_nil], .unread read⟩
      | ok request =>
          simp only [Environment.recorded_fetch]
          generalize environment.fetch ⟨request, none, none⟩ world = fetched
          obtain ⟨reply, world⟩ := fetched
          cases answered : reply.result with
          | error e => exact ⟨_, storage, world, _, rfl, .unanswered read answered⟩
          | ok response =>
              cases complete : response.isCacheable with
              | false =>
                  simp only [complete, Bool.false_eq_true, if_false]
                  exact ⟨_, storage, world, _, rfl, .incomplete read answered complete⟩
              | true =>
                  simp only [complete, if_true, Environment.recorded_now]
                  obtain ⟨result, after, later, learned, ran, precaching⟩ := ih
                    (storage.put precachePartition request.href response (environment.now world).1)
                    (environment.now world).2
                    (seen ++ [.exchange ⟨request, none, none⟩ reply] ++
                      [.clock (environment.now world).1])
                  refine ⟨result, after, later, _, ?_,
                    .stored read answered complete (environment.now world).1 precaching⟩
                  rw [ran, List.append_assoc, List.append_assoc]
                  rfl

/-- An installation of a new worker stores its entries ahead, and the worker is installed if none of
them fails. -/
theorem Worker.exists_stage_install (worker : Worker) (world : ν)
    (new : worker.state = .installing) :
    ∃ result storage learned,
      Precaching worker.ruleSet.precache.entries
        (worker.stores.storage.openPartition precachePartition) learned result storage ∧
      worker.stage environment .install world = {
        before := worker
        operation := .install
        answer := .installed (result.map fun _ => (worker.withStorage storage).installed.state)
        observed := learned
        deposits := []
        after := match result with
          | .ok () => (worker.withStorage storage).installed
          | .error e => { worker.withStorage storage with state := stateAfter e } } := by
  obtain ⟨result, storage, later, learned, ran, precaching⟩ :=
    exists_precaching environment worker.ruleSet.precache.entries
      (worker.stores.storage.openPartition precachePartition) world []
  refine ⟨result, storage, learned, precaching, ?_⟩
  simp only [stage, perform, install, if_pos new, ran]
  cases result <;> rfl

/-- Any other worker refuses to be installed. -/
theorem Worker.stage_install_of_settled (worker : Worker) (world : ν)
    (settled : worker.state ≠ .installing) :
    worker.stage environment .install world = {
      before := worker
      operation := .install
      answer := .installed (.error (.invalidState "install" worker.state))
      observed := []
      deposits := []
      after := worker } := by
  simp only [stage, perform, install, if_neg settled]
  rfl

theorem WaitingQueue.unrecorded_replayAll (config : ReplayQueue) (now : Moment)
    (entries : List QueuedRequest) (world : ν) (seen : List Observation) :
    let fine := WaitingQueue.replayAll config environment.recorded.fetch now entries (world, seen)
    (fine.1, fine.2.1) = WaitingQueue.replayAll config environment.fetch now entries world := by
  induction entries generalizing world seen with
  | nil => rfl
  | cons entry rest ih =>
      simp only [WaitingQueue.replayAll]
      by_cases expired : WaitingQueue.isExpired config now entry
      · simp only [expired, if_true, ← ih world seen]
      · simp only [expired, Bool.false_eq_true, if_false, Environment.recorded_fetch]
        cases (environment.fetch ⟨entry.request, none, none⟩ world).1.result with
        | error e => rfl
        | ok response =>
            exact congrArg
              (fun tail => (({ tail.1.1 with delivered := tail.1.1.delivered + 1 }, tail.1.2),
                tail.2))
              (ih _ _)

theorem Worker.unrecorded_replayQueues (now : Moment) (queues : List (String × WaitingQueue))
    (world : ν) (seen : List Observation) :
    let fine := Worker.replayQueues environment.recorded.fetch now queues (world, seen)
    (fine.1, fine.2.1) = Worker.replayQueues environment.fetch now queues world := by
  induction queues generalizing world seen with
  | nil => rfl
  | cons named rest ih =>
      obtain ⟨name, queue⟩ := named
      have first := WaitingQueue.unrecorded_replayAll environment queue.config now
        queue.waiting world seen
      simp only [Worker.replayQueues, WaitingQueue.replay] at first ih ⊢
      rw [← first]
      simp only [← ih _ (WaitingQueue.replayAll queue.config environment.recorded.fetch now
        queue.waiting (world, seen)).2.2]

/-- Keeping a record changes neither what an operation does nor what it answers. -/
theorem Worker.unrecorded_perform (worker : Worker) (operation : Operation) (world : ν)
    (seen : List Observation) :
    unrecorded (worker.perform environment.recorded operation (world, seen)) =
      worker.perform environment operation world := by
  cases operation with
  | install =>
      have entries := Worker.unrecorded_precacheAll environment worker.ruleSet.precache.entries
        (worker.stores.storage.openPartition precachePartition) world seen
      simp only [Worker.perform, Worker.install]
      split
      · rw [← entries]
        generalize Worker.precacheAll environment.recorded worker.ruleSet.precache.entries
          (worker.stores.storage.openPartition precachePartition, world, seen) = done
        obtain ⟨result, storage, world, seen⟩ := done
        cases result <;> rfl
      · rfl
  | message data => rfl
  | activate => rfl
  | fetch request signal given =>
      have task := Task.unrecorded_run environment (worker.handle request signal given)
        worker.stores world seen
      simp only [Worker.perform, Worker.fetch, ← task]
      rfl
  | replay =>
      have queues := Worker.unrecorded_replayQueues environment (environment.now world).1
        worker.stores.queues.pairs (environment.now world).2
        (seen ++ [.clock (environment.now world).1])
      simp only [Worker.perform, Worker.replay, Environment.recorded_now] at queues ⊢
      rw [← queues]
      rfl
  | sweep => rfl

end Recorded

/-! ## Short histories -/

/-- A plain request by a page for a path of its own site. -/
def PageRequest.onSite (method path : String) : PageRequest :=
  ⟨⟨⟨"http", some (.ofHost Request.site), path, none, none⟩, method, .none⟩, none⟩

/-- A bench at a moment, with a network that is cut off or knows some answers. -/
def Bench.at (now : Moment) (routes : List (String × OriginRoute)) (offline : Bool) : Bench :=
  ⟨{ Origin.new with routes, offline }, now⟩

end CachePolicy
