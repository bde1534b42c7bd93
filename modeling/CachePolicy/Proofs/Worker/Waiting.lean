import CachePolicy.Proofs.Worker.Decision
import CachePolicy.Proofs.Worker.Replay

/-!
# Requests that are queued

Of all that a rule does with a request, only one thing reaches the queues: a request
that the network did not take is left in the queue that the rule names, and the worker
says so.
-/

namespace CachePolicy

/-! ## Queues of a worker -/

namespace Stores

/-- The settings of a queue. -/
def settings (stores : Stores) (queue : String) : Option ReplayQueue :=
  (stores.queues.get? queue).map (·.config)

/-- The requests that wait in a queue, the first to be sent first. -/
def waiting (stores : Stores) (queue : String) : List QueuedRequest :=
  ((stores.queues.get? queue).map (·.waiting)).getD []

variable (stores : Stores) (queue other : String) (request : PageRequest) (moment : Moment)

@[simp] theorem settings_enqueue :
    (stores.enqueue queue request moment).settings other = stores.settings other := by
  rw [enqueue]
  cases present : stores.queues.get? queue with
  | none => rfl
  | some waiting =>
      by_cases same : other = queue
      · subst same
        simp [settings, present, WaitingQueue.push]
      · simp [settings, same]

theorem waiting_enqueue (present : (stores.settings queue).isSome) :
    (stores.enqueue queue request moment).waiting other =
      stores.waiting other ++ if queue = other then [⟨request, moment⟩] else [] := by
  obtain ⟨state, found⟩ : ∃ state, stores.queues.get? queue = some state := by
    rw [settings, Option.isSome_map] at present
    exact Option.isSome_iff_exists.mp present
  rw [enqueue, found]
  by_cases same : other = queue
  · subst same
    simp [waiting, found, WaitingQueue.push]
  · simp [waiting, same, Ne.symm same]

end Stores

namespace Worker

/-- The queues of a worker, in the order of their names. -/
def queues (worker : Worker) : List ReplayQueue := worker.stores.queues.pairs.map (·.2.config)

/-- The requests that wait in a queue of a worker, the first to be sent first. -/
def waiting (worker : Worker) (queue : String) : List QueuedRequest :=
  worker.stores.waiting queue

end Worker

/-! ## Requests that queue nothing -/

namespace Task

variable {environment : Environment ν}

/-- No run of the task queues a request or says that it does. -/
def Silent (environment : Environment ν) (task : Task Outcome) : Prop :=
  ∀ (stores : Stores) (world : ν),
    (task.run environment (stores, world)).2.1.queues = stores.queues ∧
      ∀ queue, (task.run environment (stores, world)).1 ≠ .queued queue

theorem Silent.done {outcome : Outcome} (other : ∀ queue, outcome ≠ .queued queue) :
    Silent environment (.done outcome) :=
  fun _ _ => ⟨rfl, other⟩

theorem Silent.fetch {call : Call} {next : Reply → Task Outcome}
    (later : ∀ reply, Silent environment (next reply)) : Silent environment (.fetch call next) :=
  fun stores world => later (environment.fetch call world).1 stores
    (environment.fetch call world).2

theorem Silent.passes (partition : String) : Passes partition (Silent environment) where
  now _ later _ _ := later _ _ _
  lookup _ _ later _ _ := later _ _ _
  delete _ _ later _ _ := later _ _
  put _ _ _ _ later _ _ := later _ _
  sweep _ _ _ later _ _ := later _ _

end Task

/-- A rule queues nothing unless it leaves the caches alone. -/
theorem CachingRule.silent_dispatch (environment : Environment ν) (index : Nat)
    {rule : CachingRule} (caches : rule.strategy ≠ .networkOnly) (request : PageRequest)
    (signal : Option Signal) : (rule.dispatch index request signal).Silent environment := by
  have parts : rule.Parts index request signal (Task.Silent environment)
      (Task.Silent environment) := {
    unread _ := id
    lookup _ := (Task.Silent.passes _).cached
    ask _ _ := Task.Silent.fetch
    askThen _ _ := Task.Silent.fetch
    store _ _ _ _ := (Task.Silent.passes _).store
    serve _ _ _ := .done fun _ same => by cases same
    fail _ := .done fun _ same => by cases same
    queue _ alone _ := absurd alone caches }
  exact parts.dispatch

theorem Reply.result_of_settled {reply : Reply} {error : FetchError}
    (settled : reply.settled = .error error) (other : error ≠ .aborted) :
    reply.aborted = false ∧ reply.result = .error error := by
  rw [Reply.settled] at settled
  cases aborted : reply.aborted with
  | true =>
      rw [aborted, if_pos rfl] at settled
      cases settled
      exact absurd rfl other
  | false =>
      rw [aborted, if_neg Bool.false_ne_true] at settled
      exact ⟨rfl, settled⟩

/-! ## Requests that are queued -/

/-- What there is to say of a request that was queued: the network was asked for it once
and did not take it, and the queue is that of its rule. -/
structure CachingRule.Queues (rule : CachingRule) (request : PageRequest)
    (signal : Option Signal) (name : String) (moment : Moment) (observed : List Observation) :
    Prop where
  named : ∃ queue, rule.replayQueue = some queue ∧ queue.name = name
  failed : ∃ reply error, reply.aborted = false ∧ reply.result = .error error ∧
    error ≠ .aborted ∧
    observed = [.exchange ⟨request, none, signal⟩ reply, .clock moment]

/-- A rule queues the request that it says it has queued, and no other. -/
theorem CachingRule.dispatch_queues (environment : Environment ν) (index : Nat)
    (rule : CachingRule) (request : PageRequest) (signal : Option Signal) (stores : Stores)
    (world : ν) :
    let ran := (rule.dispatch index request signal).run environment.recorded (stores, world, [])
    (ran.2.1.queues = stores.queues ∧ ∀ queue, ran.1 ≠ .queued queue) ∨
      ∃ name moment, ran.1 = .queued name ∧ ran.2.1 = stores.enqueue name request moment ∧
        rule.Queues request signal name moment ran.2.2.2 := by
  intro ran
  by_cases strategy : rule.strategy = .networkOnly
  swap
  · exact .inl (silent_dispatch environment.recorded index strategy request signal stores _)
  have start : ran = (rule.dispatch index request signal).run environment.recorded
      (stores, world, []) := rfl
  rw [dispatch, strategy] at start
  simp only [Task.run, Environment.recorded_fetch, List.nil_append] at start
  generalize environment.fetch ⟨request, none, signal⟩ world = answered at start
  obtain ⟨reply, later⟩ := answered
  have quiet (outcome : Outcome) (other : ∀ queue, outcome ≠ .queued queue)
      (same : ran = (outcome, stores, later, [.exchange ⟨request, none, signal⟩ reply])) :
      ran.2.1.queues = stores.queues ∧ ∀ queue, ran.1 ≠ .queued queue := by
    rw [same]
    exact ⟨rfl, other⟩
  cases settled : reply.settled with
  | ok response =>
      rw [settled] at start
      exact .inl (quiet _ (fun _ same => by cases same) start)
  | error error =>
      rw [settled] at start
      by_cases abandoned : error = .aborted
      · subst abandoned
        exact .inl (quiet _ (fun _ same => by cases same) start)
      cases named : rule.replayQueue with
      | none =>
          rw [named] at start
          -- The reasons other than giving up are treated alike.
          have kept : ran = Task.run environment.recorded (CachePolicy.failed error)
              (stores, later, [.exchange ⟨request, none, signal⟩ reply]) := by
            cases error with
            | aborted => exact absurd rfl abandoned
            | offline => exact start
            | timeout limit => exact start
          exact .inl (quiet _ (fun _ same => by cases same) kept)
      | some queue =>
          rw [named] at start
          have kept : ran = Task.run environment.recorded
              (.now fun moment =>
                .enqueue queue.name request moment (.done (.queued queue.name)))
              (stores, later, [.exchange ⟨request, none, signal⟩ reply]) := by
            cases error with
            | aborted => exact absurd rfl abandoned
            | offline => exact start
            | timeout limit => exact start
          obtain ⟨present, result⟩ := Reply.result_of_settled settled abandoned
          refine .inr ⟨queue.name, (environment.now later).1, by rw [kept]; rfl,
            by rw [kept]; rfl, ⟨queue, named, rfl⟩, reply, error, present, result, abandoned, ?_⟩
          rw [kept]
          rfl

/-- A worker queues the request that it says it has queued, and no other. -/
theorem Worker.handle_queues (environment : Environment ν) (worker : Worker)
    (request : PageRequest) (signal : Option Signal) (given : Bool) (world : ν) :
    let ran := (worker.handle request signal given).run environment.recorded
      (worker.stores, world, [])
    (ran.2.1.queues = worker.stores.queues ∧ ∀ queue, ran.1 ≠ .queued queue) ∨
      ∃ index rule name moment, given = false ∧
        worker.routes.firstMatch request.info = some (index, rule) ∧ ran.1 = .queued name ∧
        ran.2.1 = worker.stores.enqueue name request moment ∧
        rule.Queues request signal name moment ran.2.2.2 := by
  intro ran
  rcases worker.handle_cases request signal environment.recorded (world, []) given with
    ⟨outcome, other, same, -⟩ | ⟨index, rule, -, ungiven, matched, same, -⟩
  · left
    have done : ran = (outcome, worker.stores, world, []) := same
    rw [done]
    exact ⟨rfl, other⟩
  · have handed : ran = (rule.dispatch index request signal).run environment.recorded
        (worker.stores, world, []) := same
    rw [handed]
    rcases rule.dispatch_queues environment index request signal worker.stores world with
      silent | ⟨name, moment, outcome, stores, queues⟩
    · exact .inl silent
    · exact .inr ⟨index, rule, name, moment, ungiven, matched, outcome, stores, queues⟩

end CachePolicy
