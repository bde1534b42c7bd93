import CachePolicy.Proofs.Data.SortedMap
import CachePolicy.Proofs.Worker.History
import Mathlib.Data.List.Basic

/-!
# Replays

A replay of a queue removes a first part of it.  Of these requests it sends, in their
order, those that have not waited too long, and the network takes every one of them.
Of the requests that stay it sends the first, which the network does not take.
-/

namespace CachePolicy

/-- Whether a request has waited longer than its queue is declared to keep it.  No two
moments of a calendar lie `longestSpan` apart. -/
def ReplayQueue.overdue (queue : ReplayQueue) (now : Moment) (entry : QueuedRequest) : Bool :=
  (min (queue.maxRetentionMinutes.toNat * 60) longestSpan * 1000 : Nat) < now - entry.queuedAt

/-- Minutes become seconds exactly, or as many as 64 bits can say. -/
theorem ReplayQueue.toNat_retentionSeconds (queue : ReplayQueue) :
    queue.retentionSeconds.toNat =
      min (queue.maxRetentionMinutes.toNat * 60) (UInt64.size - 1) := by
  have small : min (queue.maxRetentionMinutes.toNat * 60) (UInt64.size - 1) < 2 ^ 64 :=
    Nat.lt_of_le_of_lt (Nat.min_le_right _ _) (by decide)
  rw [retentionSeconds, UInt64.toNat_ofNat', Nat.mod_eq_of_lt small]

/-- What 64 bits cannot say lies beyond the longest span. -/
theorem ReplayQueue.min_retentionSeconds (queue : ReplayQueue) :
    min queue.retentionSeconds.toNat longestSpan =
      min (queue.maxRetentionMinutes.toNat * 60) longestSpan := by
  rw [toNat_retentionSeconds, Nat.min_assoc,
    Nat.min_eq_right (by decide : longestSpan ≤ UInt64.size - 1)]

theorem WaitingQueue.isExpired_eq_overdue (config : ReplayQueue) (now : Moment)
    (entry : QueuedRequest) : isExpired config now entry = config.overdue now entry := by
  simp only [isExpired, ReplayQueue.overdue, span, config.min_retentionSeconds]

/-- The requests that were sent, in order, each with whether the network took it. -/
def Observation.attempts (observed : List Observation) : List (PageRequest × Bool) :=
  (exchanges observed).map fun exchange => (exchange.1.request, exchange.2.result.isOk)

@[simp] theorem Observation.attempts_nil : attempts [] = [] := rfl

@[simp] theorem Observation.attempts_append (left right : List Observation) :
    attempts (left ++ right) = attempts left ++ attempts right := by
  simp [attempts]

@[simp] theorem Observation.attempts_exchange (call : Call) (reply : Reply)
    (rest : List Observation) :
    attempts (exchange call reply :: rest) =
      (call.request, reply.result.isOk) :: attempts rest := rfl

/-- The requests that are gone when only a last part of them stays. -/
def removedOf (before after : List QueuedRequest) : List QueuedRequest :=
  before.take (before.length - after.length)

@[simp] theorem removedOf_append (removed left : List QueuedRequest) :
    removedOf (removed ++ left) left = removed := by
  simp [removedOf]

/-- What a replay of a queue sends: those of the requests that it removes which are not
overdue, and the first of those that stay. -/
def ReplayQueue.sent (queue : ReplayQueue) (now : Moment) (removed left : List QueuedRequest) :
    List (PageRequest × Bool) :=
  (removed.filter (!queue.overdue now ·)).map (fun entry => (entry.request, true)) ++
    (left.take 1).map fun entry => (entry.request, false)

namespace WaitingQueue

/-- What a replay does to the requests of a queue: it removes a first part of them, and
accounts for all of them in what it sends and in its report. -/
structure Replays (config : ReplayQueue) (now : Moment) (before : List QueuedRequest)
    (removed left : List QueuedRequest) (learned : List Observation) (report : ReplayReport) :
    Prop where
  parts : before = removed ++ left
  attempts : Observation.attempts learned = config.sent now removed left
  untimed : Observation.moments learned = []
  delivered : report.delivered = (removed.filter (!config.overdue now ·)).length
  dropped : report.dropped = (removed.filter (config.overdue now)).length
  remaining : report.remaining = left.length

namespace Replays

variable {config : ReplayQueue} {now : Moment} {entry : QueuedRequest}
variable {before removed left : List QueuedRequest} {learned : List Observation}
variable {report : ReplayReport}

/-- A request that is overdue is removed without being sent. -/
theorem drop (overdue : config.overdue now entry = true)
    (replays : Replays config now before removed left learned report) :
    Replays config now (entry :: before) (entry :: removed) left learned
      { report with dropped := report.dropped + 1 } where
  parts := by rw [replays.parts, List.cons_append]
  attempts := by simp [replays.attempts, ReplayQueue.sent, overdue]
  untimed := replays.untimed
  delivered := by simp [replays.delivered, overdue]
  dropped := by simp [replays.dropped, overdue]
  remaining := replays.remaining

/-- A request that is not overdue is removed when the network takes it. -/
theorem deliver (timely : config.overdue now entry = false) {reply : Reply}
    {response : Response} (taken : reply.result = .ok response)
    (replays : Replays config now before removed left learned report) :
    Replays config now (entry :: before) (entry :: removed) left
      (.exchange ⟨entry.request, none, none⟩ reply :: learned)
      { report with delivered := report.delivered + 1 } where
  parts := by rw [replays.parts, List.cons_append]
  attempts := by
    rw [Observation.attempts_exchange, replays.attempts]
    simp [ReplayQueue.sent, timely, taken, Except.isOk, Except.toBool]
  untimed := by
    rw [Observation.moments_exchange, replays.untimed]
  delivered := by simp [replays.delivered, timely]
  dropped := by simp [replays.dropped, timely]
  remaining := replays.remaining

/-- A request that the network does not take stays, and so do all after it. -/
theorem stop {rest : List QueuedRequest} {reply : Reply} {error : FetchError}
    (refused : reply.result = .error error) :
    Replays config now (entry :: rest) [] (entry :: rest)
      [.exchange ⟨entry.request, none, none⟩ reply] ⟨0, 0, rest.length + 1⟩ where
  parts := rfl
  attempts := by simp [ReplayQueue.sent, refused, Except.isOk, Except.toBool]
  untimed := rfl
  delivered := rfl
  dropped := rfl
  remaining := rfl

theorem total (replays : Replays config now before removed left learned report) :
    report.delivered + report.dropped + report.remaining = before.length := by
  have split := List.length_eq_length_filter_add (l := removed) (config.overdue now)
  rw [replays.delivered, replays.dropped, replays.remaining, replays.parts,
    List.length_append, split]
  omega

end Replays

theorem exists_replays (environment : Environment ν) (config : ReplayQueue) (now : Moment)
    (entries : List QueuedRequest) (world : ν) (seen : List Observation) :
    ∃ report removed left later learned,
      replayAll config environment.recorded.fetch now entries (world, seen) =
        ((report, left), later, seen ++ learned) ∧
      Replays config now entries removed left learned report := by
  induction entries generalizing world seen with
  | nil =>
      exact ⟨.zero, [], [], world, [], by simp [replayAll], rfl, rfl, rfl, rfl, rfl, rfl⟩
  | cons entry rest ih =>
      rw [replayAll, isExpired_eq_overdue]
      by_cases overdue : config.overdue now entry
      · obtain ⟨report, removed, left, later, learned, ran, replays⟩ := ih world seen
        exact ⟨_, _, left, later, learned, by rw [if_pos overdue, ran], replays.drop overdue⟩
      · have timely : config.overdue now entry = false := by simpa using overdue
        simp only [timely, Bool.false_eq_true, if_false, Environment.recorded_fetch]
        cases answer : (environment.fetch ⟨entry.request, none, none⟩ world).1.result with
        | error error => exact ⟨_, [], _, _, _, rfl, .stop answer⟩
        | ok response =>
            obtain ⟨report, removed, left, later, learned, ran, replays⟩ :=
              ih (environment.fetch ⟨entry.request, none, none⟩ world).2
                (seen ++ [.exchange ⟨entry.request, none, none⟩
                  (environment.fetch ⟨entry.request, none, none⟩ world).1])
            refine ⟨_, _, left, later, _, ?_, replays.deliver timely answer⟩
            simp only [ran, List.append_assoc, List.singleton_append]

end WaitingQueue

/-! ## All queues -/

/-- What a replay does to the queues of a worker, one after the other. -/
inductive ReplaysAll (now : Moment) :
    List (String × WaitingQueue) → List (String × WaitingQueue) → List Observation →
      ReplayReport → Prop where
  | nil : ReplaysAll now [] [] [] .zero
  | cons {name : String} {queue : WaitingQueue} {removed left : List QueuedRequest}
      {learned more : List Observation} {report others : ReplayReport}
      {rest after : List (String × WaitingQueue)} :
      WaitingQueue.Replays queue.config now queue.waiting removed left learned report →
      ReplaysAll now rest after more others →
      ReplaysAll now ((name, queue) :: rest) ((name, { queue with waiting := left }) :: after)
        (learned ++ more) (report.add others)

namespace ReplaysAll

variable {now : Moment} {before after : List (String × WaitingQueue)}
variable {learned : List Observation} {report : ReplayReport}

theorem exists_replayQueues (environment : Environment ν) (now : Moment)
    (before : List (String × WaitingQueue)) (world : ν) (seen : List Observation) :
    ∃ report after later learned,
      Worker.replayQueues environment.recorded.fetch now before (world, seen) =
        ((report, after), later, seen ++ learned) ∧
      ReplaysAll now before after learned report := by
  induction before generalizing world seen with
  | nil => exact ⟨.zero, [], world, [], by simp [Worker.replayQueues], .nil⟩
  | cons named rest ih =>
      obtain ⟨name, queue⟩ := named
      obtain ⟨report, removed, left, later, learned, ran, replays⟩ :=
        WaitingQueue.exists_replays environment queue.config now queue.waiting world seen
      obtain ⟨others, after, last, more, ranRest, replaysRest⟩ := ih later (seen ++ learned)
      refine ⟨_, _, last, _, ?_, .cons replays replaysRest⟩
      simp only [Worker.replayQueues, WaitingQueue.replay, ran, ranRest, List.append_assoc]

theorem names (replays : ReplaysAll now before after learned report) :
    after.map (·.1) = before.map (·.1) := by
  induction replays with
  | nil => rfl
  | cons _ _ ih => rw [List.map_cons, List.map_cons, ih]

theorem untimed (replays : ReplaysAll now before after learned report) :
    Observation.moments learned = [] := by
  induction replays with
  | nil => rfl
  | cons first _ ih => rw [Observation.moments_append, first.untimed, ih, List.append_nil]

theorem total (replays : ReplaysAll now before after learned report) :
    report.delivered + report.dropped + report.remaining =
      (before.map (·.2.waiting.length)).sum := by
  induction replays with
  | nil => rfl
  | cons first _ ih =>
      have head := first.total
      simp only [List.map_cons, List.sum_cons, ReplayReport.add]
      omega

/-- A queue keeps its name and its settings, and of its requests a last part. -/
theorem lookup (replays : ReplaysAll now before after learned report) (name : String) :
    (before.lookup name = none ∧ after.lookup name = none) ∨
      ∃ queue removed left, before.lookup name = some queue ∧
        queue.waiting = removed ++ left ∧
        after.lookup name = some { queue with waiting := left } := by
  induction replays with
  | nil => exact .inl ⟨rfl, rfl⟩
  | @cons first queue removed left _ _ _ _ _ _ head _ ih =>
      rw [SortedMap.lookup_cons_eq, SortedMap.lookup_cons_eq]
      by_cases same : name = first
      · exact .inr ⟨queue, removed, left, by simp [same], head.parts, by simp [same]⟩
      · rw [if_neg same, if_neg same]
        exact ih

/-- The requests that wait in a queue of a name. -/
def waitingIn (queues : List (String × WaitingQueue)) (name : String) : List QueuedRequest :=
  ((queues.lookup name).map (·.waiting)).getD []

theorem waitingIn_cons (name other : String) (queue : WaitingQueue)
    (rest : List (String × WaitingQueue)) :
    waitingIn ((name, queue) :: rest) other =
      if other = name then queue.waiting else waitingIn rest other := by
  rw [waitingIn, SortedMap.lookup_cons_eq]
  split <;> rfl

/-- A replay sends, queue by queue, what a replay of the queue sends. -/
theorem attempts (distinct : (before.map (·.1)).Nodup)
    (replays : ReplaysAll now before after learned report) :
    Observation.attempts learned = before.flatMap fun named =>
      named.2.config.sent now (removedOf named.2.waiting (waitingIn after named.1))
        (waitingIn after named.1) := by
  induction replays with
  | nil => rfl
  | @cons name queue removed left _ _ _ _ rest after head _ ih =>
      rw [List.map_cons, List.nodup_cons] at distinct
      rw [List.flatMap_cons, Observation.attempts_append, head.attempts, ih distinct.2]
      congr 1
      · simp only [waitingIn_cons, if_true, head.parts, removedOf_append]
      · apply List.flatMap_congr
        intro named member
        have other : named.1 ≠ name := by
          rintro rfl
          exact distinct.1 (List.mem_map.mpr ⟨named, member, rfl⟩)
        simp only [waitingIn_cons, if_neg other]

end ReplaysAll

/-- A replay looks at the clock, and then replays every queue. -/
theorem Worker.exists_stage_replay (environment : Environment ν) (worker : Worker) (world : ν) :
    ∃ report queues learned,
      ReplaysAll (environment.now world).1 worker.stores.queues.pairs queues learned report ∧
      worker.stage environment .replay world =
        { before := worker
          operation := .replay
          answer := .replayed report
          observed := .clock (environment.now world).1 :: learned
          deposits := []
          after := { worker with stores.queues := worker.stores.queues.insertAll queues } } := by
  obtain ⟨report, queues, last, learned, ran, replays⟩ :=
    ReplaysAll.exists_replayQueues environment (environment.now world).1
      worker.stores.queues.pairs (environment.now world).2
      [.clock (environment.now world).1]
  refine ⟨report, queues, learned, replays, ?_⟩
  simp only [stage, perform, replay, Environment.recorded_now, List.nil_append, ran]
  rfl

end CachePolicy
