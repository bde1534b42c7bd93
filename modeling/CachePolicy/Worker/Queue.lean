import CachePolicy.Rule.Basic
import CachePolicy.Worker.Network
import CachePolicy.Worker.Sweep

/-!
# Queues of requests to send again

Requests that the network did not take wait in a queue in the order in which they
came.  A replay drops those that have waited too long, sends the others in order,
and stops at the first that is not taken.
-/

namespace CachePolicy

/-- A request that waits. -/
structure QueuedRequest where
  request : PageRequest
  queuedAt : Moment

/-- A queue and the requests that wait in it. -/
structure WaitingQueue where
  config : ReplayQueue
  waiting : List QueuedRequest

/-- What a replay has done. -/
structure ReplayReport where
  delivered : Nat
  dropped : Nat
  remaining : Nat
  deriving DecidableEq, Repr

namespace ReplayReport

/-- Nothing done. -/
def zero : ReplayReport := ⟨0, 0, 0⟩

/-- The reports of two replays as one. -/
def add (a b : ReplayReport) : ReplayReport :=
  ⟨a.delivered + b.delivered, a.dropped + b.dropped, a.remaining + b.remaining⟩

end ReplayReport

namespace WaitingQueue

/-- A queue in which nothing waits. -/
def new (config : ReplayQueue) : WaitingQueue := ⟨config, []⟩

/-- Let a request wait. -/
def push (queue : WaitingQueue) (request : PageRequest) (now : Moment) : WaitingQueue :=
  { queue with waiting := queue.waiting ++ [⟨request, now⟩] }

/-- Whether a request has waited too long. -/
def isExpired (config : ReplayQueue) (now : Moment) (entry : QueuedRequest) : Bool :=
  span config.retentionSeconds < now - entry.queuedAt

/-- Replay requests in order.  The result holds what was done and what still
waits. -/
def replayAll (config : ReplayQueue) (fetch : Call → ν → Reply × ν) (now : Moment) :
    List QueuedRequest → ν → (ReplayReport × List QueuedRequest) × ν
  | [], world => ((.zero, []), world)
  | entry :: rest, world =>
    if isExpired config now entry then
      let ((report, left), world) := replayAll config fetch now rest world
      (({ report with dropped := report.dropped + 1 }, left), world)
    else
      let (reply, world) := fetch ⟨entry.request, none, none⟩ world
      match reply.result with
      | .ok _ =>
        let ((report, left), world) := replayAll config fetch now rest world
        (({ report with delivered := report.delivered + 1 }, left), world)
      | .error _ => ((⟨0, 0, rest.length + 1⟩, entry :: rest), world)

/-- Replay a queue. -/
def replay (queue : WaitingQueue) (fetch : Call → ν → Reply × ν) (now : Moment) (world : ν) :
    (ReplayReport × WaitingQueue) × ν :=
  let ((report, left), world) := replayAll queue.config fetch now queue.waiting world
  ((report, { queue with waiting := left }), world)

end WaitingQueue

end CachePolicy
