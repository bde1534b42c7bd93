import CachePolicy.Proofs.Worker.Footprint
import CachePolicy.Proofs.Worker.Precache
import CachePolicy.Proofs.Worker.Sync

/-!
# Requests in either order

Two requests that are handed to rules with different caches and different queues have nothing to do
with each other, as long as no rule has the precache as its cache: a request then makes no
difference to what the worker does about another.  So they may be handled in either order.  The
clock has to stand still meanwhile, and the network has to give equal calls equal answers.
-/

namespace CachePolicy

/-! ## Stores in parts -/

namespace Stores.Alike

variable {partitions queues morePartitions moreQueues : String → Prop}
variable {first second third : Stores}

theorem symm (alike : Alike partitions queues first second) :
    Alike partitions queues second first where
  storage partition listed := (alike.storage partition listed).symm
  queues queue listed := (alike.queues queue listed).symm

theorem trans (one : Alike partitions queues first second)
    (other : Alike partitions queues second third) : Alike partitions queues first third where
  storage partition listed := (one.storage partition listed).trans (other.storage partition listed)
  queues queue listed := (one.queues queue listed).trans (other.queues queue listed)

theorem mono (alike : Alike morePartitions moreQueues first second)
    (fewer : ∀ partition, partitions partition → morePartitions partition)
    (fewerQueues : ∀ queue, queues queue → moreQueues queue) :
    Alike partitions queues first second where
  storage partition listed := alike.storage partition (fewer partition listed)
  queues queue listed := alike.queues queue (fewerQueues queue listed)

/-- Stores that differ neither in some parts nor in the others are equal. -/
theorem eq_of_cover (one : Alike partitions queues first second)
    (other : Alike morePartitions moreQueues first second)
    (neither : Alike (fun partition => ¬ partitions partition ∧ ¬ morePartitions partition)
      (fun queue => ¬ queues queue ∧ ¬ moreQueues queue) first second) : first = second := by
  have storage : first.storage = second.storage := by
    apply SortedMap.ext_get?
    intro partition
    by_cases listed : partitions partition
    · exact one.storage partition listed
    · by_cases further : morePartitions partition
      · exact other.storage partition further
      · exact neither.storage partition ⟨listed, further⟩
  have waiting : first.queues = second.queues := by
    apply SortedMap.ext_get?
    intro queue
    by_cases listed : queues queue
    · exact one.queues queue listed
    · by_cases further : moreQueues queue
      · exact other.queues queue further
      · exact neither.queues queue ⟨listed, further⟩
  cases first
  cases second
  cases storage
  cases waiting
  rfl

end Stores.Alike

/-! ## Tasks -/

namespace Task

/-- Two tasks work on nothing in common. -/
structure Apart (first : Task α) (second : Task β) : Prop where
  partitions : ∀ partition, first.Visits partition → ¬ second.Visits partition
  queues : ∀ queue, first.Fills queue → ¬ second.Fills queue

namespace Apart

variable {first : Task α} {second : Task β}

theorem symm (apart : first.Apart second) : second.Apart first where
  partitions partition visits other := apart.partitions partition other visits
  queues queue fills other := apart.queues queue other fills

/-- All that a task does not work on stays as it was. -/
theorem alike_run (environment : Environment ν) (task : Task α) (stores : Stores) (world : ν) :
    (task.run environment (stores, world)).2.1.Alike (¬ task.Visits ·) (¬ task.Fills ·)
      stores where
  storage _ := storage_run_of_not_visits environment stores world
  queues _ := queues_run_of_not_fills environment stores world

variable {environment : Environment ν} {moment : Moment} {answer : Call → Reply}
variable {steady : ν → Prop}

/-- A task that is run after another does what it does alone. -/
theorem run_after (apart : first.Apart second)
    (still : environment.Steady moment answer steady) (stores : Stores) {world : ν}
    (here : steady world) :
    let before := first.run environment (stores, world)
    let alone := second.run environment (stores, world)
    let after := second.run environment before.2
    after.1 = alone.1 ∧ after.2.1.Alike second.Visits second.Fills alone.2.1 := by
  intro before alone after
  have unaware : before.2.1.Alike second.Visits second.Fills stores := by
    apply (alike_run environment first stores world).mono
    · exact apart.symm.partitions
    · exact apart.symm.queues
  exact run_congr still (fun _ visits => visits) unaware (first.steady_run still stores here) here

/-- Tasks that work on nothing in common may be run in either order. -/
theorem run_comm (apart : first.Apart second)
    (still : environment.Steady moment answer steady) (stores : Stores) {world : ν}
    (here : steady world) :
    let one := first.run environment (stores, world)
    let other := second.run environment one.2
    let early := second.run environment (stores, world)
    let late := first.run environment early.2
    one.1 = late.1 ∧ other.1 = early.1 ∧ other.2.1 = late.2.1 := by
  intro one other early late
  obtain ⟨sameSecond, own⟩ := apart.run_after still stores here
  obtain ⟨sameFirst, others⟩ := apart.symm.run_after still stores here
  have byFirst : one.2.1.Alike (¬ first.Visits ·) (¬ first.Fills ·) stores :=
    alike_run environment first stores world
  have bySecond : other.2.1.Alike (¬ second.Visits ·) (¬ second.Fills ·) one.2.1 :=
    alike_run environment second one.2.1 one.2.2
  have earlySecond : early.2.1.Alike (¬ second.Visits ·) (¬ second.Fills ·) stores :=
    alike_run environment second stores world
  have lateFirst : late.2.1.Alike (¬ first.Visits ·) (¬ first.Fills ·) early.2.1 :=
    alike_run environment first early.2.1 early.2.2
  have onFirst : other.2.1.Alike first.Visits first.Fills late.2.1 :=
    (bySecond.mono apart.partitions apart.queues).trans others.symm
  have onSecond : other.2.1.Alike second.Visits second.Fills late.2.1 :=
    own.trans (lateFirst.mono apart.symm.partitions apart.symm.queues).symm
  refine ⟨sameFirst.symm, sameSecond, onFirst.eq_of_cover onSecond ?_⟩
  have aside : other.2.1.Alike
      (fun partition => ¬ first.Visits partition ∧ ¬ second.Visits partition)
      (fun queue => ¬ first.Fills queue ∧ ¬ second.Fills queue) stores :=
    (bySecond.mono (fun _ => And.right) (fun _ => And.right)).trans
      (byFirst.mono (fun _ => And.left) (fun _ => And.left))
  have asideLate : late.2.1.Alike
      (fun partition => ¬ first.Visits partition ∧ ¬ second.Visits partition)
      (fun queue => ¬ first.Fills queue ∧ ¬ second.Fills queue) stores :=
    (lateFirst.mono (fun _ => And.left) (fun _ => And.left)).trans
      (earlySecond.mono (fun _ => And.right) (fun _ => And.right))
  exact aside.trans asideLate.symm

end Apart

end Task

/-! ## Requests -/

/-- Two rules that share neither a cache nor a queue. -/
structure CachingRule.Apart (first second : CachingRule) : Prop where
  caches : first.strategy.usesCache = true → second.strategy.usesCache = true →
    first.workingPartition ≠ second.workingPartition
  queues : ∀ queue, first.FillsQueue queue → ¬ second.FillsQueue queue

/-- The tasks of such rules work on nothing in common, whatever the requests. -/
theorem CachingRule.Apart.dispatch {first second : CachingRule} (apart : first.Apart second)
    (index other : Nat) (request following : PageRequest) (signal later : Option Signal) :
    (first.dispatch index request signal).Apart (second.dispatch other following later) where
  partitions partition visits both := by
    obtain ⟨uses, works⟩ := (first.visits_dispatch_iff index request signal partition).mp visits
    obtain ⟨also, same⟩ := (second.visits_dispatch_iff other following later partition).mp both
    exact apart.caches uses also (works.trans same.symm)
  queues queue fills both := by
    apply apart.queues queue
    · exact first.fillsQueue_of_fills_dispatch index request signal fills
    · exact second.fillsQueue_of_fills_dispatch other following later both

namespace Worker

variable {worker : Worker} {request following : PageRequest} {given later : Bool}
variable {index other : Nat} {rule second : CachingRule}

theorem Dispatches.mem_rules (dispatches : worker.Dispatches request given index rule)
    (compiles : worker.ruleSet.compile = .ok worker.routes) : rule ∈ worker.ruleSet.rules := by
  have decided := dispatches.decided
  rw [decision, CompiledRuleSet.decision] at decided
  split at decided
  · cases decided
  · cases matched : worker.routes.firstMatch request.info with
    | none =>
        rw [matched] at decided
        cases decided
    | some found =>
        rw [matched] at decided
        cases decided
        rw [← RuleSet.rules_of_compile compiles]
        exact CompiledRuleSet.mem_of_firstMatch matched

/-- Nothing that is stored makes a difference to the decision about a request, except what is
precached. -/
theorem Dispatches.of_precache {stores : Stores}
    (same : stores.storage.get? precachePartition =
      worker.stores.storage.get? precachePartition)
    (dispatches : worker.Dispatches request given index rule) :
    { worker with stores }.Dispatches request given index rule where
  active := dispatches.active
  ungiven := dispatches.ungiven
  decided := by
    have precached : ({ worker with stores } : Worker).precached? request.info =
        worker.precached? request.info := by
      simp only [precached?, Storage.precached?, Storage.lookup_congr_get? same]
    rw [← dispatches.decided, decision, decision, precached]

/-- A request that is handed to a rule makes no difference to the decision about another. -/
theorem Dispatches.after (spares : worker.ruleSet.SparesPrecache)
    (compiles : worker.ruleSet.compile = .ok worker.routes)
    (dispatches : worker.Dispatches request given index rule)
    (dispatched : worker.Dispatches following later other second) (environment : Environment ν)
    (signal : Option Signal) (world : ν) :
    (worker.fetch environment request signal given world).2.1.Dispatches following later other
      second := by
  rw [dispatches.fetch_eq]
  apply dispatched.of_precache
  apply Task.storage_run_of_not_visits
  intro visits
  obtain ⟨uses, works⟩ := (rule.visits_dispatch_iff index request signal _).mp visits
  exact spares rule (dispatches.mem_rules compiles) uses works

end Worker

/-- Two requests are handled in either order with the same result, whatever the worker holds: each
has the same outcome, and the same partitions with the same entries and the same queues are left.
The rules that the requests are handed to share neither a cache nor a queue, and no rule has the
precache as its cache. -/
theorem requests_commute {environment : Environment ν} {moment : Moment} {answer : Call → Reply}
    {steady : ν → Prop} (still : environment.Steady moment answer steady) {world : ν}
    (here : steady world) {worker : Worker}
    (compiles : worker.ruleSet.compile = .ok worker.routes)
    (spares : worker.ruleSet.SparesPrecache) {first second : PageRequest} {index other : Nat}
    {rule next : CachingRule} (dispatches : worker.Dispatches first false index rule)
    (dispatched : worker.Dispatches second false other next) (apart : rule.Apart next)
    (signal later : Option Signal) :
    let one := worker.fetch environment first signal false world
    let two := one.2.1.fetch environment second later false one.2.2
    let early := worker.fetch environment second later false world
    let late := early.2.1.fetch environment first signal false early.2.2
    one.1 = late.1 ∧ two.1 = early.1 ∧ two.2.1 = late.2.1 := by
  intro one two early late
  have following := dispatches.after spares compiles dispatched environment signal world
  have preceding := dispatched.after spares compiles dispatches environment later world
  have comm := (apart.dispatch index other first second signal later).run_comm still worker.stores
    here
  simp only [late, two, following.fetch_eq, preceding.fetch_eq, early, one, dispatches.fetch_eq,
    dispatched.fetch_eq] at comm ⊢
  obtain ⟨sameFirst, sameSecond, sameStores⟩ := comm
  exact ⟨sameFirst, sameSecond, by rw [sameStores]⟩

/-- A bench on which nothing is set up anew is steady, unless a signal is about to be given. -/
theorem Bench.steady (bench : Bench) :
    Bench.environment.Steady bench.now (fun call => ⟨bench.origin.answer call, false⟩)
      fun other => other.now = bench.now ∧ other.origin.armed = none ∧
        other.origin.routes = bench.origin.routes ∧
        other.origin.offline = bench.origin.offline where
  now other same := ⟨same.1, same⟩
  fetch call other same := by
    obtain ⟨now, unarmed, routes, offline⟩ := same
    have answer : other.origin.answer call = bench.origin.answer call := by
      rw [Origin.answer, Origin.answer, routes, offline]
    refine ⟨?_, now, rfl, routes, offline⟩
    change Reply.mk (other.origin.answer call) _ = _
    rw [answer, unarmed]
    rfl

/-- A policy under which a form waits to be sent again, and the page that was asked for last is
kept. -/
def RuleSet.formAndPage : RuleSet :=
  { RuleSet.outbox with rules := RuleSet.outbox.rules ++ [.lastPage] }

/-- The new worker of this policy. -/
def Worker.formAndPage : Worker where
  ruleSet := .formAndPage
  routes := ⟨RuleSet.formAndPage.rules.map fun rule => ⟨rule, ⟨rule.matcher, none⟩⟩⟩
  stores := ⟨.empty, emptyQueues [⟨"outbox", 60⟩]⟩
  state := .installing
  skipWaiting := true
  clientsClaimed := false

/-- Without a network, a form is queued and a page that is too old is dropped, in either order. -/
theorem requests_commute_formAndPage :
    let history := Worker.formAndPage.history Bench.environment
      [(.install, .at 0 [] false),
        (.fetch (.onSite "GET" "/a") none false, .at 0 twoPages false)]
    let worker := history.worker
    let bench := Bench.at 66000 twoPages true
    let form := PageRequest.onSite "POST" "/form"
    let page := PageRequest.onSite "GET" "/a"
    let one := worker.fetch Bench.environment form none false bench
    let two := one.2.1.fetch Bench.environment page none false one.2.2
    let early := worker.fetch Bench.environment page none false bench
    let late := early.2.1.fetch Bench.environment form none false early.2.2
    worker.stores.storage.urls "pages" = ["http://localhost/a"] ∧
      two.2.1.stores.storage.urls "pages" = [] ∧
      worker.queueLength "outbox" = 0 ∧ two.2.1.queueLength "outbox" = 1 ∧
      one.1 = late.1 ∧ two.1 = early.1 ∧ two.2.1 = late.2.1 := by
  intro history worker bench form page
  have compiles : worker.ruleSet.compile = .ok worker.routes := rfl
  have spares : worker.ruleSet.SparesPrecache := by
    unfold RuleSet.SparesPrecache
    decide +kernel
  have posted : worker.Dispatches form false 0 RuleSet.outbox.rules[0] :=
    ⟨by decide +kernel, rfl, by decide +kernel⟩
  have asked : worker.Dispatches page false 1 .lastPage :=
    ⟨by decide +kernel, rfl, by decide +kernel⟩
  have apart : CachingRule.Apart RuleSet.outbox.rules[0] .lastPage := {
    caches uses := absurd uses (by decide)
    queues _ _ fills := absurd fills.1 (by decide) }
  have commute := requests_commute bench.steady ⟨rfl, rfl, rfl, rfl⟩ compiles spares posted asked
    apart none none
  exact ⟨by decide +kernel, by decide +kernel, by decide +kernel, by decide +kernel, commute⟩

end CachePolicy
