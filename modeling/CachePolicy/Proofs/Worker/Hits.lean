import CachePolicy.Proofs.Worker.Caches
import CachePolicy.Proofs.Worker.Recency

/-!
# When a request is answered from a cache

A rule that looks into its cache first answers from there just when the last response
for the URL is held: it was stored at some time before, is not too old, and was not
followed by responses for too many other URLs.  Otherwise it asks the network once.

Whatever else has happened, to this partition or to others, makes no difference.
-/

namespace CachePolicy

@[simp] theorem Observation.exchanges_map_clock (moments : List Moment) :
    Observation.exchanges (moments.map .clock) = [] := by
  induction moments with
  | nil => rfl
  | cons moment rest ih => rw [List.map_cons, exchanges_clock, ih]

/-- A look-up finds a response just when it is there and not too old. -/
theorem Stores.find_eq_some_iff (environment : Environment ν) (partition href : String)
    (bounds : Option Expiration) (stores : Stores) (world : ν) (response : Response) :
    (stores.find environment partition href bounds world).1 = some response ↔
      ∃ entry, stores.storage.lookup partition href = some entry ∧ entry.response = response ∧
        ∀ limits, bounds = some limits →
          limits.isFresh (environment.now world).1 entry = true := by
  rw [find]
  cases stores.storage.lookup partition href with
  | none => simp
  | some entry =>
      cases bounds with
      | none => simp
      | some limits =>
          simp only
          by_cases fresh : limits.isFresh (environment.now world).1 entry
          · simp [fresh]
          · simp [fresh]

namespace Task

variable (environment : Environment ν)

/-- To store a response is no exchange with the network. -/
theorem exists_run_store (partition href : String) (response : Response)
    (bounds : Option Expiration) (result : α) (stores : Stores) (world : ν)
    (seen : List Observation) :
    ∃ (after : Stores) (later : ν) (moments : List Moment),
      (Task.store partition href response bounds (.done result)).run environment.recorded
        (stores, world, seen) =
          (result, after, later, seen ++ moments.map Observation.clock) := by
  cases complete : response.isCacheable with
  | false =>
      rw [store_of_not_isCacheable _ _ _ complete]
      exact ⟨stores, world, [], by simp [run]⟩
  | true =>
      rw [run_store_of_isCacheable _ _ _ _ _ _ complete]
      exact ⟨_, _, [(environment.now world).1], rfl⟩

end Task

/-- A rule that looks into its cache first answers with what it finds there, and else
asks the network once. -/
theorem CachingRule.run_cacheFirst (environment : Environment ν) (index : Nat)
    {rule : CachingRule} (strategy : rule.strategy = .cacheFirst) (request : PageRequest)
    (signal : Option Signal) (stores : Stores) (world : ν) :
    let ran := (rule.dispatch index request signal).run environment.recorded (stores, world, [])
    match (stores.find environment.recorded rule.workingPartition request.href
      rule.effectiveExpiration (world, [])).1 with
    | some response => ran.1 = .response response .cache (some index) ∧
        Observation.exchanges ran.2.2.2 = []
    | none => (∀ response, ran.1 ≠ .response response .cache (some index)) ∧
        ∃ reply, Observation.exchanges ran.2.2.2 = [(⟨request, none, signal⟩, reply)] := by
  intro ran
  obtain ⟨found, moments, middle, later, -, looked⟩ :=
    stores.exists_find_recorded environment rule request.href world []
  have start : ran = (rule.dispatch index request signal).run environment.recorded
      (stores, world, []) := rfl
  rw [dispatch, strategy] at start
  simp only [Task.run_cached, looked] at start
  rw [looked]
  cases found with
  | some response =>
      rw [start]
      exact ⟨rfl, by simp [served, Task.run]⟩
  | none =>
      simp only [Task.run, Environment.recorded_fetch] at start
      generalize environment.fetch ⟨request, none, signal⟩ later = answered at start
      obtain ⟨reply, last⟩ := answered
      cases settled : reply.settled with
      | error error =>
          simp only [settled, failed, Task.run] at start
          rw [start]
          refine ⟨?_, reply, by simp⟩
          intro response same
          cases same
      | ok response =>
          simp only [settled, served] at start
          obtain ⟨after, final, times, stored⟩ := Task.exists_run_store environment
            rule.workingPartition request.href response rule.effectiveExpiration
            (Outcome.response response .network (some index)) (stores.withStorage middle) last
            ([] ++ moments.map .clock ++ [.exchange ⟨request, none, signal⟩ reply])
          rw [stored] at start
          rw [start]
          refine ⟨?_, reply, by simp⟩
          intro response same
          cases same

/-- The law of hits.  Consider a request that an activated worker has a rule answer from
its cache first, at a moment not before any that the clock has shown.  The answer comes
from the cache, and then without the network, just when a response for the URL is held:
some earlier request stored it in the partition of the rule, none has stored another one
for the URL since, it is not too old, and of other URLs fewer than the bound allows have
been stored since.  Otherwise the network is asked for the request, once. -/
theorem answered_from_cache_iff_held {ruleSet : RuleSet} {start : Worker}
    (created : Worker.new ruleSet = .ok start) (orderly : ruleSet.Orderly)
    (environment : Environment ν) (steps : List (Operation × ν)) {history : History}
    (ran : start.history environment steps = history)
    (active : history.worker.state = .activated) (request : PageRequest)
    (signal : Option Signal) {index : Nat} {rule : CachingRule}
    (decided : history.worker.decision request.info = .rule index rule)
    (strategy : rule.strategy = .cacheFirst) (world : ν)
    (ordered : (history.moments ++ [(environment.now world).1]).Pairwise (· ≤ ·)) :
    let stage := history.worker.stage environment (.fetch request signal false) world
    let held := Held rule.effectiveExpiration (storedIn history.deposits rule.workingPartition)
      (environment.now world).1 request.href
    (∀ response, stage.answer = .fetched (.response response .cache (some index)) ↔
        held response) ∧
      ((∃ response, held response) → Observation.exchanges stage.observed = []) ∧
      ((∀ response, ¬ held response) →
        ∃ reply, Observation.exchanges stage.observed = [(⟨request, none, signal⟩, reply)]) := by
  intro stage held
  have keeps : history.worker.Keeps ruleSet history.moments history.deposits := by
    rw [← ran]
    exact Worker.keeps_history created orderly environment steps
  have carried := history.worker.run_handle_of_decision request signal environment.recorded
    (world, []) active
  rw [decided] at carried
  obtain ⟨matched, handled⟩ := carried
  have member : rule ∈ ruleSet.rules := by
    rw [← keeps.routes]
    exact CompiledRuleSet.mem_of_firstMatch matched
  have uses : rule.strategy.usesCache = true := by rw [strategy]; rfl
  obtain ⟨stored, kept, same⟩ := keeps.storage.kept rule.workingPartition
  rw [same (orderly.workingPartition_ne member uses), ← orderly.bounds_eq member uses] at kept
  -- A look-up finds just the response that is held.
  have found (response : Response) :
      (history.worker.stores.find environment.recorded rule.workingPartition request.href
        rule.effectiveExpiration (world, [])).1 = some response ↔ held response :=
    (Stores.find_eq_some_iff ..).trans (kept.find?_iff_held ordered request.href response)
  have dispatched := rule.run_cacheFirst environment index strategy request signal
    history.worker.stores world
  rw [← handled] at dispatched
  have answer : stage.answer = .fetched ((history.worker.handle request signal false).run
      environment.recorded (history.worker.stores, world, [])).1 := rfl
  have observed : stage.observed = ((history.worker.handle request signal false).run
      environment.recorded (history.worker.stores, world, [])).2.2.2 := rfl
  rw [answer, observed]
  cases looked : (history.worker.stores.find environment.recorded rule.workingPartition
    request.href rule.effectiveExpiration (world, [])).1 with
  | some hit =>
      rw [looked] at dispatched
      obtain ⟨outcome, silent⟩ := dispatched
      refine ⟨?_, fun _ => silent, ?_⟩
      · intro response
        rw [← found, looked, outcome]
        simp
      · intro none
        exact absurd ((found hit).mp looked) (none hit)
  | none =>
      rw [looked] at dispatched
      obtain ⟨outcome, asked⟩ := dispatched
      have missed (response : Response) : ¬ held response := by
        rw [← found, looked]
        simp
      refine ⟨?_, ?_, fun _ => asked⟩
      · intro response
        simp [missed, outcome]
      · rintro ⟨response, present⟩
        exact absurd present (missed response)

/-- A page is asked for, and a sweep finds it just fresh enough. -/
def firstVisit : List (Operation × Bench) :=
  [(.install, .at 0 twoPages false),
    (.fetch (.onSite "GET" "/a") none false, .at 5000 twoPages false),
    (.sweep, .at 65000 twoPages false)]

/-- At the end of the minute the page still comes from the cache. -/
theorem answered_from_cache_lastPage :
    let history := Worker.lastPage.history Bench.environment firstVisit
    let stage := history.worker.stage Bench.environment
      (.fetch (.onSite "GET" "/a") none false) (.at 65000 twoPages false)
    stage.answer = .fetched (.response (.ok ByteArray.empty) .cache (some 0)) ∧
      Observation.exchanges stage.observed = [] := by
  have decided : (Worker.lastPage.history Bench.environment firstVisit).worker.decision
      (PageRequest.onSite "GET" "/a").info = .rule 0 .lastPage := by decide +kernel
  have law := answered_from_cache_iff_held Worker.new_lastPage RuleSet.orderly_lastPage
    Bench.environment firstVisit rfl (by decide +kernel) (.onSite "GET" "/a") none decided rfl
    (.at 65000 twoPages false) (by decide +kernel)
  have held : Held CachingRule.lastPage.effectiveExpiration
      [⟨"http://localhost/a", .ok ByteArray.empty, 5000⟩] 65000 "http://localhost/a"
      (.ok ByteArray.empty) := by
    refine ⟨[], _, [], rfl, rfl, rfl, by simp, ?_, ?_⟩
    · intro limits seconds bounded aged
      cases bounded
      cases aged
      decide
    · intro limits most bounded limit
      cases bounded
      cases limit
      decide
  have stored : storedIn (Worker.lastPage.history Bench.environment firstVisit).deposits
      CachingRule.lastPage.workingPartition =
        [⟨"http://localhost/a", .ok ByteArray.empty, 5000⟩] := by
    decide +kernel
  rw [← stored] at held
  exact ⟨(law.1 _).mpr held, law.2.1 ⟨_, held⟩⟩

end CachePolicy
