import CachePolicy.Proofs.Rule.Set
import CachePolicy.Proofs.Worker.Waiting

/-!
# Requests that wait to be sent again

A request that a worker reports as queued waits until a replay removes it, and nothing
else waits: queues neither lose, nor double, nor reorder requests.  A replay removes a
request only once the network has taken it, or because it has waited longer than the
rule that queued it allows.

The main statement is about whole histories, with any number of queues and of rules
that share them.  It rests on one equation for a single operation: what waited before
and is queued by the operation is what the operation removes and what waits afterwards.
-/

namespace CachePolicy

/-! ## What is queued and removed -/

namespace Stage

/-- The request that an operation reports as queued, with the moment from which it
waits. -/
def queued (stage : Stage) (queue : String) : List QueuedRequest :=
  match stage.operation, stage.answer with
  | .fetch request _ _, .fetched (.queued name) =>
    if name = queue then [⟨request, (Observation.moments stage.observed).getLastD 0⟩] else []
  | _, _ => []

/-- The requests that a replay removes from a queue. -/
def removed (stage : Stage) (queue : String) : List QueuedRequest :=
  match stage.operation with
  | .replay => removedOf (stage.before.waiting queue) (stage.after.waiting queue)
  | _ => []

end Stage

namespace History

/-- The requests that a worker has reported as queued, in order. -/
def queued (history : History) (queue : String) : List QueuedRequest :=
  history.stages.flatMap (·.queued queue)

/-- The requests that replays have removed from a queue, in order. -/
def removed (history : History) (queue : String) : List QueuedRequest :=
  history.stages.flatMap (·.removed queue)

end History

/-! ## The queues of a rule set -/

namespace Worker

/-- The queues of a worker are those that the rules name, each of them once. -/
structure QueuesOf (ruleSet : RuleSet) (worker : Worker) : Prop where
  mem_iff : ∀ queue, queue ∈ worker.queues ↔ queue ∈ ruleSet.replayQueues
  nodup : (worker.queues.map (·.name)).Nodup

/-- The worker has the rules of a compiled set, and under each name the first queue that
they name so. -/
structure Equipped (ruleSet : RuleSet) (compiled : CompiledRuleSet) (worker : Worker) : Prop
    where
  routes : worker.routes = compiled
  settings : ∀ name,
    worker.stores.settings name = ruleSet.replayQueues.find? (·.name == name)

theorem get?_emptyQueues (queues : List ReplayQueue) (name : String) :
    (emptyQueues queues).get? name = (queues.find? (·.name == name)).map .new := by
  have general (map : SortedMap String WaitingQueue) :
      (queues.foldl (fun map queue =>
        if map.contains queue.name then map else map.insert queue.name (.new queue)) map).get?
          name = (map.get? name).or ((queues.find? (·.name == name)).map .new) := by
    induction queues generalizing map with
    | nil => simp
    | cons queue rest ih =>
        rw [List.foldl_cons, ih, List.find?_cons]
        by_cases same : queue.name = name
        · subst same
          cases present : map.get? queue.name with
          | none => simp [SortedMap.contains, present]
          | some state => simp [SortedMap.contains, present]
        · have differs : (queue.name == name) = false := beq_false_of_ne same
          by_cases present : map.contains queue.name
          · simp [present, differs]
          · simp [present, differs, Ne.symm same]
  rw [emptyQueues, general]
  simp

theorem equipped_of_new {ruleSet : RuleSet} {start : Worker}
    (created : Worker.new ruleSet = .ok start) :
    ∃ compiled, ruleSet.compile = .ok compiled ∧ start.Equipped ruleSet compiled ∧
      ∀ name, start.waiting name = [] := by
  obtain ⟨compiled, compiles, rfl⟩ := eq_of_new created
  refine ⟨compiled, compiles, ⟨rfl, ?_⟩, ?_⟩
  · intro name
    simp only [Stores.settings, get?_emptyQueues]
    cases ruleSet.replayQueues.find? (·.name == name) <;> rfl
  · intro name
    simp only [waiting, Stores.waiting, get?_emptyQueues]
    cases ruleSet.replayQueues.find? (·.name == name) <;> rfl

namespace Equipped

variable {ruleSet : RuleSet} {compiled : CompiledRuleSet} {worker : Worker}

theorem name_config (equipped : worker.Equipped ruleSet compiled)
    {named : String × WaitingQueue} (member : named ∈ worker.stores.queues.pairs) :
    named.2.config.name = named.1 := by
  have settings := equipped.settings named.1
  rw [Stores.settings, SortedMap.mem_pairs_iff.mp member] at settings
  simpa using List.find?_some settings.symm

/-- A worker with the rules of a compiled set has just their queues. -/
theorem queuesOf (equipped : worker.Equipped ruleSet compiled)
    (compiles : ruleSet.compile = .ok compiled) : worker.QueuesOf ruleSet where
  mem_iff queue := by
    constructor
    · intro member
      obtain ⟨⟨name, state⟩, found, rfl⟩ := List.mem_map.mp member
      have settings := equipped.settings name
      rw [Stores.settings, SortedMap.mem_pairs_iff.mp found] at settings
      exact List.mem_of_find?_eq_some settings.symm
    · intro member
      have settings := equipped.settings queue.name
      rw [RuleSet.find?_replayQueues compiles member, Stores.settings] at settings
      obtain ⟨state, found, rfl⟩ := Option.map_eq_some_iff.mp settings
      exact List.mem_map.mpr ⟨_, SortedMap.mem_pairs_iff.mpr found, rfl⟩
  nodup := by
    have names : worker.queues.map (·.name) = worker.stores.queues.keys := by
      rw [queues, List.map_map, SortedMap.keys]
      exact List.map_congr_left fun named member => equipped.name_config member
    rw [names]
    exact worker.stores.queues.nodup_keys

/-- The settings of queues are all that counts of a worker besides its rules. -/
theorem of_settings {other : Worker} (equipped : worker.Equipped ruleSet compiled)
    (routes : other.routes = worker.routes)
    (settings : ∀ name, other.stores.settings name = worker.stores.settings name) :
    other.Equipped ruleSet compiled where
  routes := routes.trans equipped.routes
  settings name := (settings name).trans (equipped.settings name)

end Equipped

end Worker

/-! ## One operation -/

namespace Stage

/-- What an operation does to the queues.

A request is reported as queued only if the network did not take it, and then by a rule
of the set that names the queue; the network was asked once, and the page had not given
up on the request before or meanwhile.

A replay looks at the clock once.  It removes a first part of every queue, sends, queue
by queue, the requests that it removes and that are not overdue, and the first request
that stays, and accounts for all requests in its report. -/
structure Syncs (ruleSet : RuleSet) (stage : Stage) : Prop where
  queues : stage.before.QueuesOf ruleSet
  queued : ∀ request signal given name, stage.operation = .fetch request signal given →
    stage.answer = .fetched (.queued name) →
    given = false ∧ ∃ index rule moment, ruleSet.rules[index]? = some rule ∧
      stage.before.routes.firstMatch request.info = some (index, rule) ∧
      rule.Queues request signal name moment stage.observed
  replayed : stage.operation = .replay → ∃ now learned report,
    stage.observed = .clock now :: learned ∧ stage.answer = .replayed report ∧
    Observation.moments learned = [] ∧
    (∀ queue, stage.before.waiting queue = stage.removed queue ++ stage.after.waiting queue) ∧
    Observation.attempts learned = (stage.before.queues.flatMap fun queue =>
      queue.sent now (stage.removed queue.name) (stage.after.waiting queue.name)) ∧
    report.delivered + report.dropped + report.remaining =
      (stage.before.queues.map fun queue => (stage.before.waiting queue.name).length).sum

end Stage

theorem Stage.queued_eq_nil {stage : Stage}
    (other : ∀ name, stage.answer ≠ .fetched (.queued name)) (queue : String) :
    stage.queued queue = [] := by
  rw [Stage.queued]
  split
  next name _ answer => exact absurd answer (other name)
  next => rfl

/-- What an operation does to the queues, and what it leaves for those after it: what
waited before and is queued by the operation is what the operation removes and what
waits afterwards. -/
structure Stage.Conserves (ruleSet : RuleSet) (compiled : CompiledRuleSet) (stage : Stage) :
    Prop where
  syncs : stage.Syncs ruleSet
  after : stage.after.Equipped ruleSet compiled
  balance : ∀ queue, stage.before.waiting queue ++ stage.queued queue =
    stage.removed queue ++ stage.after.waiting queue

namespace Worker.Equipped

variable {ruleSet : RuleSet} {compiled : CompiledRuleSet} {worker : Worker}
variable (environment : Environment ν) (world : ν)

/-- An operation that leaves the queues alone, and says so, conserves what waits. -/
theorem conserves_silent {operation : Operation} (noReplay : operation ≠ .replay)
    (unreported : ∀ name,
      (worker.stage environment operation world).answer ≠ .fetched (.queued name))
    (queues : (worker.stage environment operation world).after.stores.queues =
      worker.stores.queues)
    (compiles : ruleSet.compile = .ok compiled) (equipped : worker.Equipped ruleSet compiled) :
    (worker.stage environment operation world).Conserves ruleSet compiled := by
  have routes := (worker.rules_stage environment operation world).2
  refine ⟨⟨equipped.queuesOf compiles, ?_, ?_⟩, ?_, ?_⟩
  · intro request signal given name _ reported
    exact absurd reported (unreported name)
  · intro replays
    exact absurd replays noReplay
  · exact equipped.of_settings routes fun name => by simp only [Stores.settings, queues]
  · intro queue
    have removed : (worker.stage environment operation world).removed queue = [] := by
      cases operation with
      | replay => exact absurd rfl noReplay
      | install | message data | activate | fetch request signal given | sweep => rfl
    rw [Stage.queued_eq_nil unreported, removed, List.append_nil, List.nil_append]
    simp only [waiting, Stores.waiting, queues]
    rfl

/-- What a request adds to a queue is what it reports as queued. -/
theorem conserves_queued {request : PageRequest} {signal : Option Signal} {index : Nat}
    {rule : CachingRule} {name : String} {moment : Moment}
    (compiles : ruleSet.compile = .ok compiled) (equipped : worker.Equipped ruleSet compiled)
    (matched : worker.routes.firstMatch request.info = some (index, rule))
    (answer : (worker.stage environment (.fetch request signal false) world).answer =
      .fetched (.queued name))
    (after : (worker.stage environment (.fetch request signal false) world).after =
      { worker with stores := worker.stores.enqueue name request moment })
    (queues : rule.Queues request signal name moment
      (worker.stage environment (.fetch request signal false) world).observed) :
    (worker.stage environment (.fetch request signal false) world).Conserves ruleSet
      compiled := by
  obtain ⟨queue, replayQueue, rfl⟩ := queues.named
  have declared : queue ∈ ruleSet.replayQueues := by
    have member := CompiledRuleSet.mem_of_firstMatch matched
    rw [equipped.routes, RuleSet.rules_of_compile compiles] at member
    exact List.mem_filterMap.mpr ⟨rule, member, replayQueue⟩
  have place : ruleSet.rules[index]? = some rule := by
    rw [← RuleSet.rules_of_compile compiles, ← equipped.routes]
    exact CompiledRuleSet.getElem?_of_firstMatch matched
  refine ⟨⟨equipped.queuesOf compiles, ?_, ?_⟩, ?_, ?_⟩
  · intro _ _ _ name fetches reported
    cases fetches
    rw [answer] at reported
    cases reported
    exact ⟨rfl, index, rule, moment, place, matched, queues⟩
  · intro replays
    cases replays
  · rw [after]
    exact equipped.of_settings rfl fun other => Stores.settings_enqueue ..
  · intro other
    have known : (worker.stores.settings queue.name).isSome := by
      rw [equipped.settings, RuleSet.find?_replayQueues compiles declared]
      rfl
    obtain ⟨reply, error, -, -, -, observed⟩ := queues.failed
    rw [after]
    simp only [Worker.waiting, Stores.waiting_enqueue _ _ _ _ _ known]
    simp only [Stage.queued, answer, observed]
    rfl

theorem conserves_fetch (request : PageRequest) (signal : Option Signal) (given : Bool)
    (compiles : ruleSet.compile = .ok compiled) (equipped : worker.Equipped ruleSet compiled) :
    (worker.stage environment (.fetch request signal given) world).Conserves ruleSet
      compiled := by
  rcases worker.handle_queues environment request signal given world with ⟨queues, silent⟩ |
    ⟨index, rule, name, moment, rfl, matched, outcome, stores, queued⟩
  · refine equipped.conserves_silent environment world ?_ ?_ queues compiles
    · intro same
      cases same
    · intro name reported
      exact silent name (Answer.fetched.inj reported)
  · refine equipped.conserves_queued environment world compiles matched ?_ ?_ queued
    · exact congrArg Answer.fetched outcome
    · exact congrArg (fun stores => { worker with stores }) stores

theorem waiting_eq {named : String × WaitingQueue}
    (member : named ∈ worker.stores.queues.pairs) :
    worker.waiting named.1 = named.2.waiting := by
  rw [waiting, Stores.waiting, SortedMap.mem_pairs_iff.mp member]
  rfl

/-- In a replay every queue keeps its settings, and of its requests a last part. -/
theorem exists_removed {now : Moment} {queues : List (String × WaitingQueue)}
    {learned : List Observation} {report : ReplayReport}
    (replays : ReplaysAll now worker.stores.queues.pairs queues learned report) (name : String) :
    let after : Worker := { worker with stores.queues := worker.stores.queues.insertAll queues }
    after.stores.settings name = worker.stores.settings name ∧
      after.waiting name = ReplaysAll.waitingIn queues name ∧
      ∃ removed, worker.waiting name = removed ++ after.waiting name := by
  intro after
  have distinct : (queues.map (·.1)).Nodup := by
    rw [replays.names]
    exact worker.stores.queues.nodup_keys
  have state : after.stores.queues.get? name =
      (queues.lookup name).or (worker.stores.queues.get? name) :=
    SortedMap.get?_insertAll distinct worker.stores.queues name
  rcases replays.lookup name with ⟨absent, absentAfter⟩ | ⟨queue, removed, left, present, parts,
    presentAfter⟩
  · have missing : worker.stores.queues.get? name = none := absent
    have gone : after.stores.queues.get? name = none := by rw [state, absentAfter, missing]; rfl
    refine ⟨?_, ?_, [], ?_⟩
    · simp only [Stores.settings, gone, missing]
    · simp [waiting, Stores.waiting, ReplaysAll.waitingIn, gone, absentAfter]
    · simp only [waiting, Stores.waiting, gone, missing, List.nil_append]
  · have found : worker.stores.queues.get? name = some queue := present
    have kept : after.stores.queues.get? name = some { queue with waiting := left } := by
      rw [state, presentAfter]
      rfl
    refine ⟨?_, ?_, removed, ?_⟩
    · simp only [Stores.settings, kept, found, Option.map_some]
    · simp [waiting, Stores.waiting, ReplaysAll.waitingIn, kept, presentAfter]
    · simp [waiting, Stores.waiting, kept, found, parts]

theorem conserves_replay (compiles : ruleSet.compile = .ok compiled)
    (equipped : worker.Equipped ruleSet compiled) :
    (worker.stage environment .replay world).Conserves ruleSet compiled := by
  obtain ⟨report, queues, learned, replays, staged⟩ :=
    worker.exists_stage_replay environment world
  rw [staged]
  have kept (name : String) := exists_removed replays name
  have parts (name : String) : worker.waiting name =
      removedOf (worker.waiting name)
        (Worker.waiting { worker with stores.queues := worker.stores.queues.insertAll queues }
          name) ++
        Worker.waiting { worker with stores.queues := worker.stores.queues.insertAll queues }
          name := by
    obtain ⟨-, -, removed, before⟩ := kept name
    rw [before, removedOf_append]
  refine ⟨⟨equipped.queuesOf compiles, ?_, ?_⟩, ?_, ?_⟩
  · intro request signal given name fetches
    cases fetches
  · intro _
    refine ⟨_, learned, report, rfl, rfl, replays.untimed, parts, ?_, ?_⟩
    · rw [replays.attempts worker.stores.queues.nodup_keys, Worker.queues, List.flatMap_map]
      apply List.flatMap_congr
      intro named member
      obtain ⟨-, after, -⟩ := kept named.1
      rw [equipped.name_config member, Stage.removed, after, waiting_eq member]
    · rw [replays.total, Worker.queues, List.map_map]
      congr 1
      apply List.map_congr_left
      intro named member
      rw [Function.comp_apply, equipped.name_config member, waiting_eq member]
  · exact equipped.of_settings rfl fun name => (kept name).1
  · intro name
    exact (List.append_nil _).trans (parts name)

/-- Every operation conserves what waits. -/
theorem conserves (operation : Operation) (compiles : ruleSet.compile = .ok compiled)
    (equipped : worker.Equipped ruleSet compiled) :
    (worker.stage environment operation world).Conserves ruleSet compiled := by
  cases operation with
  | fetch request signal given =>
      exact equipped.conserves_fetch environment world request signal given compiles
  | replay => exact equipped.conserves_replay environment world compiles
  | install | message data | activate | sweep =>
      refine equipped.conserves_silent environment world ?_ ?_ ?_ compiles
      · intro same
        cases same
      · intro name same
        cases same
      · apply queues_stage
        · intro _ _ _ same
          cases same
        · intro same
          cases same

end Worker.Equipped

/-! ## Histories -/

/-- Background synchronisation loses, doubles and reorders nothing.  Whatever the network
and the clock do, the requests that a worker has reported as queued are, in order, those
that replays have removed and those that still wait.

Every operation syncs with the queues that the rules name: only a request that the
network did not take is queued, by a rule that names the queue, and a removed request has
been sent once and taken, or was overdue and was not sent. -/
theorem queued_eq_removed_append_waiting {ruleSet : RuleSet} {start : Worker}
    (created : Worker.new ruleSet = .ok start) (environment : Environment ν)
    (steps : List (Operation × ν)) :
    let history := start.history environment steps
    (∀ queue, history.queued queue =
      history.removed queue ++ history.worker.waiting queue) ∧
      ∀ stage ∈ history.stages, stage.Syncs ruleSet := by
  obtain ⟨compiled, compiles, equipped, empty⟩ := Worker.equipped_of_new created
  refine (Worker.history_induction environment start
    (motive := fun history => history.worker.Equipped ruleSet compiled ∧
      (∀ queue, history.queued queue =
        history.removed queue ++ history.worker.waiting queue) ∧
      ∀ stage ∈ history.stages, stage.Syncs ruleSet) ?_ ?_ steps).2
  · refine ⟨equipped, fun queue => (empty queue).symm, ?_⟩
    intro stage member
    exact absurd member List.not_mem_nil
  · rintro past operation world ⟨ready, conserved, synced⟩
    have stage := ready.conserves environment world operation compiles
    refine ⟨stage.after, ?_, ?_⟩
    · intro queue
      calc
        (past.extend environment operation world).queued queue
          = past.queued queue ++
              (past.worker.stage environment operation world).queued queue := by
            simp [History.queued]
        _ = past.removed queue ++ (past.worker.waiting queue ++
              (past.worker.stage environment operation world).queued queue) := by
            rw [conserved queue, List.append_assoc]
        _ = past.removed queue ++ ((past.worker.stage environment operation world).removed queue ++
              (past.worker.stage environment operation world).after.waiting queue) :=
            congrArg (past.removed queue ++ ·) (stage.balance queue)
        _ = (past.extend environment operation world).removed queue ++
              (past.extend environment operation world).worker.waiting queue := by
            simp [History.removed]
    · rw [History.forall_stages_extend]
      exact ⟨synced, stage.syncs⟩

/-- A policy under which requests by `POST` wait for an hour. -/
def RuleSet.outbox : RuleSet where
  lifecycle := ⟨true, true, true⟩
  includeBuildManifest := false
  precache := .empty
  rules := [{
    origin := .backgroundSync
    matcher := .method "POST"
    strategy := .networkOnly
    replayQueue := some ⟨"outbox", 60⟩ }]

/-- Two forms are sent while the network is cut off; one is sent again in time, and the
other too late. -/
def outboxSteps : List (Operation × Bench) :=
  [(.install, .at 0 [] false),
    (.fetch (.onSite "POST" "/late") none false, .at 5 [] true),
    (.fetch (.onSite "POST" "/form") none false, .at 2000000 [] true),
    (.replay, .at 4000000 [] false)]

/-- Both forms were queued, and none of them waits any longer. -/
theorem queued_eq_removed_append_waiting_outbox :
    ∃ start, Worker.new RuleSet.outbox = .ok start ∧
      let history := start.history Bench.environment outboxSteps
      (history.queued "outbox").length = 2 ∧ (history.removed "outbox").length = 2 ∧
        history.queued "outbox" =
          history.removed "outbox" ++ history.worker.waiting "outbox" := by
  have created : Worker.new RuleSet.outbox = .ok _ := rfl
  refine ⟨_, created, by decide +kernel, by decide +kernel, ?_⟩
  exact (queued_eq_removed_append_waiting created Bench.environment outboxSteps).1 "outbox"

end CachePolicy
