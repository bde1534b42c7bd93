import CachePolicy.Proofs.Policy.Acceptance
import CachePolicy.Proofs.Rule.Method
import CachePolicy.Proofs.Worker.Conduct

/-!
# Where cached answers come from

What a worker holds was once answered by the network.  `CachedEntry.Fetched` says so of an
entry: among what was learned is a call for its URL, and the response is what the network
gave.  Every operation keeps this, so an answer from a cache has been fetched for the same
URL before.

It need not have been fetched by the same method.  Entries are found by their URL alone, and
rules for different methods may share a cache, so the method of the earlier request is one
of those for which the cache is filled, which settles it only if there is one.
-/

namespace CachePolicy

/-- The first rule that takes a request sees requests of its method. -/
theorem CompiledRuleSet.routeMethod_of_firstMatch {compiled : CompiledRuleSet} {request : Request}
    {index : Nat} {rule : CachingRule}
    (matched : compiled.firstMatch request = some (index, rule)) :
    rule.routeMethod = request.method := by
  obtain ⟨route, -, rfl, takes, -⟩ := firstMatch_eq_some_iff.mp matched
  rw [CompiledRule.takes, Bool.and_eq_true, beq_iff_eq] at takes
  exact takes.1

/-- Responses to requests of a method may be stored in a partition: ahead of all requests,
or by a rule that works on it. -/
def RuleSet.Fills (ruleSet : RuleSet) (partition method : String) : Prop :=
  (partition = precachePartition ∧ method = "GET") ∨
    ∃ rule ∈ ruleSet.rules, rule.strategy.writesCache = true ∧
      rule.workingPartition = partition ∧ rule.routeMethod = method

/-- The network has given the response of an entry in answer to a call for its URL, of a
method for which the partition is filled. -/
def CachedEntry.Fetched (ruleSet : RuleSet) (partition : String) (observed : List Observation)
    (entry : CachedEntry) : Prop :=
  ∃ call reply, (call, reply) ∈ Observation.exchanges observed ∧
    reply.result = .ok entry.response ∧ call.request.href = entry.url ∧
    ruleSet.Fills partition call.request.info.method

theorem CachedEntry.Fetched.mono {ruleSet : RuleSet} {partition : String}
    {observed more : List Observation} {entry : CachedEntry}
    (fetched : entry.Fetched ruleSet partition observed)
    (included : Observation.exchanges observed ⊆ Observation.exchanges more) :
    entry.Fetched ruleSet partition more := by
  obtain ⟨call, reply, present, facts⟩ := fetched
  exact ⟨call, reply, included present, facts⟩

theorem Reply.result_of_settled_ok {reply : Reply} {response : Response}
    (settled : reply.settled = .ok response) : reply.result = .ok response := by
  rw [Reply.settled] at settled
  split at settled
  · cases settled
  · exact settled

/-! ## Requests -/

namespace Worker

variable (environment : Environment ν) (worker : Worker) (request : PageRequest)
variable (signal : Option Signal) (given : Bool) (world : ν)

/-- What a worker does about a request, and what it learns and stores and answers by that. -/
theorem exists_actions_of_fetch :
    let stage := worker.stage environment (.fetch request signal given) world
    ∃ actions outcome, stage.answer = .fetched outcome ∧
      stage.observed = actions.filterMap Action.observation? ∧
      stage.after.stores.storage = worker.stores.storage.after actions ∧
      worker.stores.storage.Tells actions ∧
      Task.Keeps (worker.Allows request) [] actions ∧ worker.Answers request actions outcome := by
  intro stage
  let task := worker.handle request signal given
  have learned := task.recorded_run environment worker.stores world []
  have kept := (worker.abides_handle request signal given).run environment.recorded worker.stores
    (world, [])
  rw [List.nil_append] at learned kept
  exact ⟨_, _, rfl, learned, task.storage_run environment.recorded worker.stores (world, []),
    task.tells_actions environment.recorded worker.stores (world, []), kept⟩

variable {environment worker request signal given world}

/-- What a request leaves in a partition was there before or is fetched by it. -/
theorem fetched_of_fetch {ruleSet : RuleSet} (routes : worker.routes.rules = ruleSet.rules)
    {partition : String} {entry : CachedEntry}
    (member : entry ∈ (worker.stage environment (.fetch request signal given)
      world).after.stores.storage.entries partition) :
    entry ∈ worker.stores.storage.entries partition ∨ entry.Fetched ruleSet partition
      (worker.stage environment (.fetch request signal given) world).observed := by
  obtain ⟨actions, outcome, -, learned, stored, -, keeps, -⟩ :=
    worker.exists_actions_of_fetch environment request signal given world
  rw [stored] at member
  rcases Storage.mem_entries_after member with old | new
  · exact .inl old
  · right
    obtain ⟨before, later, rfl, allowed⟩ := keeps.lawful new
    rw [List.nil_append] at allowed
    obtain ⟨index, rule, timeout, signal, reply, matched, writes, rfl, named, asked, settled⟩ :=
      allowed.put
    have listed := CompiledRuleSet.mem_of_firstMatch matched
    rw [routes] at listed
    have method := CompiledRuleSet.routeMethod_of_firstMatch matched
    refine ⟨⟨request, timeout, signal⟩, reply, ?_, Reply.result_of_settled_ok settled, named.symm,
      .inr ⟨rule, listed, writes, rfl, method⟩⟩
    rw [learned, Action.mem_exchanges]
    exact List.mem_append_left _ asked

/-- An answer from a cache is that of an entry which was there before the request, in the
cache of the first rule that takes it. -/
theorem exists_entry_of_answer {response : Response} {source : Option Nat}
    (answered : (worker.stage environment (.fetch request signal given) world).answer =
      .fetched (.response response .cache source)) :
    ∃ index rule, source = some index ∧
      worker.routes.firstMatch request.info = some (index, rule) ∧
      ∃ entry ∈ worker.stores.storage.entries rule.workingPartition,
        entry.url = request.href ∧ entry.response = response := by
  obtain ⟨actions, outcome, same, -, -, tells, keeps, answers⟩ :=
    worker.exists_actions_of_fetch environment request signal given world
  rw [answered] at same
  cases same
  obtain ⟨index, rule, matched, answers⟩ := answers response source rfl
  obtain ⟨rfl, entry, looked, answer⟩ := answers response source rfl
  obtain ⟨before, later, rfl, allowed⟩ := keeps.lawful looked
  have found := (Storage.tells_append.mp tells).2.1
  have present := List.mem_of_find?_eq_some found.symm
  have named : entry.url = request.href := by simpa using List.find?_some found.symm
  refine ⟨index, rule, rfl, matched, entry, ?_, named, answer⟩
  rcases Storage.mem_entries_after present with old | new
  · exact old
  · exact absurd new (allowed.lookup rule.workingPartition entry)

/-! ## Other operations -/

theorem method_of_get {url : String} (read : PageRequest.get url = .ok request) :
    request.info.method = "GET" := by
  have upper : Text.upper "GET" = "GET" := by decide +kernel
  rw [PageRequest.get, bind_eq_ok_iff] at read
  obtain ⟨info, read, same⟩ := read
  cases same
  exact (Request.method_of_read read).trans upper

/-- What is stored ahead was there before or is fetched ahead. -/
theorem fetched_of_precaching {ruleSet : RuleSet} {entries : List PrecacheEntry}
    {storage after : Storage} {learned : List Observation} {result : Except WorkerError Unit}
    (precaching : Precaching entries storage learned result after) {partition : String}
    {entry : CachedEntry} (member : entry ∈ after.entries partition) :
    entry ∈ storage.entries partition ∨ entry.Fetched ruleSet partition learned := by
  induction precaching with
  | finished | unread | unanswered | incomplete => exact .inl member
  | stored read answered complete moment precaching ih =>
      rcases ih member with before | new
      · have put := Storage.mem_entries_apply (.put precachePartition ⟨_, _, moment⟩) before
        rcases put with old | same
        · exact .inl old
        · cases same
          exact .inr ⟨_, _, List.mem_cons_self, answered, rfl, .inl ⟨rfl, method_of_get read⟩⟩
      · right
        apply new.mono
        simp

/-- Activation stores nothing. -/
theorem mem_entries_of_activated {worker : Worker} {partition : String} {entry : CachedEntry}
    (member : entry ∈ worker.activated.stores.storage.entries partition) :
    entry ∈ worker.stores.storage.entries partition := by
  change entry ∈ (worker.outdated.foldl Storage.deletePartition
    worker.stores.storage).entries partition at member
  generalize worker.stores.storage = storage at member ⊢
  generalize worker.outdated = names at member
  induction names generalizing storage with
  | nil => exact member
  | cons name rest ih =>
      have kept := ih _ member
      rw [Storage.entries_deletePartition] at kept
      split at kept
      next => cases kept
      next => exact kept

theorem mem_entries_of_movesOn {worker after : Worker} (moves : worker.MovesOn after)
    {partition : String} {entry : CachedEntry}
    (member : entry ∈ after.stores.storage.entries partition) :
    entry ∈ worker.stores.storage.entries partition := by
  rcases moves.storage with same | ⟨-, same⟩
  · rw [same] at member
    exact member
  · rw [same] at member
    exact mem_entries_of_activated member

/-- A sweep stores nothing. -/
theorem mem_entries_of_sweepAll {moment : Moment} {bounded : List (String × Expiration)}
    {storage : Storage} {partition : String} {entry : CachedEntry}
    (member : entry ∈ (sweepAll moment bounded storage).2.entries partition) :
    entry ∈ storage.entries partition := by
  induction bounded generalizing storage with
  | nil => exact member
  | cons limit rest ih =>
      have kept := Storage.mem_entries_apply (.sweep limit.1 limit.2 moment) (ih member)
      exact kept.resolve_right (by simp)

theorem fetched_of_install {ruleSet : RuleSet} {partition : String} {entry : CachedEntry}
    (member : entry ∈ (worker.stage environment .install world).after.stores.storage.entries
      partition) :
    entry ∈ worker.stores.storage.entries partition ∨
      entry.Fetched ruleSet partition (worker.stage environment .install world).observed := by
  by_cases new : worker.state = .installing
  · obtain ⟨result, after, learned, precaching, staged⟩ :=
      worker.exists_stage_install environment world new
    have kept (inside : entry ∈ after.entries partition) :
        entry ∈ worker.stores.storage.entries partition ∨
          entry.Fetched ruleSet partition learned := by
      have found : _ ∨ entry.Fetched ruleSet partition learned :=
        fetched_of_precaching precaching inside
      rwa [Storage.entries_openPartition] at found
    rw [staged] at member ⊢
    cases result with
    | error e => exact kept member
    | ok done =>
        have moves := (worker.withStorage after).movesOn_installed
        exact kept (mem_entries_of_movesOn moves member)
  · rw [worker.stage_install_of_settled environment world new] at member
    exact .inl member

/-- Whatever a worker is asked to do, what it holds was there before or is fetched by it. -/
theorem fetched_of_stage {ruleSet : RuleSet} (routes : worker.routes.rules = ruleSet.rules)
    {operation : Operation} {partition : String} {entry : CachedEntry}
    (member : entry ∈ (worker.stage environment operation world).after.stores.storage.entries
      partition) :
    entry ∈ worker.stores.storage.entries partition ∨
      entry.Fetched ruleSet partition (worker.stage environment operation world).observed := by
  cases operation with
  | install => exact fetched_of_install member
  | message data =>
      exact .inl (mem_entries_of_movesOn (worker.movesOn_receive data) member)
  | activate =>
      exact .inl (mem_entries_of_movesOn worker.movesOn_activate member)
  | fetch request signal given => exact fetched_of_fetch routes member
  | replay => exact .inl member
  | sweep => exact .inl (mem_entries_of_sweepAll member)

/-! ## Histories -/

/-- All that a worker holds after a history was fetched in it. -/
theorem fetched_history {ruleSet : RuleSet} {start : Worker} (created : new ruleSet = .ok start)
    (environment : Environment ν) (steps : List (Operation × ν)) :
    let history := start.history environment steps
    ∀ partition, ∀ entry ∈ history.worker.stores.storage.entries partition,
      ∃ stage ∈ history.stages, entry.Fetched ruleSet partition stage.observed := by
  refine history_induction_of_new created environment
    (motive := fun history =>
      ∀ partition, ∀ entry ∈ history.worker.stores.storage.entries partition,
        ∃ stage ∈ history.stages, entry.Fetched ruleSet partition stage.observed)
    ?_ ?_ steps
  · obtain ⟨compiled, -, rfl⟩ := eq_of_new created
    intro partition entry member
    exact absurd member List.not_mem_nil
  · intro past operation world carries fetched partition entry member
    rw [History.stages_extend]
    rcases fetched_of_stage carries.routes member with old | new
    · obtain ⟨stage, listed, earlier⟩ := fetched partition entry old
      exact ⟨stage, List.mem_append_left _ listed, earlier⟩
    · exact ⟨_, List.mem_concat_self, new⟩

end Worker

/-- Where an answer from a cache comes from.  After any history of a worker, a rule that
answers from its cache answers with what the network has given earlier to a request for the
same URL, and of a method for which the cache is filled.  If that is only the method of the
rule itself, the earlier request was of the same method. -/
theorem cached_answer_fetched {ruleSet : RuleSet} {start : Worker}
    (created : Worker.new ruleSet = .ok start) (environment : Environment ν)
    (steps : List (Operation × ν)) {history : History}
    (ran : start.history environment steps = history) {request : PageRequest}
    {signal : Option Signal} {given : Bool} {world : ν} {response : Response}
    {source : Option Nat}
    (answered : (history.worker.stage environment (.fetch request signal given) world).answer =
      .fetched (.response response .cache source)) :
    ∃ index rule, source = some index ∧ ruleSet.rules[index]? = some rule ∧
      ∃ stage ∈ history.stages, ∃ call reply,
        (call, reply) ∈ Observation.exchanges stage.observed ∧
        reply.result = .ok response ∧ call.request.href = request.href ∧
        ruleSet.Fills rule.workingPartition call.request.info.method ∧
        ((∀ method, ruleSet.Fills rule.workingPartition method → method = rule.routeMethod) →
          call.request.info.method = request.info.method) := by
  obtain ⟨index, rule, rfl, matched, entry, present, named, rfl⟩ :=
    Worker.exists_entry_of_answer answered
  subst ran
  obtain ⟨stage, listed, call, reply, exchanged, result, url, fills⟩ :=
    Worker.fetched_history created environment steps rule.workingPartition entry present
  have place := CompiledRuleSet.getElem?_of_firstMatch matched
  rw [(Worker.carriesOut_history created environment steps).routes] at place
  refine ⟨index, rule, rfl, place, stage, listed, call, reply, exchanged, result,
    url.trans named, fills, ?_⟩
  intro only
  exact (only _ fills).trans (CompiledRuleSet.routeMethod_of_firstMatch matched)

deriving instance DecidableEq for Outcome, Answer

/-- Only the method of its rule fills the cache. -/
theorem RuleSet.method_of_fills_lastPage {method : String}
    (fills : RuleSet.lastPage.Fills "pages" method) : method = "GET" := by
  rcases fills with ⟨ahead, -⟩ | ⟨rule, member, -, -, same⟩
  · exact absurd ahead (by decide)
  · rw [List.mem_singleton.mp member] at same
    exact same.symm

/-- A page that is asked for twice was asked for once before. -/
theorem cached_answer_fetched_lastPage :
    let history := Worker.lastPage.history Bench.environment
      [(.install, .at 0 twoPages false),
        (.fetch (.onSite "GET" "/a") none false, .at 1000 twoPages false)]
    ∃ stage ∈ history.stages, ∃ call reply,
      (call, reply) ∈ Observation.exchanges stage.observed ∧
      reply.result = .ok (.ok ByteArray.empty) ∧
      call.request.href = "http://localhost/a" ∧ call.request.info.method = "GET" := by
  intro history
  have answered : (history.worker.stage Bench.environment
      (.fetch (.onSite "GET" "/a") none false) (.at 2000 twoPages false)).answer =
        .fetched (.response (.ok ByteArray.empty) .cache (some 0)) := by
    decide +kernel
  obtain ⟨index, rule, same, placed, stage, listed, call, reply, exchanged, result, url, fills⟩ :=
    cached_answer_fetched Worker.new_lastPage Bench.environment _ rfl answered
  cases same
  cases placed
  refine ⟨stage, listed, call, reply, exchanged, result, url, ?_⟩
  apply fills.2
  intro method filled
  exact RuleSet.method_of_fills_lastPage filled

/-- Options that store what is posted to a form, and answer a request for the form from what
is stored. -/
def Options.postedForm : Options where
  preset := .disabled
  runtimeCaching := [⟨.matching (.method "POST"), "NetworkFirst", {}⟩,
    ⟨.matching (.pathPrefix "/form"), "CacheFirst", {}⟩]

/-- A rule by which such an entry is carried out. -/
def CachingRule.postedForm (matcher : Matcher) (strategy : Strategy) : CachingRule where
  origin := .runtimeCaching
  matcher
  strategy
  cacheName := some "astro-runtime"
  expiration := some ⟨some 50, some 86400⟩

/-- The rule set of these options. -/
def RuleSet.postedForm : RuleSet where
  lifecycle := ⟨true, true, true⟩
  includeBuildManifest := true
  precache := .empty
  rules := [{ origin := .staticAssets
              matcher := .extensions []
              strategy := .cacheFirst
              cacheName := some "astro-static-assets"
              expiration := some ⟨none, some 86400⟩ },
    .postedForm (.method "POST") .networkFirst, .postedForm (.pathPrefix "/form") .cacheFirst]

/-- The new worker of this rule set. -/
def Worker.postedForm : Worker where
  ruleSet := .postedForm
  routes := ⟨RuleSet.postedForm.rules.map fun rule => ⟨rule, ⟨rule.matcher, none⟩⟩⟩
  stores := .empty
  state := .installing
  skipWaiting := true
  clientsClaimed := false

/-- The answers of a site with a form. -/
def postedFormRoutes (body : String) : List (String × OriginRoute) :=
  [("http://localhost/form", ⟨.ok body.toUTF8, 0⟩)]

/-- A request for the form is answered with what was posted to it, though nothing else has
ever been fetched. -/
theorem form_answered_with_posted :
    let history := Worker.postedForm.history Bench.environment
      [(.install, .at 0 [] false),
        (.fetch (.onSite "POST" "/form") none false, .at 0 (postedFormRoutes "posted") false)]
    let stage := history.worker.stage Bench.environment
      (.fetch (.onSite "GET" "/form") none false) (.at 0 (postedFormRoutes "page") false)
    Options.postedForm.plan [] = .ok .postedForm ∧
      Worker.new .postedForm = .ok .postedForm ∧
      stage.answer = .fetched (.response (.ok "posted".toUTF8) .cache (some 2)) ∧
      Observation.exchanges history.observed =
        [(⟨.onSite "POST" "/form", none, none⟩, ⟨.ok (.ok "posted".toUTF8), false⟩)] := by
  intro history stage
  exact ⟨rfl, rfl, by decide +kernel, by decide +kernel⟩

end CachePolicy
