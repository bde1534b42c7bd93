import CachePolicy.Proofs.Worker.Actions

/-!
# The conduct of a request

A rule goes about a request in its own cache and for the URL of the request alone.  It
removes an entry only when it has just found it there and seen that it is too old, and it
stores only what the network has answered to the request.  `CachingRule.Allows` lists all
that a rule may do, `Worker.Allows` what a worker may do besides, and `Worker.abides_handle`
says that it does nothing else, whatever others do meanwhile.
-/

namespace CachePolicy

/-- What a rule may do about a request, after what has been done about it before. -/
inductive CachingRule.Allows (rule : CachingRule) (request : PageRequest) :
    List Action → Action → Prop where
  | clock {past : List Action} (moment : Moment) : Allows rule request past (.clock moment)
  /-- It looks into its cache before it stores anything. -/
  | lookup {past : List Action} (found : Option CachedEntry) :
      (∀ partition entry, .put partition entry ∉ past) →
      Allows rule request past (.lookup rule.workingPartition request.href found)
  /-- It removes an entry that was too old when it was found. -/
  | delete {past : List Action} {entry : CachedEntry} {moment : Moment} {bounds : Expiration} :
      rule.effectiveExpiration = some bounds → bounds.isFresh moment entry = false →
      Allows rule request
        (past ++ [.lookup rule.workingPartition request.href (some entry)] ++ [.clock moment])
        (.delete rule.workingPartition request.href)
  /-- It stores a complete answer of the network. -/
  | put {past : List Action} {moment : Moment} {response : Response} {timeout : Option Millis}
      {signal : Option Signal} {reply : Reply} :
      rule.strategy.writesCache = true → response.isCacheable = true →
      .exchange ⟨request, timeout, signal⟩ reply ∈ past → reply.settled = .ok response →
      Allows rule request (past ++ [.clock moment])
        (.put rule.workingPartition ⟨request.href, response, moment⟩)
  | sweep {past : List Action} {moment : Moment} {bounds : Expiration} :
      rule.effectiveExpiration = some bounds → .clock moment ∈ past →
      Allows rule request past (.sweep rule.workingPartition bounds moment)
  | exchange {past : List Action} (timeout : Option Millis) (signal : Option Signal)
      (reply : Reply) : Allows rule request past (.exchange ⟨request, timeout, signal⟩ reply)
  | enqueue {past : List Action} (queue : String) (moment : Moment) :
      Allows rule request past (.enqueue queue request moment)

/-- A rule answers from its cache only with a response that it has found there. -/
def CachingRule.Answers (rule : CachingRule) (index : Nat) (request : PageRequest)
    (past : List Action) (outcome : Outcome) : Prop :=
  ∀ response source, outcome = .response response .cache source →
    source = some index ∧ ∃ entry,
      .lookup rule.workingPartition request.href (some entry) ∈ past ∧ entry.response = response

namespace CachingRule

variable {rule : CachingRule} {index : Nat} {request : PageRequest} {past : List Action}

/-- A look-up found nothing, or an entry that it may answer with. -/
def Found (rule : CachingRule) (request : PageRequest) (more : List Action)
    (found : Option Response) : Prop :=
  ∀ response, found = some response → ∃ entry,
    .lookup rule.workingPartition request.href (some entry) ∈ more ∧ entry.response = response

theorem answers_network (response : Response) :
    rule.Answers index request past (.response response .network (some index)) := by
  intro other source same
  cases same

theorem answers_failed (error : WorkerError) :
    rule.Answers index request past (.failed error) := by
  intro other source same
  cases same

theorem answers_queued (queue : String) : rule.Answers index request past (.queued queue) := by
  intro other source same
  cases same

theorem answers_cache {found : Option Response} {more : List Action} {response : Response}
    (looked : rule.Found request more found) (same : found = some response)
    (included : more ⊆ past) :
    rule.Answers index request past (.response response .cache (some index)) := by
  intro other source equal
  cases equal
  obtain ⟨entry, present, answer⟩ := looked response same
  exact ⟨rfl, entry, included present, answer⟩

variable {ends : List Action → Outcome → Prop}

/-- To look for a response is allowed before anything is stored. -/
theorem abides_cached (unstored : ∀ partition entry, .put partition entry ∉ past)
    {next : Option Response → Task Outcome}
    (later : ∀ found more, rule.Found request more found →
      (next found).Abides (rule.Allows request) ends (past ++ more)) :
    (Task.cached rule.workingPartition request.href rule.effectiveExpiration next).Abides
      (rule.Allows request) ends past := by
  intro found
  refine ⟨.lookup found unstored, ?_⟩
  cases found with
  | none => exact later none _ nofun
  | some entry =>
      have looked (more : List Action) : rule.Found request
          (.lookup rule.workingPartition request.href (some entry) :: more)
          (some entry.response) := by
        intro response same
        cases same
        exact ⟨entry, List.mem_cons_self, rfl⟩
      cases bounded : rule.effectiveExpiration with
      | none => exact later _ _ (looked [])
      | some bounds =>
          intro moment
          refine ⟨.clock moment, ?_⟩
          beta_reduce
          split
          next =>
            rw [List.append_assoc]
            exact later _ _ (looked _)
          next stale =>
            refine ⟨.delete bounded (by simpa using stale), ?_⟩
            rw [List.append_assoc, List.append_assoc]
            exact later none _ nofun

/-- To ask the network is always allowed. -/
theorem abides_fetch {timeout : Option Millis} {signal : Option Signal}
    {next : Reply → Task Outcome}
    (later : ∀ reply, (next reply).Abides (rule.Allows request) ends
      (past ++ [.exchange ⟨request, timeout, signal⟩ reply])) :
    (Task.fetch ⟨request, timeout, signal⟩ next).Abides (rule.Allows request) ends past := by
  intro reply
  exact ⟨.exchange timeout signal reply, later reply⟩

/-- To store a response is allowed after the network has given it. -/
theorem abides_store (writes : rule.strategy.writesCache = true) {timeout : Option Millis}
    {signal : Option Signal} {reply : Reply} {response : Response}
    (settled : reply.settled = .ok response) {outcome : Outcome}
    (answers : ∀ more, ends
      (past ++ [.exchange ⟨request, timeout, signal⟩ reply] ++ more) outcome) :
    (Task.store rule.workingPartition request.href response rule.effectiveExpiration
      (.done outcome)).Abides (rule.Allows request) ends
        (past ++ [.exchange ⟨request, timeout, signal⟩ reply]) := by
  rw [Task.store]
  split
  next complete =>
    intro moment
    refine ⟨.clock moment, .put writes complete List.mem_concat_self settled, ?_⟩
    rw [List.append_assoc]
    cases bounded : rule.effectiveExpiration with
    | none => exact answers _
    | some bounds =>
        refine ⟨.sweep bounded (by simp), ?_⟩
        rw [List.append_assoc]
        exact answers _
  next =>
    have last := answers []
    rwa [List.append_nil] at last

/-- Whatever its strategy, a rule does what it may about a request. -/
theorem abides_dispatch (index : Nat) (rule : CachingRule) (request : PageRequest)
    (signal : Option Signal) (unstored : ∀ partition entry, .put partition entry ∉ past) :
    (rule.dispatch index request signal).Abides (rule.Allows request)
      (rule.Answers index request) past := by
  rw [dispatch]
  cases strategy : rule.strategy with
  | cacheFirst =>
      have writes : rule.strategy.writesCache = true := by rw [strategy]; rfl
      apply abides_cached unstored
      intro found more looked
      cases found with
      | some response => exact answers_cache looked rfl (List.subset_append_right _ _)
      | none =>
          apply abides_fetch
          intro reply
          split
          next response settled =>
            apply abides_store writes settled
            intro rest
            exact answers_network response
          next => exact answers_failed _
  | networkFirst =>
      have writes : rule.strategy.writesCache = true := by rw [strategy]; rfl
      apply abides_fetch
      intro reply
      split
      next response settled =>
        apply abides_store writes settled
        intro rest
        exact answers_network response
      next => exact answers_failed _
      next =>
        have still : ∀ partition entry, .put partition entry ∉
            past ++ [.exchange ⟨request, rule.networkTimeout, signal⟩ reply] := by
          intro partition entry stored
          rcases List.mem_append.mp stored with old | new
          · exact unstored partition entry old
          · cases List.mem_singleton.mp new
        apply abides_cached still
        intro found more looked
        cases found with
        | some response => exact answers_cache looked rfl (List.subset_append_right _ _)
        | none => exact answers_failed _
  | staleWhileRevalidate =>
      have writes : rule.strategy.writesCache = true := by rw [strategy]; rfl
      apply abides_cached unstored
      intro found more looked
      have included (rest : List Action) : more ⊆ past ++ more ++ rest := by
        intro action member
        exact List.mem_append_left _ (List.mem_append_right _ member)
      apply abides_fetch
      intro reply
      split
      next response settled =>
        cases found with
        | some old =>
            apply abides_store writes settled
            intro rest
            rw [List.append_assoc]
            exact answers_cache looked rfl (included _)
        | none =>
            apply abides_store writes settled
            intro rest
            exact answers_network response
      next =>
        cases found with
        | some old => exact answers_cache looked rfl (included _)
        | none => exact answers_failed _
  | networkOnly =>
      apply abides_fetch
      intro reply
      split
      next response _ => exact answers_network response
      next => exact answers_failed _
      next =>
        cases rule.replayQueue with
        | none => exact answers_failed _
        | some queue =>
            intro moment
            exact ⟨.clock moment, .enqueue queue.name moment, answers_queued _⟩
  | cacheOnly =>
      apply abides_cached unstored
      intro found more looked
      cases found with
      | some response => exact answers_cache looked rfl (List.subset_append_right _ _)
      | none => exact answers_failed _

end CachingRule

/-! ## Workers -/

/-- What a worker may do about a request: look for a precached response, and then what the
first rule that takes the request may do. -/
inductive Worker.Allows (worker : Worker) (request : PageRequest) :
    List Action → Action → Prop where
  | precached {past : List Action} (url : String) (found : Option CachedEntry) :
      (∀ partition entry, .put partition entry ∉ past) →
      Allows worker request past (.lookup precachePartition url found)
  | rule {past : List Action} {action : Action} {index : Nat} {rule : CachingRule} :
      worker.routes.firstMatch request.info = some (index, rule) →
      rule.Allows request past action → Allows worker request past action

namespace Worker.Allows

variable {worker : Worker} {request : PageRequest} {past : List Action} {partition : String}

/-- A worker looks for a response only before it stores one. -/
theorem lookup {url : String} {found : Option CachedEntry}
    (allowed : worker.Allows request past (.lookup partition url found)) :
    ∀ partition entry, .put partition entry ∉ past := by
  cases allowed with
  | precached url found unstored => exact unstored
  | rule matched allowed =>
      cases allowed with
      | lookup found unstored => exact unstored

/-- A worker stores only what the network has answered to the request, and only for the
first rule that takes the request. -/
theorem put {entry : CachedEntry} (allowed : worker.Allows request past (.put partition entry)) :
    ∃ index rule timeout signal reply,
      worker.routes.firstMatch request.info = some (index, rule) ∧
      rule.strategy.writesCache = true ∧ partition = rule.workingPartition ∧
      entry.url = request.href ∧ .exchange ⟨request, timeout, signal⟩ reply ∈ past ∧
      reply.settled = .ok entry.response := by
  cases allowed with
  | rule matched allowed =>
      cases allowed with
      | put writes complete asked settled =>
          exact ⟨_, _, _, _, _, matched, writes, rfl, rfl, List.mem_append_left _ asked, settled⟩

/-- A worker removes an entry only for a rule whose look-up has found one that is too
old. -/
theorem delete {url : String} (allowed : worker.Allows request past (.delete partition url)) :
    ∃ rule ∈ worker.routes.rules, ∃ earlier entry moment bounds,
      partition = rule.workingPartition ∧
      past = earlier ++ [.lookup partition url (some entry)] ++ [.clock moment] ∧
      rule.effectiveExpiration = some bounds ∧ bounds.isFresh moment entry = false := by
  cases allowed with
  | rule matched allowed =>
      cases allowed with
      | delete bounded stale =>
          exact ⟨_, CompiledRuleSet.mem_of_firstMatch matched, _, _, _, _, rfl, rfl, bounded, stale⟩

/-- A worker sweeps a partition only for a rule that bounds it, as of a moment that it has
seen. -/
theorem sweep {bounds : Expiration} {moment : Moment}
    (allowed : worker.Allows request past (.sweep partition bounds moment)) :
    ∃ rule ∈ worker.routes.rules, partition = rule.workingPartition ∧
      rule.effectiveExpiration = some bounds ∧ .clock moment ∈ past := by
  cases allowed with
  | rule matched allowed =>
      cases allowed with
      | sweep bounded seen =>
          exact ⟨_, CompiledRuleSet.mem_of_firstMatch matched, rfl, bounded, seen⟩

end Worker.Allows

/-- A worker answers from a cache only as the first rule that takes the request does. -/
def Worker.Answers (worker : Worker) (request : PageRequest) (past : List Action)
    (outcome : Outcome) : Prop :=
  ∀ response source, outcome = .response response .cache source → ∃ index rule,
    worker.routes.firstMatch request.info = some (index, rule) ∧
      rule.Answers index request past outcome

namespace Worker

variable {past : List Action} (worker : Worker) (request : PageRequest)
variable (signal : Option Signal)

theorem abides_route (unstored : ∀ partition entry, .put partition entry ∉ past) :
    (worker.route request signal).Abides (worker.Allows request) (worker.Answers request)
      past := by
  rw [route]
  cases matched : worker.routes.firstMatch request.info with
  | none =>
      intro response source same
      cases same
  | some found =>
      obtain ⟨index, rule⟩ := found
      apply (rule.abides_dispatch index request signal unstored).mono
      · intro past action allowed
        exact .rule matched allowed
      · intro past outcome answers response source same
        exact ⟨index, rule, matched, answers⟩

/-- To look for a precached response is allowed and stores nothing. -/
theorem abides_precached {ends : List Action → Outcome → Prop} (href : String)
    {next : Option Response → Task Outcome}
    (later : ∀ found past, (∀ partition entry, .put partition entry ∉ past) →
      (next found).Abides (worker.Allows request) ends past) :
    (Task.precached href next).Abides (worker.Allows request) ends [] := by
  intro found
  refine ⟨.precached href found (by simp), ?_⟩
  cases found with
  | some entry => exact later _ _ (by simp)
  | none =>
      by_cases directory : href.toList.getLast? = some '/'
      · simp only [directory, if_true]
        intro page
        exact ⟨.precached _ page (by simp), later _ _ (by simp)⟩
      · simp only [directory, if_false]
        exact later none _ (by simp)

/-- A worker does what it may about a request. -/
theorem abides_handle (given : Bool) :
    (worker.handle request signal given).Abides (worker.Allows request) (worker.Answers request)
      [] := by
  rw [handle]
  split
  next =>
    intro response source same
    cases same
  next =>
    split
    next =>
      intro response source same
      cases same
    next =>
      split
      next =>
        apply worker.abides_precached request
        intro found past unstored
        cases found with
        | some response =>
            intro other source same
            cases same
        | none => exact worker.abides_route request signal unstored
      next => exact worker.abides_route request signal (by simp)

end Worker

end CachePolicy
