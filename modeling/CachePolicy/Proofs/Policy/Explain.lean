import CachePolicy.Proofs.Worker.Precache

/-!
# Explanations and workers

An explanation foretells what an activated worker does about a request.  Both decide by
the same rules and differ in one respect: a worker looks a URL up among the responses
that it has precached, where the page of a directory counts for the directory, while an
explanation looks it up in the list of what is stored ahead, where it does not.

So, as long as no rule has the precache as its cache, an explanation is right unless it
overlooks the page of a directory, and then it is always wrong.
-/

namespace CachePolicy

/-! ## What a worker confirms -/

/-- The answer of a rule to a request. -/
def CachingRule.answer (environment : Environment ν) (rule : CachingRule) (index : Nat)
    (worker : Worker) (request : PageRequest) (signal : Option Signal) (world : ν) :
    Outcome × Worker × ν :=
  let (outcome, stores, world) :=
    (rule.dispatch index request signal).run environment (worker.stores, world)
  (outcome, { worker with stores }, world)

/-- A worker answers a request as a decision says: from the precache just when that is
the decision, by a rule just when that is the decision, and not at all otherwise. -/
structure Worker.Confirms (environment : Environment ν) (worker : Worker)
    (request : PageRequest) (signal : Option Signal) (world : ν) (decision : Decision) :
    Prop where
  precache : decision = .precache ↔ ∃ response rule,
    (worker.fetch environment request signal false world).1 = .response response .precache rule
  rule : ∀ index rule, decision = .rule index rule ↔
    worker.routes.firstMatch request.info = some (index, rule) ∧
      worker.fetch environment request signal false world =
        rule.answer environment index worker request signal world
  passthrough : decision = .passthrough ↔
    (worker.fetch environment request signal false world).1 = .passthrough

namespace Worker

variable (environment : Environment ν) (worker : Worker) (request : PageRequest)
variable (signal : Option Signal) (world : ν)

theorem answer_ofRule (index : Nat) (rule : CachingRule) :
    Outcome.OfRule index (rule.answer environment index worker request signal world).1 :=
  (rule.leaves_dispatch index request signal).run environment worker.stores world

theorem fetch_of_decision (active : worker.state = .activated) :
    match worker.decision request.info with
    | .precache => ∃ response, worker.fetch environment request signal false world =
        (.response response .precache none, worker, world)
    | .rule index rule => worker.routes.firstMatch request.info = some (index, rule) ∧
        worker.fetch environment request signal false world =
          rule.answer environment index worker request signal world
    | .passthrough => worker.routes.firstMatch request.info = none ∧
        worker.fetch environment request signal false world = (.passthrough, worker, world) := by
  have carried := worker.run_handle_of_decision request signal environment world active
  cases decided : worker.decision request.info with
  | precache =>
      rw [decided] at carried
      obtain ⟨response, -, ran⟩ := carried
      exact ⟨response, by rw [fetch, ran]⟩
  | rule index rule =>
      rw [decided] at carried
      obtain ⟨matched, ran⟩ := carried
      exact ⟨matched, by rw [fetch, ran, CachingRule.answer]⟩
  | passthrough =>
      rw [decided] at carried
      obtain ⟨unmatched, ran⟩ := carried
      exact ⟨unmatched, by rw [fetch, ran]⟩

/-- An activated worker does what it decides. -/
theorem confirms_decision (active : worker.state = .activated) :
    worker.Confirms environment request signal world (worker.decision request.info) := by
  have done := worker.fetch_of_decision environment request signal world active
  have byRule := worker.answer_ofRule environment request signal world
  cases decided : worker.decision request.info with
  | precache =>
      rw [decided] at done
      obtain ⟨response, fetched⟩ := done
      constructor
      · exact iff_of_true rfl ⟨response, none, by rw [fetched]⟩
      · intro index rule
        refine iff_of_false (by simp) ?_
        rintro ⟨-, answered⟩
        have ofRule := byRule index rule
        rw [← answered, fetched] at ofRule
        exact ofRule.1 rfl
      · exact iff_of_false (by simp) (by simp [fetched])
  | rule index rule =>
      rw [decided] at done
      obtain ⟨matched, fetched⟩ := done
      have ofRule := byRule index rule
      rw [← fetched] at ofRule
      constructor
      · refine iff_of_false (by simp) ?_
        rintro ⟨response, other, same⟩
        rw [same] at ofRule
        exact ofRule.1 rfl
      · intro other otherRule
        constructor
        · intro same
          cases same
          exact ⟨matched, fetched⟩
        · rintro ⟨found, -⟩
          rw [matched] at found
          cases found
          rfl
      · refine iff_of_false (by simp) ?_
        intro same
        rw [same] at ofRule
        exact ofRule
  | passthrough =>
      rw [decided] at done
      obtain ⟨unmatched, fetched⟩ := done
      constructor
      · exact iff_of_false (by simp) (by simp [fetched])
      · intro index rule
        exact iff_of_false (by simp) (by simp [unmatched])
      · exact iff_of_true rfl (by rw [fetched])

variable {environment worker request signal world}

/-- What a worker confirms leaves no choice. -/
theorem Confirms.unique {first second : Decision}
    (confirmed : worker.Confirms environment request signal world first)
    (other : worker.Confirms environment request signal world second) : first = second := by
  cases first with
  | precache => exact (other.precache.mpr (confirmed.precache.mp rfl)).symm
  | rule index rule =>
      have done := (confirmed.rule index rule).mp rfl
      exact ((other.rule index rule).mpr done).symm
  | passthrough => exact (other.passthrough.mpr (confirmed.passthrough.mp rfl)).symm

theorem confirms_iff (active : worker.state = .activated) {decision : Decision} :
    worker.Confirms environment request signal world decision ↔
      decision = worker.decision request.info := by
  have decided := worker.confirms_decision environment request signal world active
  constructor
  · intro confirmed
    exact confirmed.unique decided
  · intro same
    rw [same]
    exact decided

end Worker

/-! ## Explanations -/

namespace RuleSet

variable {ruleSet : RuleSet} {compiled : CompiledRuleSet} {request : Request}

/-- An explanation is given for every request that can be read, once the rules compile. -/
theorem exists_explain {url method : String} {destination : Destination}
    (read : Request.read url method destination = .ok request)
    (compiles : ruleSet.compile = .ok compiled) :
    ∃ explanation, ruleSet.explain url method destination = .ok explanation ∧
      explanation.request = request ∧
      explanation.decision = compiled.decision (ruleSet.precaches request) request := by
  rw [explain, CompiledRuleSet.decision]
  simp only [read, compiles, bind, Except.bind, pure, Except.pure]
  split
  · exact ⟨_, rfl, rfl, rfl⟩
  · cases compiled.firstMatch request with
    | none => exact ⟨_, rfl, rfl, rfl⟩
    | some found => exact ⟨_, rfl, rfl, rfl⟩

/-- A request for a directory of which only the page is stored ahead. -/
def overlooksIndex (ruleSet : RuleSet) (request : Request) : Bool :=
  request.method == "GET" && !ruleSet.lists request.href &&
    request.href.toList.getLast? == some '/' && ruleSet.lists (request.href ++ "index.html")

end RuleSet

/-- An activated worker that has precached what is listed looks up one URL more. -/
theorem Worker.Precaches.isSome_precached? {worker : Worker} (precaches : worker.Precaches)
    (active : worker.state = .activated) (request : Request) :
    (worker.precached? request).isSome =
      (worker.ruleSet.precaches request || worker.ruleSet.overlooksIndex request) := by
  have looked (href : String) :
      (worker.stores.storage.lookup precachePartition href).isSome =
        worker.ruleSet.lists href := by
    rw [Bool.eq_iff_iff, Storage.isSome_lookup]
    exact ⟨precaches.listed href, precaches.stored (.inr active) href⟩
  rw [precached?, RuleSet.precaches_eq, RuleSet.overlooksIndex, Storage.precached?]
  by_cases get : request.method = "GET"
  · have direct := looked request.href
    have page := looked (request.href ++ "index.html")
    rw [if_pos get]
    cases found : worker.stores.storage.lookup precachePartition request.href with
    | some entry =>
        rw [found] at direct
        simp [get, ← direct]
    | none =>
        rw [found] at direct
        by_cases directory : request.href.toList.getLast? = some '/'
        · simp [get, ← direct, directory, page]
        · simp [get, ← direct, directory]
  · simp [get]

/-- When an explanation is right.  After every history of a worker that is activated in
the end, and for every request that can be read, an explanation is given, and the worker
confirms it just when both agree on whether the request is precached.

If no rule has the precache as its cache, that is so unless the request is for a
directory of which only the page is stored ahead. -/
theorem explain_confirmed_iff {ruleSet : RuleSet} {start : Worker}
    (created : Worker.new ruleSet = .ok start) (environment : Environment ν)
    (steps : List (Operation × ν)) {history : History}
    (ran : start.history environment steps = history)
    (active : history.worker.state = .activated) {url method : String}
    {destination : Destination} {request : Request}
    (read : Request.read url method destination = .ok request) :
    ∃ explanation, ruleSet.explain url method destination = .ok explanation ∧
      ∀ body signal world,
        (history.worker.Confirms environment ⟨request, body⟩ signal world explanation.decision ↔
          ruleSet.precaches request = (history.worker.precached? request).isSome) ∧
        (ruleSet.SparesPrecache →
          (history.worker.Confirms environment ⟨request, body⟩ signal world
            explanation.decision ↔ ruleSet.overlooksIndex request = false)) := by
  obtain ⟨compiled, compiles, started⟩ := Worker.eq_of_new created
  have kept := start.rules_history environment steps
  rw [ran, started] at kept
  obtain ⟨rules, routes⟩ := kept
  obtain ⟨explanation, explained, -, decision⟩ := RuleSet.exists_explain read compiles
  refine ⟨explanation, explained, ?_⟩
  intro body signal world
  have general :
      history.worker.Confirms environment ⟨request, body⟩ signal world explanation.decision ↔
        ruleSet.precaches request = (history.worker.precached? request).isSome := by
    rw [Worker.confirms_iff active, decision, Worker.decision, routes]
    exact CompiledRuleSet.decision_inj
  refine ⟨general, ?_⟩
  intro spares
  have precaches := Worker.precaches_history created spares environment steps
  rw [ran] at precaches
  rw [general, precaches.isSome_precached? active, rules]
  cases listed : ruleSet.precaches request with
  | false => simp
  | true =>
      have direct : ruleSet.lists request.href = true := by
        rw [RuleSet.precaches_eq, Bool.and_eq_true] at listed
        exact listed.2
      simp [RuleSet.overlooksIndex, direct]

/-- A policy that stores the page of a site ahead. -/
def RuleSet.indexPage : RuleSet where
  lifecycle := ⟨true, true, true⟩
  includeBuildManifest := false
  precache := ⟨[.unversioned "/index.html"]⟩
  rules := []

/-- The new worker of this policy. -/
def Worker.indexPage : Worker where
  ruleSet := .indexPage
  routes := ⟨[]⟩
  stores := .empty
  state := .installing
  skipWaiting := true
  clientsClaimed := false

/-- The answers of a site with one page. -/
def onePage : List (String × OriginRoute) :=
  [("http://localhost/index.html", ⟨.ok ByteArray.empty, 0⟩)]

/-- The worker is installed. -/
def indexPageSteps : List (Operation × Bench) := [(.install, .at 0 onePage false)]

/-- A request for the page itself is foretold. -/
theorem explain_confirmed_indexPage :
    let history := Worker.indexPage.history Bench.environment indexPageSteps
    ∃ explanation, RuleSet.indexPage.explain "/index.html" "GET" .none = .ok explanation ∧
      history.worker.Confirms Bench.environment (.onSite "GET" "/index.html") none
        (.at 0 onePage true) explanation.decision := by
  have created : Worker.new .indexPage = .ok .indexPage := rfl
  have read : Request.read "/index.html" "GET" .none =
      .ok (PageRequest.onSite "GET" "/index.html").info := by decide +kernel
  obtain ⟨explanation, explained, confirmed⟩ := explain_confirmed_iff created
    Bench.environment indexPageSteps rfl (by decide +kernel) read
  have spares : RuleSet.indexPage.SparesPrecache :=
    fun rule member => absurd member List.not_mem_nil
  refine ⟨explanation, explained, ?_⟩
  exact ((confirmed none none (.at 0 onePage true)).2 spares).mpr (by decide +kernel)

/-- A request for the directory is answered with the page, which is not foretold. -/
theorem explain_overlooks_index :
    let history := Worker.indexPage.history Bench.environment indexPageSteps
    ∃ explanation, RuleSet.indexPage.explain "/" "GET" .none = .ok explanation ∧
      explanation.decision = .passthrough ∧
      ∃ response, history.worker.fetch Bench.environment (.onSite "GET" "/") none false
        (.at 0 onePage true) =
          (.response response .precache none, history.worker, .at 0 onePage true) := by
  intro history
  have read : Request.read "/" "GET" .none = .ok (PageRequest.onSite "GET" "/").info := by
    decide +kernel
  have compiles : RuleSet.indexPage.compile = .ok ⟨[]⟩ := rfl
  obtain ⟨explanation, explained, -, decision⟩ := RuleSet.exists_explain read compiles
  refine ⟨explanation, explained, ?_, ?_⟩
  · rw [decision]
    decide +kernel
  · have active : history.worker.state = .activated := by decide +kernel
    have decided : history.worker.decision (PageRequest.onSite "GET" "/").info = .precache := by
      decide +kernel
    have done := history.worker.fetch_of_decision Bench.environment (.onSite "GET" "/") none
      (.at 0 onePage true) active
    rw [decided] at done
    exact done

end CachePolicy
