import CachePolicy.Proofs.Worker.Lifecycle

/-!
# What stays available

A worker is installed once, and what it stored then answers requests from its activation
on, with or without a network, as long as the rules leave the precache as it is.  No other
request is answered from there.
-/

namespace CachePolicy

/-- An installation succeeded. -/
def Answer.installs : Answer → Bool
  | .installed (.ok _) => true
  | _ => false

namespace Worker

variable {environment : Environment ν} {worker : Worker} {operation : Operation} {world : ν}

/-- Only a new worker is installed, and it is installed or activated then. -/
theorem installs_of_answer
    (answered : (worker.stage environment operation world).answer.installs = true) :
    worker.state = .installing ∧
      ((worker.stage environment operation world).after.state = .installed ∨
        (worker.stage environment operation world).after.state = .activated) := by
  cases operation with
  | install =>
      cases worker.installEnds environment world with
      | refused _ idle =>
          rw [idle] at answered
          cases answered
      | failed error storage _ failed _ =>
          rw [failed] at answered
          cases answered
      | succeeded storage new _ after =>
          apply And.intro new
          rw [after, installed]
          split
          · exact .inr rfl
          · exact .inl rfl
  | message data => cases answered
  | activate => cases answered
  | fetch request signal given => cases answered
  | replay => cases answered
  | sweep => cases answered

end Worker

/-! ## The installation of a worker -/

/-- The only installation in a history that succeeded, from which the worker still has the
response to each URL that is listed. -/
structure History.InstalledBy (ruleSet : RuleSet) (history : History) (install : Stage) :
    Prop where
  member : install ∈ history.stages
  installs : install.Installs ruleSet
  only : ∀ stage ∈ history.stages, stage.answer.installs = true → stage = install
  held : ∀ href, ruleSet.lists href = true → ∃ response,
    Observation.lastFetched href install.observed = some response ∧
      (history.worker.stores.storage.lookup precachePartition href).map (·.response) =
        some response

namespace History

variable {ruleSet : RuleSet} {past : History} {install : Stage}
variable (environment : Environment ν) (operation : Operation) (world : ν)

/-- What was installed stays, if the rules leave it as it is. -/
theorem InstalledBy.extend (installed : past.InstalledBy ruleSet install)
    (leaves : ruleSet.LeavesPrecache) (routes : past.worker.routes.rules = ruleSet.rules)
    (old : past.worker.state ≠ .installing) :
    (past.extend environment operation world).InstalledBy ruleSet install := by
  have same : (past.worker.stage environment operation world).after.stores.storage.entries
      precachePartition = past.worker.stores.storage.entries precachePartition := by
    apply Worker.entries_precache_stage old
    · rw [routes]
      exact leaves.unbounded
    · intro _ rule member works
      rw [routes] at member
      exact leaves.idle member works
  constructor
  · exact List.mem_append_left _ installed.member
  · exact installed.installs
  · rw [forall_stages_extend]
    apply And.intro installed.only
    intro answered
    exact absurd (Worker.installs_of_answer answered).1 old
  · intro href listed
    obtain ⟨response, last, found⟩ := installed.held href listed
    refine ⟨response, last, ?_⟩
    rw [worker_extend, Storage.lookup_congr same]
    exact found

/-- An installation that succeeds is the only one, if there was none before. -/
theorem installedBy_of_installs
    (none : ∀ stage ∈ past.stages, stage.answer.installs = false)
    (installs : (past.worker.stage environment operation world).Installs ruleSet) :
    (past.extend environment operation world).InstalledBy ruleSet
      (past.worker.stage environment operation world) where
  member := List.mem_append_right _ (List.mem_singleton.mpr rfl)
  installs := installs
  only := by
    rw [forall_stages_extend]
    constructor
    · intro stage earlier answered
      rw [none stage earlier] at answered
      cases answered
    · exact fun _ => rfl
  held := installs.stored

/-- What is known of installations at the end of a history. -/
structure Installations (ruleSet : RuleSet) (history : History) : Prop where
  none : history.worker.state ≠ .installed → history.worker.state ≠ .activated →
    ∀ stage ∈ history.stages, stage.answer.installs = false
  some : history.worker.state = .installed ∨ history.worker.state = .activated →
    ∃ install, history.InstalledBy ruleSet install

theorem Installations.extend (installations : past.Installations ruleSet)
    (leaves : ruleSet.LeavesPrecache) (rules : past.worker.ruleSet = ruleSet)
    (routes : past.worker.routes.rules = ruleSet.rules) :
    (past.extend environment operation world).Installations ruleSet := by
  have moves := past.worker.moves_stage environment operation world
  constructor
  · intro notInstalled notActivated
    rw [forall_stages_extend]
    constructor
    · apply installations.none
      · intro waits
        rw [waits] at moves
        generalize become : (past.worker.stage environment operation world).after.state = state
          at moves
        cases moves with
        | stays => exact notInstalled become
        | takesOver => exact notActivated become
      · intro active
        exact notActivated ((moves.eq_of_final (.inl active)).trans active)
    · apply Bool.eq_false_iff.mpr
      intro answered
      rcases (Worker.installs_of_answer answered).2 with waits | active
      · exact notInstalled waits
      · exact notActivated active
  · intro ready
    by_cases new : past.worker.state = .installing
    · have installs := Worker.installs_of_installing new ready
      rw [rules] at installs
      refine ⟨_, installedBy_of_installs environment operation world ?_ installs⟩
      apply installations.none
      · rw [new]
        decide
      · rw [new]
        decide
    · obtain ⟨install, installed⟩ := installations.some (moves.ready_of_ready ready new)
      exact ⟨install, installed.extend environment operation world leaves routes new⟩

end History

theorem Worker.installations_history {ruleSet : RuleSet} {start : Worker}
    (created : Worker.new ruleSet = .ok start) (leaves : ruleSet.LeavesPrecache)
    (environment : Environment ν) (steps : List (Operation × ν)) :
    (start.history environment steps).Installations ruleSet := by
  refine history_induction_of_new created environment
    (motive := fun history => history.Installations ruleSet) ?_ ?_ steps
  · obtain ⟨compiled, -, rfl⟩ := eq_of_new created
    constructor
    · intro _ _ stage member
      exact absurd member List.not_mem_nil
    · rintro (impossible | impossible) <;> cases impossible
  · intro past operation world carries installations
    exact installations.extend environment operation world leaves carries.rules carries.routes

/-! ## Answers from the precache -/

theorem Storage.precached?_of_lookup {storage : Storage} {href : String} {response : Response}
    (found : (storage.lookup precachePartition href).map (·.response) = some response) :
    storage.precached? href = some response := by
  rw [precached?]
  cases looked : storage.lookup precachePartition href with
  | none =>
      rw [looked] at found
      cases found
  | some entry =>
      rw [looked] at found
      exact found

namespace Worker

variable {environment : Environment ν} {worker : Worker} {request : PageRequest}

/-- A request that is precached is answered on the spot. -/
theorem stage_of_precached {response : Response} (active : worker.state = .activated)
    (precached : worker.precached? request.info = some response)
    (environment : Environment ν) (signal : Option Signal) (world : ν) :
    worker.stage environment (.fetch request signal false) world =
      .idle worker (.fetch request signal false)
        (.fetched (.response response .precache none)) := by
  have ran := worker.run_handle request signal environment.recorded (world, []) active
  have stored := worker.deposits_handle request signal environment.recorded (world, []) active
  rw [precached] at ran stored
  simp only [stage, perform, fetch, deposits, ran, stored]
  rfl

/-- Only a request that is precached is answered from the precache. -/
theorem precached?_of_answer {signal : Option Signal} {given : Bool} {world : ν}
    {response : Response} {rule : Option Nat}
    (answered : (worker.stage environment (.fetch request signal given) world).answer =
      .fetched (.response response .precache rule)) :
    worker.precached? request.info = some response := by
  have outcome : ((worker.handle request signal given).run environment.recorded
      (worker.stores, world, [])).1 = .response response .precache rule :=
    Answer.fetched.inj answered
  by_cases active : worker.state = .activated
  swap
  · rw [worker.handle_of_not_activated request signal active] at outcome
    cases outcome
  cases given with
  | true =>
      rw [worker.handle_given request signal active] at outcome
      cases outcome
  | false =>
      have decided := worker.run_handle_of_decision request signal environment.recorded
        (world, []) active
      cases decision : worker.decision request.info with
      | precache =>
          rw [decision] at decided
          obtain ⟨stored, precached, ran⟩ := decided
          rw [ran] at outcome
          cases outcome
          exact precached
      | rule index rule =>
          rw [decision] at decided
          have ofRule := (rule.leaves_dispatch index request signal).run environment.recorded
            worker.stores (world, [])
          rw [← decided.2, outcome] at ofRule
          exact absurd rfl ofRule.1
      | passthrough =>
          rw [decision] at decided
          rw [decided.2] at outcome
          cases outcome

/-- A request that is precached is a GET for a URL that is listed, or for a directory of
which the page is. -/
theorem Precaches.listed_of_precached? {response : Response} (precaches : worker.Precaches)
    (precached : worker.precached? request.info = some response) :
    request.info.method = "GET" ∧ (worker.ruleSet.lists request.href = true ∨
      request.href.toList.getLast? = some '/' ∧
        worker.ruleSet.lists (request.href ++ "index.html") = true) := by
  have found {href : String} {response : Response}
      (looked : (worker.stores.storage.lookup precachePartition href).map (·.response) =
        some response) : worker.ruleSet.lists href = true :=
    precaches.listed href (Storage.mem_urls_of_lookup looked)
  rw [Worker.precached?] at precached
  by_cases get : request.info.method = "GET"
  swap
  · rw [if_neg get] at precached
    cases precached
  apply And.intro get
  rw [if_pos get, Storage.precached?] at precached
  cases looked : worker.stores.storage.lookup precachePartition request.info.href with
  | some entry => exact .inl (found (congrArg (Option.map (·.response)) looked))
  | none =>
      rw [looked] at precached
      by_cases directory : request.info.href.toList.getLast? = some '/'
      · rw [if_pos directory] at precached
        exact .inr ⟨directory, found precached⟩
      · rw [if_neg directory] at precached
        cases precached

/-- What is stored ahead stays available if the rules leave the precache as it is.

In every history, a worker that is activated was installed once.  From then on it answers a
request for a URL that is listed with the response that was fetched last for it when the
worker was installed; it learns nothing on the way, and it changes nothing.  What it answers
from the precache is listed, or is the page of a directory that is. -/
theorem available_history {ruleSet : RuleSet} {start : Worker}
    (created : new ruleSet = .ok start) (leaves : ruleSet.LeavesPrecache)
    (environment : Environment ν) (steps : List (Operation × ν)) {history : History}
    (ran : start.history environment steps = history)
    (active : history.worker.state = .activated) :
    (∃ install ∈ history.stages, install.Installs ruleSet ∧
      (∀ stage ∈ history.stages, stage.answer.installs = true → stage = install) ∧
      ∀ request : PageRequest, request.info.method = "GET" →
        ruleSet.lists request.href = true →
        ∃ response, Observation.lastFetched request.href install.observed = some response ∧
          ∀ signal world,
            history.worker.stage environment (.fetch request signal false) world =
              .idle history.worker (.fetch request signal false)
                (.fetched (.response response .precache none))) ∧
    ∀ request signal given world response rule,
      (history.worker.stage environment (.fetch request signal given) world).answer =
        .fetched (.response response .precache rule) →
      request.info.method = "GET" ∧ (ruleSet.lists request.href = true ∨
        request.href.toList.getLast? = some '/' ∧
          ruleSet.lists (request.href ++ "index.html") = true) := by
  constructor
  · have installations := installations_history created leaves environment steps
    rw [ran] at installations
    obtain ⟨install, installed⟩ := installations.some (.inr active)
    refine ⟨install, installed.member, installed.installs, installed.only, ?_⟩
    intro request get listed
    obtain ⟨response, last, found⟩ := installed.held request.href listed
    refine ⟨response, last, ?_⟩
    apply stage_of_precached active
    rw [precached?, if_pos get]
    exact Storage.precached?_of_lookup found
  · intro request signal given world response rule answered
    have precaches := precaches_of_leaves created leaves environment steps
    have carries := carriesOut_history created environment steps
    rw [ran] at precaches carries
    rw [← carries.rules]
    exact precaches.listed_of_precached? (precached?_of_answer answered)

end Worker

/-- The worker is installed and activated at once, and a request is made for a page that it
has stored. -/
def visitedSteps : List (Operation × Bench) :=
  [(.install, .at 0 twoPages false),
    (.fetch (.onSite "GET" "/b") none false, .at 1 twoPages false)]

/-- Without a network, the other page is still there. -/
theorem available_history_bothPages :
    let history := (Worker.bothPages true false).history Bench.environment visitedSteps
    (history.worker.stage Bench.environment (.fetch (.onSite "GET" "/a") none false)
      (.at 2 [] true)).answer =
        .fetched (.response (.ok ByteArray.empty) .precache none) := by
  intro history
  have leaves : (RuleSet.bothPages true false).LeavesPrecache := by
    constructor
    · intro rule member
      exact absurd member List.not_mem_nil
    · intro rule member
      exact absurd member List.not_mem_nil
  obtain ⟨⟨install, -, -, only, available⟩, -⟩ := Worker.available_history
    (Worker.new_bothPages true false) leaves Bench.environment visitedSteps rfl
    (by decide +kernel)
  obtain ⟨response, last, answered⟩ := available (.onSite "GET" "/a") rfl (by decide +kernel)
  rw [← only _ List.mem_cons_self rfl] at last
  have fetched : Observation.lastFetched "http://localhost/a"
      ((Worker.bothPages true false).stage Bench.environment .install
        (.at 0 twoPages false)).observed = some (.ok ByteArray.empty) := by
    decide +kernel
  have same : response = .ok ByteArray.empty := Option.some.inj (last.symm.trans fetched)
  rw [answered none (.at 2 [] true), same]
  rfl

/-- When a rule bounds the precache, a page that was stored ahead may be lost to another,
and is not answered from there any more. -/
theorem unavailable_page :
    let history := (Worker.bothPages true true).history Bench.environment
      [(.install, .at 0 twoPages false), (.sweep, .at 1 twoPages false)]
    Worker.new (.bothPages true true) = .ok (.bothPages true true) ∧
      history.worker.state = .activated ∧
      (RuleSet.bothPages true true).lists (PageRequest.onSite "GET" "/a").href = true ∧
      ∀ response rule, (history.worker.stage Bench.environment
        (.fetch (.onSite "GET" "/a") none false) (.at 2 twoPages true)).answer ≠
          .fetched (.response response .precache rule) := by
  intro history
  refine ⟨Worker.new_bothPages true true, ?_, ?_, ?_⟩
  · decide +kernel
  · decide +kernel
  · intro response rule answered
    have lost : history.worker.precached? (PageRequest.onSite "GET" "/a").info = none := by
      decide +kernel
    have found := Worker.precached?_of_answer answered
    rw [lost] at found
    cases found

end CachePolicy
