import CachePolicy.Proofs.Worker.Precache
import Mathlib.Data.List.Forall2

/-!
# Installations

An installation succeeds just when a complete response was fetched for every entry that
is to be stored ahead.  For each URL the response that was fetched last is the one that is
stored.

What is stored then stays, as long as the rules leave it as it is.
-/

namespace CachePolicy

namespace Observation

/-- The responses that were fetched for a URL, in order. -/
def fetchedFor (href : String) (observed : List Observation) : List Response :=
  (exchanges observed).filterMap fun exchange =>
    if exchange.1.request.href = href then exchange.2.result.toOption else none

/-- The response that was fetched last for a URL. -/
def lastFetched (href : String) (observed : List Observation) : Option Response :=
  (fetchedFor href observed).getLast?

@[simp] theorem lastFetched_nil (href : String) : lastFetched href [] = none := rfl

theorem lastFetched_clock (href : String) (moment : Moment) (rest : List Observation) :
    lastFetched href (.clock moment :: rest) = lastFetched href rest := rfl

theorem lastFetched_exchange (href : String) {call : Call} {reply : Reply}
    {response : Response} (answered : reply.result = .ok response) (rest : List Observation) :
    lastFetched href (.exchange call reply :: rest) =
      (lastFetched href rest).or (if call.request.href = href then some response else none) := by
  have split : fetchedFor href (.exchange call reply :: rest) =
      (if call.request.href = href then [response] else []) ++ fetchedFor href rest := by
    by_cases same : call.request.href = href
    · simp [fetchedFor, same, answered, Except.toOption]
    · simp [fetchedFor, same]
  rw [lastFetched, split, List.getLast?_append]
  split <;> rfl

end Observation

/-- An exchange in which a complete response for an entry was fetched. -/
structure PrecacheEntry.Fetched (entry : PrecacheEntry) (exchange : Call × Reply) : Prop where
  request : PageRequest.get entry.url = .ok exchange.1.request
  plain : exchange.1.timeout = none ∧ exchange.1.signal = none
  complete : ∃ response, exchange.2.result = .ok response ∧ response.status = 200

theorem PrecacheEntry.exists_fetched_of_mem {entries : List PrecacheEntry}
    {exchanges : List (Call × Reply)} (fetched : List.Forall₂ Fetched entries exchanges)
    {entry : PrecacheEntry} (member : entry ∈ entries) :
    ∃ exchange ∈ exchanges, entry.Fetched exchange := by
  obtain ⟨index, inside, rfl⟩ := List.mem_iff_getElem.mp member
  have same := fetched.length_eq
  exact ⟨_, List.getElem_mem (same ▸ inside), fetched.get inside (same ▸ inside)⟩

namespace Storage

theorem find?_without (entries : List CachedEntry) (url other : String) :
    (without url entries).find? (·.url == other) =
      if other = url then none else entries.find? (·.url == other) := by
  rw [without, List.find?_filter]
  by_cases same : other = url
  · subst same
    rw [if_pos rfl]
    apply List.find?_eq_none.mpr
    intro entry _
    simp
  · rw [if_neg same]
    congr 1
    funext entry
    by_cases found : entry.url = other
    · simp [found, same]
    · simp [found]

theorem lookup_put (storage : Storage) (partition url other : String) (response : Response)
    (moment : Moment) :
    (storage.put partition url response moment).lookup partition other =
      if other = url then some ⟨url, response, moment⟩ else storage.lookup partition other := by
  rw [lookup, entries_put, if_pos rfl, List.find?_append, find?_without, lookup]
  by_cases same : other = url
  · simp [same]
  · simp [same, Ne.symm same]

theorem lookup_congr {storage after : Storage} {partition : String}
    (same : after.entries partition = storage.entries partition) (url : String) :
    after.lookup partition url = storage.lookup partition url := by
  rw [lookup, lookup, same]

theorem mem_urls_of_lookup {storage : Storage} {partition url : String} {response : Response}
    (found : (storage.lookup partition url).map (·.response) = some response) :
    url ∈ storage.urls partition := by
  rw [← isSome_lookup]
  cases looked : storage.lookup partition url with
  | none =>
      rw [looked] at found
      cases found
  | some entry => rfl

end Storage

namespace Worker

/-- When all entries are stored, a complete response was fetched for each of them, and the
last one for a URL is stored for it. -/
theorem stored_of_precaching {entries : List PrecacheEntry} {storage after : Storage}
    {learned : List Observation} {result : Except WorkerError Unit}
    (precaching : Precaching entries storage learned result after) (succeeds : result = .ok ()) :
    List.Forall₂ PrecacheEntry.Fetched entries (Observation.exchanges learned) ∧
      ∀ href, (after.lookup precachePartition href).map (·.response) =
        (Observation.lastFetched href learned).or
          ((storage.lookup precachePartition href).map (·.response)) := by
  induction precaching with
  | finished => exact ⟨.nil, fun href => rfl⟩
  | unread | unanswered | incomplete => cases succeeds
  | @stored entry rest storage after request reply response learned result read answered complete
      moment precaching ih =>
      obtain ⟨fetched, stored⟩ := ih succeeds
      have status : response.status = 200 := by simpa [Response.isCacheable] using complete
      refine ⟨.cons ⟨read, ⟨rfl, rfl⟩, response, answered, status⟩ fetched, ?_⟩
      intro href
      rw [stored, Observation.lastFetched_exchange href answered, Observation.lastFetched_clock,
        Storage.lookup_put, Option.or_assoc]
      congr 1
      by_cases same : request.href = href
      · simp [same]
      · simp [same, Ne.symm same]

end Worker

/-- A response was fetched for every entry that a URL names. -/
theorem exists_lastFetched {entries : List PrecacheEntry} {observed : List Observation}
    (fetched : List.Forall₂ PrecacheEntry.Fetched entries (Observation.exchanges observed))
    {href : String} (listed : entries.any (·.names href) = true) :
    ∃ response, Observation.lastFetched href observed = some response := by
  obtain ⟨entry, member, names⟩ := List.any_eq_true.mp listed
  obtain ⟨exchange, present, taken⟩ := PrecacheEntry.exists_fetched_of_mem fetched member
  obtain ⟨response, answered, -⟩ := taken.complete
  have found : response ∈ Observation.fetchedFor href observed := by
    apply List.mem_filterMap.mpr
    refine ⟨exchange, present, ?_⟩
    rw [if_pos ((PrecacheEntry.names_iff taken.request href).mp names), answered]
    rfl
  rw [Observation.lastFetched]
  cases last : (Observation.fetchedFor href observed).getLast? with
  | none =>
      rw [List.getLast?_eq_none_iff] at last
      rw [last] at found
      exact absurd found List.not_mem_nil
  | some response => exact ⟨response, rfl⟩

/-! ## Installing a worker -/

/-- An operation that learns nothing and leaves everything as it is. -/
def Stage.idle (worker : Worker) (operation : Operation) (answer : Answer) : Stage where
  before := worker
  operation := operation
  answer := answer
  observed := []
  deposits := []
  after := worker

/-- An installation that succeeds: a complete response is fetched for each entry, and the
last one for a URL is stored. -/
structure Stage.Installs (ruleSet : RuleSet) (stage : Stage) : Prop where
  operation : stage.operation = .install
  answer : stage.answer = .installed (.ok stage.after.state)
  fetched : List.Forall₂ PrecacheEntry.Fetched ruleSet.precache.entries
    (Observation.exchanges stage.observed)
  stored : ∀ href, ruleSet.lists href = true → ∃ response,
    Observation.lastFetched href stage.observed = some response ∧
      (stage.after.stores.storage.lookup precachePartition href).map (·.response) = some response

namespace Worker

/-- What becomes of an attempt to install a worker: it is refused, it fails, or it
succeeds. -/
inductive InstallEnds (worker : Worker) (stage : Stage) : Prop where
  | refused : worker.state ≠ .installing →
      stage = .idle worker .install (.installed (.error (.invalidState "install" worker.state))) →
      InstallEnds worker stage
  | failed (error : WorkerError) (storage : Storage) : worker.state = .installing →
      stage.answer = .installed (.error error) →
      stage.after = { worker.withStorage storage with state := stateAfter error } →
      InstallEnds worker stage
  | succeeded (storage : Storage) : worker.state = .installing →
      stage.Installs worker.ruleSet → stage.after = (worker.withStorage storage).installed →
      InstallEnds worker stage

theorem installEnds (environment : Environment ν) (worker : Worker) (world : ν) :
    worker.InstallEnds (worker.stage environment .install world) := by
  by_cases new : worker.state = .installing
  swap
  · exact .refused new (worker.stage_install_of_settled environment world new)
  obtain ⟨result, storage, learned, precaching, staged⟩ :=
    worker.exists_stage_install environment world new
  rw [staged]
  cases result with
  | error e => exact .failed e storage new rfl rfl
  | ok done =>
      obtain ⟨fetched, stored⟩ := stored_of_precaching precaching rfl
      refine .succeeded storage new ⟨rfl, rfl, fetched, ?_⟩ rfl
      intro href listed
      obtain ⟨response, last⟩ := exists_lastFetched fetched listed
      refine ⟨response, last, ?_⟩
      rw [Storage.lookup_congr (entries_precache_of_movesOn (movesOn_installed _))]
      exact (stored href).trans (by rw [last, Option.some_or])

/-! ## After the installation -/

/-- Once a worker is installed, its precache changes no more, if no rule bounds it and the
rules of an activated worker store nothing in it. -/
theorem entries_precache_stage {worker : Worker} (ready : worker.state ≠ .installing)
    (unbounded : ∀ rule ∈ worker.routes.rules, rule.partition = some precachePartition →
      rule.effectiveExpiration = none)
    (idle : worker.state = .activated → ∀ rule ∈ worker.routes.rules,
      rule.workingPartition = precachePartition →
        rule.strategy.writesCache = false ∧ rule.effectiveExpiration = none)
    (environment : Environment ν) (operation : Operation) (world : ν) :
    (worker.stage environment operation world).after.stores.storage.entries precachePartition =
      worker.stores.storage.entries precachePartition := by
  cases operation with
  | install =>
      simp only [stage, perform, install, if_neg ready]
  | message data => exact entries_precache_of_movesOn (worker.movesOn_receive data)
  | activate => exact entries_precache_of_movesOn worker.movesOn_activate
  | fetch request signal given =>
      rcases worker.touched_handle request signal environment world given with
        ⟨stores, -, -⟩ | ⟨index, rule, active, -, matched, touched⟩
      · exact congrArg (·.storage.entries precachePartition) stores
      · apply touched.entries_eq
        exact idle active rule (CompiledRuleSet.mem_of_firstMatch matched)
  | replay => rfl
  | sweep => exact entries_precache_sweep unbounded environment.recorded (world, [])

end Worker

end CachePolicy
