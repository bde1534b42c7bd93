import CachePolicy.Proofs.Worker.Lifecycle

/-!
# Installations that fail

An installation stops at the first entry that cannot be stored ahead: its URL cannot be read, the
network does not answer, or the answer is not complete.  The worker is of no use any more when the
network is to blame.  A URL that cannot be read leaves the worker new, so that it may be asked to
install itself again, which is in vain: no installation gets past that URL.  One way or the other,
the worker is never installed and never activated.
-/

namespace CachePolicy

/-- Why an entry cannot be stored ahead: the exchanges with the network that it takes to find out,
and the error. -/
inductive PrecacheEntry.Fails (entry : PrecacheEntry) :
    List (Call × Reply) → WorkerError → Prop where
  | unread {error : RuleError} :
      PageRequest.get entry.url = .error error → Fails entry [] (.rule error)
  | unanswered {request : PageRequest} {reply : Reply} {error : FetchError} :
      PageRequest.get entry.url = .ok request → reply.result = .error error →
      Fails entry [(⟨request, none, none⟩, reply)] (.precacheFailed entry.url error.message)
  | incomplete {request : PageRequest} {reply : Reply} {response : Response} :
      PageRequest.get entry.url = .ok request → reply.result = .ok response →
      response.status ≠ 200 →
      Fails entry [(⟨request, none, none⟩, reply)]
        (.precacheFailed entry.url s!"status {response.status}")

/-- An installation that stops at an entry. -/
structure Stage.StopsAt (stage : Stage) (entry : PrecacheEntry) (error : WorkerError) :
    Prop where
  /-- A complete response was fetched for every entry before, and none for this one. -/
  listed : ∃ stored left made last,
    stage.before.ruleSet.precache.entries = stored ++ entry :: left ∧
      Observation.exchanges stage.observed = made ++ last ∧
      List.Forall₂ PrecacheEntry.Fetched stored made ∧ entry.Fails last error
  redundant : ∀ request, PageRequest.get entry.url = .ok request →
    stage.after.state = .redundant
  new : ∀ reason, PageRequest.get entry.url = .error reason → stage.after.state = .installing

namespace PrecacheEntry.Fails

variable {entry : PrecacheEntry} {exchanges : List (Call × Reply)} {error : WorkerError}

theorem stateAfter_of_read (fails : entry.Fails exchanges error) {request : PageRequest}
    (read : PageRequest.get entry.url = .ok request) : Worker.stateAfter error = .redundant := by
  cases fails with
  | unread unread => cases unread.symm.trans read
  | unanswered => rfl
  | incomplete => rfl

theorem stateAfter_of_unread (fails : entry.Fails exchanges error) {reason : RuleError}
    (unread : PageRequest.get entry.url = .error reason) :
    Worker.stateAfter error = .installing := by
  cases fails with
  | unread => rfl
  | unanswered read => cases unread.symm.trans read
  | incomplete read => cases unread.symm.trans read

end PrecacheEntry.Fails

namespace Worker

variable {error : WorkerError}

/-- When not all entries are stored, one of them fails, and those before it do not. -/
theorem exists_fails_of_precaching {entries : List PrecacheEntry} {storage after : Storage}
    {learned : List Observation} {result : Except WorkerError Unit}
    (precaching : Precaching entries storage learned result after)
    (stopped : result = .error error) :
    ∃ stored entry left made last, entries = stored ++ entry :: left ∧
      Observation.exchanges learned = made ++ last ∧
      List.Forall₂ PrecacheEntry.Fetched stored made ∧ entry.Fails last error := by
  induction precaching with
  | finished => cases stopped
  | unread read =>
      cases stopped
      exact ⟨[], _, _, [], [], rfl, rfl, .nil, .unread read⟩
  | unanswered read answered =>
      cases stopped
      exact ⟨[], _, _, [], _, rfl, rfl, .nil, .unanswered read answered⟩
  | @incomplete entry rest storage request reply response read answered incomplete =>
      cases stopped
      have status : response.status ≠ 200 := by simpa [Response.isCacheable] using incomplete
      exact ⟨[], _, _, [], _, rfl, rfl, .nil, .incomplete read answered status⟩
  | @stored entry rest storage after request reply response learned result read answered complete
      moment precaching ih =>
      have status : response.status = 200 := by simpa [Response.isCacheable] using complete
      obtain ⟨stored, failing, left, made, last, rfl, exchanges, fetched, fails⟩ := ih stopped
      refine ⟨entry :: stored, failing, left, (⟨request, none, none⟩, reply) :: made, last, rfl,
        ?_, .cons ⟨read, ⟨rfl, rfl⟩, response, answered, status⟩ fetched, fails⟩
      simp [exchanges]

variable {worker : Worker} {environment : Environment ν} {world : ν}

/-- An installation that fails stops at an entry. -/
theorem exists_stopsAt (new : worker.state = .installing)
    (failed : (worker.stage environment .install world).answer = .installed (.error error)) :
    ∃ entry, (worker.stage environment .install world).StopsAt entry error := by
  obtain ⟨result, storage, learned, precaching, staged⟩ :=
    worker.exists_stage_install environment world new
  rw [staged] at failed ⊢
  cases result with
  | ok done => cases failed
  | error e =>
      cases failed
      obtain ⟨stored, entry, left, made, last, entries, exchanges, fetched, fails⟩ :=
        exists_fails_of_precaching precaching rfl
      refine ⟨entry, ⟨stored, left, made, last, entries, exchanges, fetched, fails⟩, ?_, ?_⟩
      · exact fun request => fails.stateAfter_of_read
      · exact fun reason => fails.stateAfter_of_unread

/-! ## No way back -/

/-- A worker that no operation installs: it is redundant, or new with a URL that cannot be read. -/
structure Barred (worker : Worker) : Prop where
  state : worker.state = .installing ∨ worker.state = .redundant
  unread : worker.state = .installing → ∃ entry ∈ worker.ruleSet.precache.entries, ∃ reason,
    PageRequest.get entry.url = .error reason

namespace Barred

/-- A new worker with a URL that cannot be read is not installed. -/
theorem not_installs (barred : worker.Barred) (new : worker.state = .installing) (stage : Stage) :
    ¬ stage.Installs worker.ruleSet := by
  intro installs
  obtain ⟨entry, member, reason, unread⟩ := barred.unread new
  obtain ⟨exchange, -, fetched⟩ := PrecacheEntry.exists_fetched_of_mem installs.fetched member
  cases unread.symm.trans fetched.request

/-- No operation brings such a worker any further. -/
theorem stage (barred : worker.Barred) (environment : Environment ν) (operation : Operation)
    (world : ν) : (worker.stage environment operation world).after.Barred := by
  have moves := worker.moves_stage environment operation world
  have kept := (worker.rules_stage environment operation world).1
  rcases barred.state with new | final
  · have stuck (ready : (worker.stage environment operation world).after.state = .installed ∨
        (worker.stage environment operation world).after.state = .activated) : False :=
      barred.not_installs new _ (installs_of_installing new ready)
    rw [new] at moves
    constructor
    case state =>
      generalize (worker.stage environment operation world).after.state = state at moves stuck ⊢
      cases moves with
      | stays => exact .inl rfl
      | waits => exact (stuck (.inl rfl)).elim
      | starts => exact (stuck (.inr rfl)).elim
      | fails => exact .inr rfl
    case unread =>
      intro _
      rw [kept]
      exact barred.unread new
  · have same := moves.eq_of_final (.inr final)
    constructor
    case state => exact .inr (same.trans final)
    case unread =>
      intro new
      rw [same, final] at new
      cases new

theorem history (barred : worker.Barred) (environment : Environment ν)
    (steps : List (Operation × ν)) : (worker.history environment steps).worker.Barred :=
  history_induction environment worker (motive := fun history => history.worker.Barred) barred
    (fun _ operation world barred => barred.stage environment operation world) steps

end Barred

/-- An installation that fails bars the worker. -/
theorem barred_of_stopsAt {entry : PrecacheEntry}
    (stops : (worker.stage environment .install world).StopsAt entry error) :
    (worker.stage environment .install world).after.Barred := by
  obtain ⟨stored, left, -, -, entries, -⟩ := stops.listed
  have member : entry ∈ worker.ruleSet.precache.entries := by
    have listed : worker.ruleSet.precache.entries = stored ++ entry :: left := entries
    rw [listed]
    exact List.mem_append_right _ List.mem_cons_self
  cases read : PageRequest.get entry.url with
  | ok request =>
      have final := stops.redundant request read
      refine ⟨.inr final, ?_⟩
      intro new
      cases new.symm.trans final
  | error reason =>
      refine ⟨.inl (stops.new reason read), ?_⟩
      intro _
      rw [(worker.rules_stage environment .install world).1]
      exact ⟨entry, member, reason, read⟩

end Worker

/-- When a new worker fails to install itself, the installation has stopped at the first entry that
cannot be stored ahead.  The worker is redundant then, unless the URL of that entry cannot be read,
which leaves it new.  It is never installed or activated later, whatever is asked of it, and if it
is redundant, it stays so. -/
theorem failed_installation_final {environment : Environment ν} {worker : Worker} {world : ν}
    {error : WorkerError} (new : worker.state = .installing)
    (failed : (worker.stage environment .install world).answer = .installed (.error error)) :
    let stage := worker.stage environment .install world
    (∃ entry, stage.StopsAt entry error) ∧
      ∀ steps, let later := (stage.after.history environment steps).worker
        (later.state = .installing ∨ later.state = .redundant) ∧
          (stage.after.state = .redundant → later.state = .redundant) := by
  intro stage
  obtain ⟨entry, stops⟩ := Worker.exists_stopsAt new failed
  refine ⟨⟨entry, stops⟩, ?_⟩
  intro steps later
  have barred := (Worker.barred_of_stopsAt stops).history environment steps
  refine ⟨barred.state, ?_⟩
  intro final
  exact (stage.after.state_append environment [] steps (.inr final)).trans final

/-- A worker without a network is redundant, and it cannot be installed once the network is back. -/
theorem failed_installation_final_offline :
    let stage := (Worker.bothPages true false).stage Bench.environment .install (.at 0 [] true)
    stage.answer = .installed (.error (.precacheFailed "/a" "network unreachable")) ∧
      (∃ entry, stage.StopsAt entry (.precacheFailed "/a" "network unreachable")) ∧
      stage.after.state = .redundant ∧
      (stage.after.history Bench.environment
        [(.install, .at 1 twoPages false)]).worker.state = .redundant := by
  intro stage
  have failed : stage.answer = .installed (.error (.precacheFailed "/a" "network unreachable")) :=
    rfl
  have redundant : stage.after.state = .redundant := by decide +kernel
  obtain ⟨stops, final⟩ := failed_installation_final rfl failed
  exact ⟨failed, stops, redundant, (final _).2 redundant⟩

/-- A policy that stores ahead what has no host. -/
def RuleSet.hostless : RuleSet :=
  { RuleSet.bothPages true false with precache := ⟨[.unversioned "http://"]⟩ }

/-- Its worker cannot be installed, and is not redundant. -/
theorem hostless_installation_fails :
    ∃ start, Worker.new .hostless = .ok start ∧
      let stage := start.stage Bench.environment .install (.at 0 [] false)
      stage.answer = .installed (.error (.rule (.invalidUrl "http://" .emptyHost))) ∧
        stage.after.state = .installing := by
  have created : Worker.new .hostless = .ok _ := rfl
  exact ⟨_, created, rfl, by decide +kernel⟩

end CachePolicy
