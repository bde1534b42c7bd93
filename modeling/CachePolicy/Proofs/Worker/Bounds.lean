import CachePolicy.Proofs.Worker.Caches

/-!
# Caches stay within their bounds

After every history, a worker holds one response for a URL in each partition, complete
ones only, and no more than the rules allow.  Right after a request for which a response
was stored, nothing in its partition is too old, and the response is there as the newest
entry.

The clock may show any moments, also earlier ones than before.
-/

namespace CachePolicy

/-- What holds of the partitions of a worker at all times. -/
structure Storage.WithinBounds (ruleSet : RuleSet) (storage : Storage) : Prop where
  distinct : ∀ partition, (storage.urls partition).Nodup
  complete : ∀ partition, ∀ entry ∈ storage.entries partition, entry.response.status = 200
  bounded : ∀ rule ∈ ruleSet.rules, ∀ partition bounds most,
    rule.partition = some partition → rule.effectiveExpiration = some bounds →
    bounds.maxEntries = some most → (storage.entries partition).length ≤ most.toNat

/-- What holds right after a response was stored: it was the only one, it is the newest
entry of its partition, and no entry of the partition is too old at the last moment that
the clock has shown. -/
structure Stage.Stores (ruleSet : RuleSet) (stage : Stage) (deposit : Deposit) : Prop where
  alone : stage.deposits = [deposit]
  requested : ∃ request signal, stage.operation = .fetch request signal false ∧
    deposit.entry.url = request.href
  timed : (Observation.moments stage.observed).getLast? = some deposit.entry.storedAt
  newest : (stage.after.stores.storage.entries deposit.partition).getLast? = some deposit.entry
  fresh : ∀ rule ∈ ruleSet.rules, ∀ bounds seconds,
    rule.partition = some deposit.partition → rule.effectiveExpiration = some bounds →
    bounds.maxAgeSeconds = some seconds →
    ∀ entry ∈ stage.after.stores.storage.entries deposit.partition,
      deposit.entry.storedAt - entry.storedAt ≤ seconds.toNat * 1000

theorem Storage.KeptBy.withinBounds {ruleSet : RuleSet} {moments : List Moment}
    {deposits : List Deposit} {storage : Storage} (orderly : ruleSet.Orderly)
    (keptBy : storage.KeptBy ruleSet moments deposits) : storage.WithinBounds ruleSet where
  distinct partition := by
    obtain ⟨stored, kept, -⟩ := keptBy.kept partition
    exact kept.tidy.distinct
  complete partition entry member := by
    obtain ⟨stored, kept, -⟩ := keptBy.kept partition
    simpa [Response.isCacheable] using kept.tidy.complete entry member
  bounded rule member partition bounds most used limited limit := by
    obtain ⟨stored, kept, -⟩ := keptBy.kept partition
    have same := RuleSet.effectiveExpiration_eq_boundsOf orderly.clean member used
    apply kept.tidy.bounded bounds most (same.symm.trans limited)
    rw [Expiration.normalized_of_effectiveExpiration limited, limit]

/-- What a request leaves when a response was stored for it. -/
theorem Worker.Keeps.stores {ruleSet : RuleSet} {worker : Worker} {moments : List Moment}
    {deposits : List Deposit} (orderly : ruleSet.Orderly)
    (keeps : worker.Keeps ruleSet moments deposits) (environment : Environment ν)
    (operation : Operation) (world : ν) :
    ∀ deposit ∈ (worker.stage environment operation world).deposits,
      (worker.stage environment operation world).Stores ruleSet deposit := by
  intro deposit stored
  cases operation with
  | install | message data | activate | replay | sweep => exact absurd stored List.not_mem_nil
  | fetch request signal given =>
      rcases worker.touched_handle request signal environment world given with
        ⟨-, none, -⟩ | ⟨index, rule, -, rfl, matched, touched⟩
      · simp only [Worker.stage, Worker.deposits, none] at stored
        exact absurd stored List.not_mem_nil
      have member : rule ∈ ruleSet.rules := by
        rw [← keeps.routes]
        exact CompiledRuleSet.mem_of_firstMatch matched
      obtain ⟨entries, writes, alone, place, url, timed, left⟩ := touched.stored stored
      have uses := Strategy.usesCache_of_writesCache writes
      refine ⟨alone, ⟨request, signal, rfl, url⟩, timed, ?_, ?_⟩
      · rw [place]
        exact (congrArg List.getLast? left).trans (getLast?_tidied_append _ _ _)
      · intro other otherMember bounds seconds used limited limit entry found
        have same : rule.effectiveExpiration = some bounds := by
          rw [place] at used
          rw [orderly.bounds_eq member uses, ← limited,
            RuleSet.effectiveExpiration_eq_boundsOf orderly.clean otherMember used]
        rw [same, tidied] at left
        rw [place] at found
        have fresh := Expiration.isFresh_of_mem_swept (left ▸ found)
        have aged : bounds.normalized.maxAgeSeconds = some seconds := by
          rw [Expiration.normalized_of_effectiveExpiration limited, limit]
        exact Int.le_trans ((Expiration.isFresh_of_maxAge aged).mp fresh) (span_le seconds)

/-- Caches stay within their bounds, whatever the network and the clock do: each partition
holds one complete response for a URL, and as many as its bounds allow.  Right after a
request that stored a response, its partition holds nothing that is too old, and the
response as its newest entry. -/
theorem withinBounds_history {ruleSet : RuleSet} {start : Worker}
    (created : Worker.new ruleSet = .ok start) (orderly : ruleSet.Orderly)
    (environment : Environment ν) (steps : List (Operation × ν)) :
    let history := start.history environment steps
    history.worker.stores.storage.WithinBounds ruleSet ∧
      ∀ stage ∈ history.stages, ∀ deposit ∈ stage.deposits, stage.Stores ruleSet deposit := by
  refine (Worker.history_induction environment start
    (motive := fun history => history.worker.Keeps ruleSet history.moments history.deposits ∧
      history.worker.stores.storage.WithinBounds ruleSet ∧
      ∀ stage ∈ history.stages, ∀ deposit ∈ stage.deposits, stage.Stores ruleSet deposit)
    ?_ ?_ steps).2
  · have keeps := Worker.keeps_of_new created
    refine ⟨keeps, keeps.storage.withinBounds orderly, ?_⟩
    intro stage member
    exact absurd member List.not_mem_nil
  · rintro past operation world ⟨keeps, -, stores⟩
    have next := keeps.stage orderly environment operation world
    refine ⟨?_, next.storage.withinBounds orderly, ?_⟩
    · rw [History.moments_extend, History.deposits_extend]
      exact next
    · rw [History.forall_stages_extend]
      exact ⟨stores, keeps.stores orderly environment operation world⟩

/-- Two pages are asked for, the second of them while the clock goes back. -/
def lastPageSteps : List (Operation × Bench) :=
  [(.install, .at 0 twoPages false),
    (.fetch (.onSite "GET" "/a") none false, .at 5000 twoPages false),
    (.fetch (.onSite "GET" "/b") none false, .at 4000 twoPages false)]

theorem withinBounds_history_lastPage :
    let history := Worker.lastPage.history Bench.environment lastPageSteps
    history.worker.stores.storage.urls "pages" = ["http://localhost/b"] ∧
      history.deposits.length = 2 ∧
      history.worker.stores.storage.WithinBounds .lastPage ∧
      ∀ stage ∈ history.stages, ∀ deposit ∈ stage.deposits, stage.Stores .lastPage deposit := by
  refine ⟨by decide +kernel, by decide +kernel, ?_⟩
  exact withinBounds_history Worker.new_lastPage RuleSet.orderly_lastPage Bench.environment
    lastPageSteps

end CachePolicy
