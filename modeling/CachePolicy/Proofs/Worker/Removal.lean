import CachePolicy.Proofs.Worker.Bounds
import CachePolicy.Proofs.Worker.Traffic

/-!
# How entries are lost in traffic

An entry that one request has stored should stay until it is replaced, too old, or one of
the oldest of too many.  When several requests are under way there is one more way to lose
it: a request looks into its cache and finds an old entry, another stores a fresh one for
the same URL, and the first, which still has the old one in mind, removes what it finds
under the URL.  The two steps of the first request are each whole in themselves, but nothing
keeps the other from coming between them.

These are all the ways, whatever the interleaving, as long as the clock does not go back.
-/

namespace CachePolicy

/-! ## Single actions -/

theorem exists_last_of_pairwise {moments : List Moment} (ordered : moments.Pairwise (· ≤ ·))
    {moment : Moment} (member : moment ∈ moments) :
    ∃ now, moments.getLast? = some now ∧ moment ≤ now := by
  induction moments using List.reverseRecOn with
  | nil => cases member
  | append_singleton earlier now _ =>
      refine ⟨now, List.getLast?_concat, ?_⟩
      rcases List.mem_append.mp member with old | new
      · exact (List.pairwise_append.mp ordered).2.2 moment old now (List.mem_singleton_self now)
      · exact Int.le_of_eq (List.mem_singleton.mp new)

namespace Expiration

variable {bounds : Expiration} {moment : Moment} {entries : List CachedEntry}
variable {entry : CachedEntry}

/-- What is too old at some moment is too old ever after. -/
theorem exists_of_not_isFresh (stale : bounds.isFresh moment entry = false) {now : Moment}
    (later : moment ≤ now) : ∃ seconds, bounds.normalized.maxAgeSeconds = some seconds ∧
      span seconds < now - entry.storedAt := by
  rw [isFresh] at stale
  cases bounded : bounds.normalized.maxAgeSeconds with
  | none =>
      rw [bounded] at stale
      cases stale
  | some seconds =>
      rw [bounded] at stale
      have old : ¬moment - entry.storedAt ≤ span seconds := of_decide_eq_false stale
      refine ⟨seconds, rfl, ?_⟩
      exact Int.lt_of_lt_of_le (Int.not_le.mp old) (Int.sub_le_sub_right later _)

/-- The newest entries are those after one that is not among them. -/
theorem exists_of_notMem_newest (member : entry ∈ entries)
    (dropped : entry ∉ bounds.newest entries) :
    ∃ most older newer, bounds.normalized.maxEntries = some most ∧
      entries = older ++ entry :: newer ∧ (bounds.newest entries).Sublist newer ∧
      (bounds.newest entries).length = most.toNat := by
  rw [newest] at dropped ⊢
  cases bounded : bounds.normalized.maxEntries with
  | none =>
      rw [bounded] at dropped
      exact absurd member dropped
  | some most =>
      simp only [bounded] at dropped ⊢
      generalize cut : entries.length - most.toNat = count at dropped ⊢
      -- The entry is one of those cut off, and nothing is cut off unless there are too many.
      have parts := List.take_append_drop count entries
      have early : entry ∈ entries.take count := by
        rw [← parts] at member
        exact (List.mem_append.mp member).resolve_right dropped
      obtain ⟨older, rest, split⟩ := List.append_of_mem early
      have positive : 0 < count := by
        have room := List.length_take_le count entries
        rw [split, List.length_append, List.length_cons] at room
        omega
      refine ⟨most, older, rest ++ entries.drop count, rfl, ?_, List.sublist_append_right _ _, ?_⟩
      · rw [← List.cons_append, ← List.append_assoc, ← split, parts]
      · rw [List.length_drop]
        omega

/-- A sweep drops what is too old, and what is too old a part of too many. -/
theorem cases_of_notMem_swept (member : entry ∈ entries)
    (dropped : entry ∉ bounds.swept moment entries) :
    bounds.isFresh moment entry = false ∨
      ∃ most older newer, bounds.normalized.maxEntries = some most ∧
        entries = older ++ entry :: newer ∧ (bounds.swept moment entries).Sublist newer ∧
        (bounds.swept moment entries).length = most.toNat := by
  cases fresh : bounds.isFresh moment entry with
  | false => exact .inl rfl
  | true =>
      right
      have kept : entry ∈ entries.filter (bounds.isFresh moment) :=
        List.mem_filter.mpr ⟨member, fresh⟩
      obtain ⟨most, older, newer, limit, split, left, full⟩ :=
        exists_of_notMem_newest kept dropped
      obtain ⟨before, behind, rfl, -, rest⟩ := List.filter_eq_append_iff.mp split
      obtain ⟨stale, after, rfl, -, -, same⟩ := List.filter_eq_cons_iff.mp rest
      refine ⟨most, before ++ stale, after, limit, by rw [List.append_assoc], ?_, full⟩
      rw [← same] at left
      exact left.trans List.filter_sublist

end Expiration

/-- An entry is lost in one of three ways: a response for its URL is stored, its URL is
cleared, or its partition is swept. -/
theorem Storage.cases_of_notMem_apply {storage : Storage} {action : Action} {partition : String}
    {entry : CachedEntry} (member : entry ∈ storage.entries partition)
    (lost : entry ∉ (action.apply storage).entries partition) :
    (∃ other, action = .put partition other ∧ other.url = entry.url) ∨
      action = .delete partition entry.url ∨
      ∃ bounds moment, action = .sweep partition bounds moment ∧
        entry ∉ bounds.swept moment (storage.entries partition) := by
  cases action with
  | clock moment => exact absurd member lost
  | lookup other url found => exact absurd member lost
  | exchange call reply => exact absurd member lost
  | enqueue queue request moment => exact absurd member lost
  | put other fresh =>
      left
      rw [Action.apply, entries_put] at lost
      split at lost
      next same =>
        subst same
        refine ⟨fresh, rfl, ?_⟩
        by_contra differs
        exact lost (List.mem_append_left _ (mem_without.mpr ⟨member, Ne.symm differs⟩))
      next => exact absurd member lost
  | delete other url =>
      right
      left
      rw [Action.apply, entries_delete] at lost
      split at lost
      next same =>
        subst same
        have named : entry.url = url := by
          by_contra differs
          exact lost (mem_without.mpr ⟨member, differs⟩)
        rw [named]
      next => exact absurd member lost
  | sweep other bounds moment =>
      right
      right
      rw [Action.apply, entries_sweep] at lost
      split at lost
      next same =>
        subst same
        exact ⟨bounds, moment, rfl, lost⟩
      next => exact absurd member lost

/-! ## Removals -/

/-- Why traffic has just lost an entry of a partition. -/
inductive Removal (ruleSet : RuleSet) (partition : String) (entry : CachedEntry)
    (before after : Traffic) : Prop where
  /-- A response was stored for the same URL. -/
  | replaced {request : Nat} {other : CachedEntry} :
      after.turns = before.turns ++ [⟨request, .put partition other⟩] → other.url = entry.url →
      Removal ruleSet partition entry before after
  /-- The entry is older by now than the partition allows. -/
  | expired {limits : Expiration} {seconds : UInt64} {now : Moment} :
      ruleSet.boundsOf partition = some limits → limits.maxAgeSeconds = some seconds →
      after.moments.getLast? = some now → span seconds < now - entry.storedAt →
      Removal ruleSet partition entry before after
  /-- A sweep has left as many entries as the partition may have, all of them newer. -/
  | evicted {request : Nat} {limits : Expiration} {moment : Moment} {most : UInt32}
      {older newer : List CachedEntry} :
      after.turns = before.turns ++ [⟨request, .sweep partition limits moment⟩] →
      ruleSet.boundsOf partition = some limits → limits.maxEntries = some most →
      before.stores.storage.entries partition = older ++ entry :: newer →
      (after.stores.storage.entries partition).Sublist newer →
      (after.stores.storage.entries partition).length = most.toNat →
      Removal ruleSet partition entry before after
  /-- A request has cleared the URL because of an older entry that it had found there, and
  another request has stored this one in between. -/
  | overtaken {request other : Nat} {old : CachedEntry} {limits : Expiration} {moment : Moment}
      {earlier between : List Turn} :
      before.turns =
        earlier ++ ⟨request, .lookup partition entry.url (some old)⟩ :: between →
      after.turns = before.turns ++ [⟨request, .delete partition entry.url⟩] →
      ruleSet.boundsOf partition = some limits → ⟨request, .clock moment⟩ ∈ between →
      limits.isFresh moment old = false → limits.isFresh moment entry = true →
      other ≠ request → ⟨other, .put partition entry⟩ ∈ between →
      Removal ruleSet partition entry before after

namespace Traffic

variable {environment : Environment ν} {worker : Worker} {traffic : Traffic} {request : Nat}
variable {partition : String} {entry : CachedEntry}

/-- An entry under a URL where a request has found another must have been stored since, and
by another request. -/
theorem Lawful.exists_put (lawful : traffic.Lawful worker)
    (distinct : (worker.stores.storage.urls partition).Nodup) {past : List Action}
    {old : CachedEntry} {moment : Moment}
    (own : pastOf traffic.turns request =
      past ++ [.lookup partition entry.url (some old)] ++ [.clock moment])
    (member : entry ∈ traffic.stores.storage.entries partition) (differs : entry ≠ old) :
    ∃ earlier between other,
      traffic.turns = earlier ++ ⟨request, .lookup partition entry.url (some old)⟩ :: between ∧
      ⟨request, .clock moment⟩ ∈ between ∧ other ≠ request ∧
      ⟨other, .put partition entry⟩ ∈ between := by
  obtain ⟨earlier, between, split, rest⟩ := exists_of_pastOf_eq own
  have seen : ⟨request, .clock moment⟩ ∈ between := by
    rw [← mem_pastOf, rest]
    exact List.mem_singleton_self _
  have told := lawful.tells
  rw [lawful.stored] at member
  rw [actions, split, List.map_append, List.map_cons] at told member
  rw [Storage.after_append, Storage.after_cons] at member
  have looked := (Storage.tells_append.mp told).2.1
  -- Had it been there at the look-up, it would have been found.
  rcases Storage.mem_entries_after member with here | stored
  · have before := Storage.nodup_urls_after distinct (earlier.map (·.action))
    exact absurd (Storage.eq_of_lookup before here looked.symm rfl) differs
  · obtain ⟨⟨other, _⟩, turn, rfl⟩ := List.mem_map.mp stored
    refine ⟨earlier, between, other, split, seen, ?_, turn⟩
    rintro rfl
    have mine := mem_pastOf.mpr turn
    rw [rest] at mine
    cases List.mem_singleton.mp mine

variable {ruleSet : RuleSet} {moments : List Moment} {deposits : List Deposit}

/-- The bounds of a rule are those of its partition. -/
theorem boundsOf_of_rule (orderly : ruleSet.Orderly)
    (keeps : worker.Keeps ruleSet moments deposits) {rule : CachingRule}
    (member : rule ∈ worker.routes.rules) {bounds : Expiration}
    (bounded : rule.effectiveExpiration = some bounds) :
    ruleSet.boundsOf rule.workingPartition = some bounds ∧ bounds.normalized = bounds := by
  rw [keeps.routes] at member
  have uses := CachingRule.usesCache_of_effectiveExpiration bounded
  rw [← orderly.bounds_eq member uses]
  exact ⟨bounded, Expiration.normalized_of_effectiveExpiration bounded⟩

/-- A step of traffic loses an entry for one of the four reasons. -/
theorem Lawful.removal_step (lawful : traffic.Lawful worker) (orderly : ruleSet.Orderly)
    (keeps : worker.Keeps ruleSet moments deposits) (world : ν)
    (ordered : (traffic.step environment request world).moments.Pairwise (· ≤ ·))
    (member : entry ∈ traffic.stores.storage.entries partition)
    (lost : entry ∉ (traffic.step environment request world).stores.storage.entries partition) :
    Removal ruleSet partition entry traffic (traffic.step environment request world) := by
  rcases traffic.step_cases environment request world with
    same | ⟨task, action, present, acts, stepped⟩
  · rw [same] at lost
    exact absurd member lost
  obtain ⟨page, abides⟩ := lawful.abides request task present
  have allowed := (abides.step acts).1
  have turns : (traffic.step environment request world).turns =
      traffic.turns ++ [⟨request, action⟩] := by rw [stepped]
  have changed : (traffic.step environment request world).stores.storage =
      action.apply traffic.stores.storage := by
    rw [stepped]
    exact (Task.storage_step acts).1
  -- What was too old when a request looked at the clock is too old now.
  have expired {limits : Expiration} {moment : Moment}
      (bounded : ruleSet.boundsOf partition = some limits) (normal : limits.normalized = limits)
      (seen : .clock moment ∈ pastOf traffic.turns request)
      (stale : limits.isFresh moment entry = false) :
      Removal ruleSet partition entry traffic (traffic.step environment request world) := by
    have shown : moment ∈ (traffic.step environment request world).moments := by
      rw [Traffic.moments, Action.mem_moments, Traffic.actions, turns, List.map_append]
      exact List.mem_append_left _ (List.mem_map.mpr ⟨_, mem_pastOf.mp seen, rfl⟩)
    obtain ⟨now, last, later⟩ := exists_last_of_pairwise ordered shown
    obtain ⟨seconds, limit, old⟩ := Expiration.exists_of_not_isFresh stale later
    rw [normal] at limit
    exact .expired bounded limit last old
  rw [changed] at lost
  rcases Storage.cases_of_notMem_apply member lost with
    ⟨other, rfl, named⟩ | rfl | ⟨bounds, moment, rfl, dropped⟩
  · exact .replaced turns named
  · obtain ⟨rule, listed, past, old, moment, bounds, rfl, own, limited, stale⟩ := allowed.delete
    obtain ⟨bounded, normal⟩ := boundsOf_of_rule orderly keeps listed limited
    cases fresh : bounds.isFresh moment entry with
    | false =>
        apply expired bounded normal _ fresh
        rw [own]
        exact List.mem_concat_self
    | true =>
        have differs : entry ≠ old := by
          rintro rfl
          rw [fresh] at stale
          cases stale
        have distinct := (keeps.storage.withinBounds orderly).distinct rule.workingPartition
        obtain ⟨earlier, between, other, split, seen, another, stored⟩ :=
          lawful.exists_put distinct own member differs
        exact .overtaken split turns bounded seen stale fresh another stored
  · obtain ⟨rule, listed, rfl, limited, seen⟩ := allowed.sweep
    obtain ⟨bounded, normal⟩ := boundsOf_of_rule orderly keeps listed limited
    rcases Expiration.cases_of_notMem_swept member dropped with
      stale | ⟨most, older, newer, limit, split, left, full⟩
    · exact expired bounded normal seen stale
    · have swept : (traffic.step environment request world).stores.storage.entries
          rule.workingPartition =
            bounds.swept moment (traffic.stores.storage.entries rule.workingPartition) := by
        rw [changed, Action.apply, Storage.entries_sweep, if_pos rfl]
      rw [normal] at limit
      rw [← swept] at left full
      exact .evicted turns bounded limit split left full

end Traffic

/-- How an entry is lost while requests are under way.  After any history of a worker with
orderly rules, let any number of requests take their steps in any order, while the clock
does not go back.  When an entry leaves its partition, it is replaced, too old, or evicted
as one of the oldest, or else it is a victim of the one window between two steps: a request
clears its URL because of an older entry, and another has stored this one meanwhile. -/
theorem removal_traffic {ruleSet : RuleSet} {start : Worker}
    (created : Worker.new ruleSet = .ok start) (orderly : ruleSet.Orderly)
    (environment : Environment ν) (steps : List (Operation × ν)) {worker : Worker}
    (ran : (start.history environment steps).worker = worker) (moves : List (Move × ν))
    (move : Move) (world : ν) {before after : Traffic}
    (played : worker.traffic environment moves = before)
    (moved : before.next environment worker move world = after)
    (ordered : after.moments.Pairwise (· ≤ ·)) {partition : String} {entry : CachedEntry}
    (member : entry ∈ before.stores.storage.entries partition)
    (lost : entry ∉ after.stores.storage.entries partition) :
    Removal ruleSet partition entry before after := by
  have keeps := Worker.keeps_history created orderly environment steps
  have lawful := worker.lawful_traffic environment moves
  subst ran played moved
  cases move with
  | arrives request signal given => exact absurd member lost
  | steps request => exact lawful.removal_step orderly keeps world ordered member lost

/-- A worker with one rule, installed and activated. -/
def Worker.lastPageActive : Worker :=
  (Worker.lastPage.history Bench.environment [(.install, .at 0 twoPages false)]).worker

/-- Two pages are asked for at once.  The second is about to be the only one that stays. -/
def pagesTraffic : Traffic :=
  let moves : List Move := [.arrives (.onSite "GET" "/a") none false,
    .arrives (.onSite "GET" "/b") none false] ++ List.replicate 6 (.steps 0) ++
      List.replicate 5 (.steps 1)
  Worker.lastPageActive.traffic Bench.environment (moves.map (·, .at 0 twoPages false))

theorem removal_traffic_pages :
    let entry : CachedEntry := ⟨"http://localhost/a", .ok ByteArray.empty, 0⟩
    let after := pagesTraffic.next Bench.environment .lastPageActive (.steps 1)
      (.at 0 twoPages false)
    entry ∈ pagesTraffic.stores.storage.entries "pages" ∧
      entry ∉ after.stores.storage.entries "pages" ∧
      Removal .lastPage "pages" entry pagesTraffic after := by
  intro entry after
  have member : entry ∈ pagesTraffic.stores.storage.entries "pages" := by decide +kernel
  have lost : entry ∉ after.stores.storage.entries "pages" := by decide +kernel
  refine ⟨member, lost, ?_⟩
  exact removal_traffic Worker.new_lastPage RuleSet.orderly_lastPage Bench.environment _ rfl _ _ _
    rfl rfl (by decide +kernel) member lost

/-- The worker has stored a page, a minute before anything else happens. -/
def Worker.lastPageStored : Worker :=
  (Worker.lastPage.history Bench.environment [(.install, .at 0 twoPages false),
    (.fetch (.onSite "GET" "/a") none false, .at 0 twoPages false)]).worker

/-- The page as it is fetched anew. -/
def freshPage : CachedEntry := ⟨"http://localhost/a", .ok ByteArray.empty, 61000⟩

/-- The page is asked for twice at once, when the stored one is too old.  The first request
has found it and seen the clock; the second has been answered and has stored the page. -/
def overtakenTraffic : Traffic :=
  let request : Move := .arrives (.onSite "GET" "/a") none false
  let moves := [request, request, .steps 0, .steps 0] ++ List.replicate 8 (.steps 1) ++ [.steps 0]
  Worker.lastPageStored.traffic Bench.environment (moves.map (·, .at 61000 twoPages false))

/-- The first request removes the page that the second has just stored. -/
theorem fresh_page_overtaken :
    let after := overtakenTraffic.next Bench.environment .lastPageStored (.steps 0)
      (.at 61000 twoPages false)
    overtakenTraffic.stores.storage.entries "pages" = [freshPage] ∧
      Turn.mk 1 (.put "pages" freshPage) ∈ overtakenTraffic.turns ∧
      after.turns.getLast? = some ⟨0, .delete "pages" freshPage.url⟩ ∧
      after.stores.storage.entries "pages" = [] ∧ after.moments = [61000, 61000, 61000] ∧
      (RuleSet.lastPage.boundsOf "pages").map (·.isFresh 61000 freshPage) = some true := by
  decide +kernel

end CachePolicy
