import CachePolicy.Proofs.Worker.Installation

/-!
# The life cycle of a worker

A new worker is installed once, waits unless it is told not to, and is activated once.  It
answers requests only after that, and stays as it is then; so does a worker whose
installation failed.

A worker comes this far only if everything that it is to store ahead was fetched and
stored.  What is stored may be lost again while the worker waits, but only to a sweep of a
rule that has the precache as its cache and bounds it.
-/

namespace CachePolicy

/-- Whether an operation is a message that asks the worker not to wait. -/
def Operation.asks : Operation → Bool
  | .message data => Worker.asksToSkipWaiting data
  | _ => false

/-! ## What one operation does -/

namespace Worker

/-- How far a worker has come, whether it goes on without waiting, and whether it has
claimed the pages. -/
structure Status where
  state : WorkerState
  skipWaiting : Bool
  clientsClaimed : Bool

/-- The status of a worker. -/
def status (worker : Worker) : Status :=
  ⟨worker.state, worker.skipWaiting, worker.clientsClaimed⟩

/-- What an operation makes of the status of a worker. -/
inductive Advances (worker : Worker) (operation : Operation) : Status → Prop where
  | stays : operation.asks = false → Advances worker operation worker.status
  | asked : operation.asks = true → worker.state ≠ .installed →
      Advances worker operation ⟨worker.state, true, worker.clientsClaimed⟩
  | fails : operation = .install → worker.state = .installing →
      Advances worker operation ⟨.redundant, worker.skipWaiting, worker.clientsClaimed⟩
  | waits : operation = .install → worker.state = .installing → worker.skipWaiting = false →
      Advances worker operation ⟨.installed, worker.skipWaiting, worker.clientsClaimed⟩
  | starts : operation = .install → worker.state = .installing →
      Advances worker operation ⟨.activated, worker.skipWaiting,
        worker.clientsClaimed || worker.ruleSet.lifecycle.clientsClaim⟩
  | takesOver : worker.state = .installed →
      Advances worker operation ⟨.activated, worker.skipWaiting || operation.asks,
        worker.clientsClaimed || worker.ruleSet.lifecycle.clientsClaim⟩

variable (environment : Environment ν) (worker : Worker) (operation : Operation) (world : ν)

theorem advances_install :
    worker.Advances .install (worker.stage environment .install world).after.status := by
  cases worker.installEnds environment world with
  | refused _ idle =>
      rw [idle]
      exact .stays rfl
  | failed error storage new _ after =>
      rw [after]
      cases error with
      | rule error =>
          have same : status { worker.withStorage storage with state := stateAfter (.rule error) } =
              worker.status := by
            rw [status, status, new]
            rfl
          rw [same]
          exact .stays rfl
      | precacheFailed url reason => exact .fails rfl new
      | invalidState action state => exact .fails rfl new
      | network error => exact .fails rfl new
      | cacheMiss cache url => exact .fails rfl new
  | succeeded storage new _ after =>
      rw [after, installed]
      cases asked : worker.skipWaiting with
      | false =>
          have waits : worker.Advances .install _ := .waits rfl new asked
          simpa [withStorage, status, asked] using waits
      | true =>
          have starts : worker.Advances .install _ := .starts rfl new
          simpa [withStorage, status, asked, activated] using starts

/-- Every operation makes of the status of a worker what it may. -/
theorem advances_stage :
    worker.Advances operation (worker.stage environment operation world).after.status := by
  cases operation with
  | install => exact worker.advances_install environment world
  | message data =>
      simp only [stage, perform, receive]
      cases asks : asksToSkipWaiting data with
      | false => exact .stays asks
      | true =>
          by_cases ready : worker.state = .installed
          · have takesOver : worker.Advances (.message data) _ := .takesOver ready
            simpa [ready, Operation.asks, asks, status, activated] using takesOver
          · simp only [ready, if_true, if_false]
            exact .asked asks ready
  | activate =>
      simp only [stage, perform, activate]
      by_cases ready : worker.state = .installed
      · have takesOver : worker.Advances .activate _ := .takesOver ready
        simpa [ready, Operation.asks, status, activated] using takesOver
      · simp only [ready, if_false]
        exact .stays rfl
  | fetch request signal given => exact .stays rfl
  | replay => exact .stays rfl
  | sweep => exact .stays rfl

variable {environment worker operation world}

/-- Only an installation that succeeds takes a new worker any further. -/
theorem installs_of_installing (new : worker.state = .installing)
    (reached : (worker.stage environment operation world).after.state = .installed ∨
      (worker.stage environment operation world).after.state = .activated) :
    (worker.stage environment operation world).Installs worker.ruleSet := by
  have installs : operation = .install := by
    have advances := worker.advances_stage environment operation world
    generalize become : (worker.stage environment operation world).after.status = status
      at advances
    have state := congrArg Status.state become
    cases advances with
    | stays _ =>
        rw [show (worker.stage environment operation world).after.state = .installing from
          state.trans new] at reached
        rcases reached with impossible | impossible <;> cases impossible
    | asked _ _ =>
        rw [show (worker.stage environment operation world).after.state = .installing from
          state.trans new] at reached
        rcases reached with impossible | impossible <;> cases impossible
    | fails same _ => exact same
    | waits same _ _ => exact same
    | starts same _ => exact same
    | takesOver ready =>
        rw [new] at ready
        cases ready
  subst installs
  cases worker.installEnds environment world with
  | refused old _ => exact absurd new old
  | failed error storage _ _ after =>
      rw [after] at reached
      cases error <;> rcases reached with impossible | impossible <;> cases impossible
  | succeeded storage _ installs _ => exact installs

end Worker

/-! ## Refusals -/

/-- What a worker is asked at the wrong time, it refuses or leaves to the browser, and it
changes nothing. -/
structure Stage.Refuses (stage : Stage) : Prop where
  install : stage.operation = .install → stage.before.state ≠ .installing →
    stage = .idle stage.before .install
      (.installed (.error (.invalidState "install" stage.before.state)))
  activate : stage.operation = .activate → stage.before.state ≠ .installed →
    stage = .idle stage.before .activate
      (.activated (.error (.invalidState "activate" stage.before.state)))
  fetch : ∀ request signal given, stage.operation = .fetch request signal given →
    stage.before.state ≠ .activated →
    stage = .idle stage.before (.fetch request signal given) (.fetched .passthrough)

theorem Worker.refuses_stage (environment : Environment ν) (worker : Worker)
    (operation : Operation) (world : ν) :
    (worker.stage environment operation world).Refuses where
  install asked old := by
    obtain rfl : operation = .install := asked
    cases worker.installEnds environment world with
    | refused _ idle => exact idle
    | failed _ _ new _ _ => exact absurd new old
    | succeeded _ new _ _ => exact absurd new old
  activate asked early := by
    obtain rfl : operation = .activate := asked
    have wrong : worker.state ≠ .installed := early
    simp only [stage, perform, Worker.activate, if_neg wrong]
    rfl
  fetch request signal given asked inactive := by
    obtain rfl : operation = .fetch request signal given := asked
    have left := worker.handle_of_not_activated request signal inactive given
    simp only [stage, perform, Worker.fetch, deposits, left]
    rfl

/-! ## Histories -/

/-- Which states may follow one another. -/
inductive WorkerState.Moves : WorkerState → WorkerState → Prop where
  | stays (state : WorkerState) : Moves state state
  | waits : Moves .installing .installed
  | starts : Moves .installing .activated
  | fails : Moves .installing .redundant
  | takesOver : Moves .installed .activated

namespace WorkerState.Moves

variable {before after : WorkerState}

/-- A worker that is activated or redundant stays so. -/
theorem eq_of_final (moves : before.Moves after)
    (final : before = .activated ∨ before = .redundant) : after = before := by
  cases moves with
  | stays state => rfl
  | waits => rcases final with impossible | impossible <;> cases impossible
  | starts => rcases final with impossible | impossible <;> cases impossible
  | fails => rcases final with impossible | impossible <;> cases impossible
  | takesOver => rcases final with impossible | impossible <;> cases impossible

/-- A worker that is installed or activated was so before, or it was new. -/
theorem ready_of_ready (moves : before.Moves after)
    (ready : after = .installed ∨ after = .activated) (old : before ≠ .installing) :
    before = .installed ∨ before = .activated := by
  cases moves with
  | stays state => exact ready
  | waits => exact absurd rfl old
  | starts => exact absurd rfl old
  | fails => exact absurd rfl old
  | takesOver => exact .inl rfl

theorem eq_installed (moves : before.Moves .installed) (old : before ≠ .installing) :
    before = .installed := by
  cases moves with
  | stays state => rfl
  | waits => exact absurd rfl old

end WorkerState.Moves

namespace Worker

variable {worker : Worker} {operation : Operation} {status : Status}

theorem Advances.moves (advances : worker.Advances operation status) :
    worker.state.Moves status.state := by
  cases advances with
  | stays _ => exact .stays _
  | asked _ _ => exact .stays _
  | fails _ new =>
      rw [new]
      exact .fails
  | waits _ new _ =>
      rw [new]
      exact .waits
  | starts _ new =>
      rw [new]
      exact .starts
  | takesOver ready =>
      rw [ready]
      exact .takesOver

theorem moves_stage (environment : Environment ν) (worker : Worker) (operation : Operation)
    (world : ν) :
    worker.state.Moves (worker.stage environment operation world).after.state :=
  (worker.advances_stage environment operation world).moves

/-- A worker that is not to go on without waiting was not, and is not asked to. -/
theorem Advances.unasked (advances : worker.Advances operation status)
    (waits : status.skipWaiting = false) :
    worker.skipWaiting = false ∧ operation.asks = false := by
  cases advances with
  | stays unasked => exact ⟨waits, unasked⟩
  | asked _ _ => cases waits
  | fails same _ =>
      rw [same]
      exact ⟨waits, rfl⟩
  | waits same _ _ =>
      rw [same]
      exact ⟨waits, rfl⟩
  | starts same _ =>
      rw [same]
      exact ⟨waits, rfl⟩
  | takesOver _ => exact Bool.or_eq_false_iff.mp waits

/-- What a status says of itself, for rules that claim the pages or do not.  A worker waits
only if it is to, and it has claimed the pages just when it is activated and the rules say
so. -/
structure Status.Sound (claims : Bool) (status : Status) : Prop where
  settled : status.state ≠ .activating
  waiting : status.state = .installed → status.skipWaiting = false
  claimed : status.clientsClaimed = true ↔ status.state = .activated ∧ claims = true

theorem Advances.sound (advances : worker.Advances operation status)
    (sound : worker.status.Sound worker.ruleSet.lifecycle.clientsClaim) :
    status.Sound worker.ruleSet.lifecycle.clientsClaim := by
  have unclaimed : worker.state ≠ .activated → worker.clientsClaimed = false := by
    intro inactive
    apply Bool.eq_false_iff.mpr
    intro claimed
    exact inactive (sound.claimed.mp claimed).1
  cases advances with
  | stays _ => exact sound
  | asked _ early =>
      constructor
      · exact sound.settled
      · intro ready
        exact absurd ready early
      · exact sound.claimed
  | fails _ new =>
      constructor
      · intro impossible
        cases impossible
      · intro impossible
        cases impossible
      · simp [unclaimed (by rw [new]; decide)]
  | waits _ new waits =>
      constructor
      · intro impossible
        cases impossible
      · intro _
        exact waits
      · simp [unclaimed (by rw [new]; decide)]
  | starts _ new =>
      constructor
      · intro impossible
        cases impossible
      · intro impossible
        cases impossible
      · simp [unclaimed (by rw [new]; decide)]
  | takesOver ready =>
      constructor
      · intro impossible
        cases impossible
      · intro impossible
        cases impossible
      · simp [unclaimed (by rw [ready]; decide)]

end Worker

/-- No rule bounds the partition of what is precached. -/
def RuleSet.BoundsNoPrecache (ruleSet : RuleSet) : Prop :=
  ∀ rule ∈ ruleSet.rules, rule.partition = some precachePartition →
    rule.effectiveExpiration = none

/-- A worker comes out of an operation as installed or activated, and did not go into it
so. -/
structure Stage.Reaches (stage : Stage) : Prop where
  moves : stage.after.state ≠ stage.before.state
  ready : stage.after.state = .installed ∨ stage.after.state = .activated

/-- How far a worker has come in a history, and how. -/
structure History.FollowsLifecycle (ruleSet : RuleSet) (history : History) : Prop where
  moves : ∀ stage ∈ history.stages, stage.before.state.Moves stage.after.state
  refuses : ∀ stage ∈ history.stages, stage.Refuses
  settled : history.worker.state ≠ .activating
  /-- A worker waits only if neither its rules nor a page have asked it not to. -/
  waits : history.worker.state = .installed → ruleSet.lifecycle.skipWaiting = false ∧
    ∀ stage ∈ history.stages, stage.operation.asks = false
  claims : history.worker.clientsClaimed = true ↔
    history.worker.state = .activated ∧ ruleSet.lifecycle.clientsClaim = true
  installed : history.worker.state = .installed ∨ history.worker.state = .activated →
    ∃ stage ∈ history.stages, stage.Installs ruleSet
  /-- What is to be stored ahead is there as soon as a worker is installed, and still when
  it is activated later, unless a rule bounds it. -/
  stored : ∀ stage ∈ history.stages, stage.Reaches →
    stage.before.state = .installing ∨ ruleSet.BoundsNoPrecache →
    ∀ href, ruleSet.lists href = true →
      href ∈ stage.after.stores.storage.urls precachePartition

/-- What carries the life cycle from one operation to the next. -/
structure History.InLifecycle (ruleSet : RuleSet) (history : History) : Prop where
  follows : history.FollowsLifecycle ruleSet
  rules : history.worker.ruleSet = ruleSet
  routes : history.worker.routes.rules = ruleSet.rules
  sound : history.worker.status.Sound ruleSet.lifecycle.clientsClaim
  unasked : history.worker.skipWaiting = false → ruleSet.lifecycle.skipWaiting = false ∧
    ∀ stage ∈ history.stages, stage.operation.asks = false
  kept : ruleSet.BoundsNoPrecache → history.worker.state = .installed →
    ∀ href, ruleSet.lists href = true →
      href ∈ history.worker.stores.storage.urls precachePartition

namespace History.InLifecycle

variable {ruleSet : RuleSet} {past : History}

theorem first {start : Worker} (created : Worker.new ruleSet = .ok start) :
    InLifecycle ruleSet ⟨[], start⟩ := by
  obtain ⟨compiled, compiles, rfl⟩ := Worker.eq_of_new created
  constructor
  case follows =>
    constructor
    case moves => exact List.forall_mem_nil _
    case refuses => exact List.forall_mem_nil _
    case settled =>
      intro impossible
      cases impossible
    case waits =>
      intro impossible
      cases impossible
    case claims => simp
    case installed => rintro (impossible | impossible) <;> cases impossible
    case stored => exact List.forall_mem_nil _
  case rules => rfl
  case routes => exact RuleSet.rules_of_compile compiles
  case sound =>
    constructor
    · intro impossible
      cases impossible
    · intro impossible
      cases impossible
    · simp [Worker.status]
  case unasked => exact fun waits => ⟨waits, List.forall_mem_nil _⟩
  case kept =>
    intro _ impossible
    cases impossible

section Next

variable (alive : past.InLifecycle ruleSet) (environment : Environment ν) (operation : Operation)
  (world : ν)

include alive

/-- A worker that is installed or activated by now was installed. -/
theorem exists_installs
    (ready : (past.extend environment operation world).worker.state = .installed ∨
      (past.extend environment operation world).worker.state = .activated) :
    ∃ stage ∈ (past.extend environment operation world).stages, stage.Installs ruleSet := by
  by_cases new : past.worker.state = .installing
  · refine ⟨past.worker.stage environment operation world, by simp, ?_⟩
    rw [← alive.rules]
    exact Worker.installs_of_installing new ready
  · have moves := past.worker.moves_stage environment operation world
    obtain ⟨stage, member, installs⟩ :=
      alive.follows.installed (moves.ready_of_ready ready new)
    exact ⟨stage, by simp [member], installs⟩

/-- What is listed is stored when a worker is installed, and when it is activated. -/
theorem stored_stage
    (ready : (past.worker.stage environment operation world).after.state = .installed ∨
      (past.worker.stage environment operation world).after.state = .activated)
    (waits : past.worker.state = .installing ∨
      past.worker.state = .installed ∧ ruleSet.BoundsNoPrecache)
    {href : String} (listed : ruleSet.lists href = true) :
    href ∈ (past.worker.stage environment operation world).after.stores.storage.urls
      precachePartition := by
  rcases waits with new | ⟨waits, unbounded⟩
  · have installs := Worker.installs_of_installing new ready
    rw [alive.rules] at installs
    obtain ⟨response, -, found⟩ := installs.stored href listed
    exact Storage.mem_urls_of_lookup found
  · rw [Storage.urls, Worker.entries_precache_stage]
    · exact alive.kept unbounded waits href listed
    · rw [waits]
      decide
    · rw [alive.routes]
      exact unbounded
    · intro active
      rw [waits] at active
      cases active

/-- Every operation follows the life cycle. -/
theorem next : (past.extend environment operation world).InLifecycle ruleSet := by
  have advances := past.worker.advances_stage environment operation world
  have moves := past.worker.moves_stage environment operation world
  have rules := past.worker.rules_stage environment operation world
  have sound := advances.sound (alive.rules ▸ alive.sound)
  rw [alive.rules] at sound
  have unasked : (past.extend environment operation world).worker.skipWaiting = false →
      ruleSet.lifecycle.skipWaiting = false ∧
        ∀ stage ∈ (past.extend environment operation world).stages,
          stage.operation.asks = false := by
    intro waits
    obtain ⟨before, now⟩ := advances.unasked waits
    obtain ⟨unset, earlier⟩ := alive.unasked before
    apply And.intro unset
    rw [History.forall_stages_extend]
    exact ⟨earlier, now⟩
  constructor
  case follows =>
    constructor
    case moves =>
      rw [History.forall_stages_extend]
      exact ⟨alive.follows.moves, moves⟩
    case refuses =>
      rw [History.forall_stages_extend]
      exact ⟨alive.follows.refuses, past.worker.refuses_stage environment operation world⟩
    case settled => exact sound.settled
    case waits =>
      intro waits
      exact unasked (sound.waiting waits)
    case claims => exact sound.claimed
    case installed => exact alive.exists_installs environment operation world
    case stored =>
      rw [History.forall_stages_extend]
      apply And.intro alive.follows.stored
      intro reaches unbounded href listed
      apply alive.stored_stage environment operation world reaches.ready ?_ listed
      rcases unbounded with new | unbounded
      · exact .inl new
      · by_cases new : past.worker.state = .installing
        · exact .inl new
        · refine .inr ⟨?_, unbounded⟩
          rcases moves.ready_of_ready reaches.ready new with waits | final
          · exact waits
          · exact absurd (moves.eq_of_final (.inl final)) reaches.moves
  case rules => exact rules.1.trans alive.rules
  case routes =>
    rw [History.worker_extend, rules.2]
    exact alive.routes
  case sound => exact sound
  case unasked => exact unasked
  case kept =>
    intro unbounded waits href listed
    apply alive.stored_stage environment operation world (.inl waits) ?_ listed
    by_cases new : past.worker.state = .installing
    · exact .inl new
    · have still : past.worker.state.Moves .installed := by
        rw [← waits]
        exact moves
      exact .inr ⟨still.eq_installed new, unbounded⟩

end Next

end History.InLifecycle

namespace Worker

/-- Once a worker is activated or redundant, it stays so. -/
theorem state_append (environment : Environment ν) (worker : Worker)
    (steps more : List (Operation × ν))
    (final : (worker.history environment steps).worker.state = .activated ∨
      (worker.history environment steps).worker.state = .redundant) :
    (worker.history environment (steps ++ more)).worker.state =
      (worker.history environment steps).worker.state := by
  induction more using List.reverseRecOn with
  | nil => rw [List.append_nil]
  | append_singleton more step ih =>
      have last := (worker.history environment (steps ++ more)).worker.moves_stage environment
        step.1 step.2
      rw [← List.append_assoc, history, List.foldl_append]
      exact (last.eq_of_final (ih ▸ final)).trans ih

/-- A worker starts as new, and whatever is asked of it, it follows the life cycle. -/
theorem lifecycle_history {ruleSet : RuleSet} {start : Worker}
    (created : new ruleSet = .ok start) (environment : Environment ν)
    (steps : List (Operation × ν)) :
    start.state = .installing ∧
      (start.history environment steps).FollowsLifecycle ruleSet ∧
      ∀ more, (start.history environment steps).worker.state = .activated ∨
          (start.history environment steps).worker.state = .redundant →
        (start.history environment (steps ++ more)).worker.state =
          (start.history environment steps).worker.state := by
  refine ⟨?_, ?_, ?_⟩
  · obtain ⟨compiled, compiles, rfl⟩ := eq_of_new created
    rfl
  · have alive := history_induction environment start
      (motive := fun history => history.InLifecycle ruleSet) (.first created)
      (fun past operation world alive => alive.next environment operation world) steps
    exact alive.follows
  · intro more final
    exact start.state_append environment steps more final

end Worker

/-! ## A worker that waits -/

/-- A rule with the precache as its cache, in which it leaves one page. -/
def CachingRule.lodger : CachingRule where
  origin := .runtimeCaching
  matcher := .pathPrefix "/"
  strategy := .cacheFirst
  cacheName := some precachePartition
  expiration := some ⟨some 1, none⟩

/-- A policy that stores two pages ahead, with such a rule or without any. -/
def RuleSet.bothPages (skipWaiting lodges : Bool) : RuleSet where
  lifecycle := ⟨skipWaiting, true, true⟩
  includeBuildManifest := false
  precache := ⟨[.unversioned "/a", .unversioned "/b"]⟩
  rules := if lodges then [.lodger] else []

/-- The new worker of this policy. -/
def Worker.bothPages (skipWaiting lodges : Bool) : Worker where
  ruleSet := .bothPages skipWaiting lodges
  routes := ⟨if lodges then [⟨.lodger, ⟨.pathPrefix "/", none⟩⟩] else []⟩
  stores := .empty
  state := .installing
  skipWaiting := skipWaiting
  clientsClaimed := false

theorem Worker.new_bothPages (skipWaiting lodges : Bool) :
    new (.bothPages skipWaiting lodges) = .ok (.bothPages skipWaiting lodges) := by
  cases lodges <;> rfl

/-- The message of a page that does not want to wait. -/
def skipWaitingMessage : Json := .obj [("type", .str "SKIP_WAITING")]

/-- The worker waits, until a page asks it not to. -/
def waitingSteps : List (Operation × Bench) :=
  [(.install, .at 0 twoPages false),
    (.message skipWaitingMessage, .at 1 twoPages false)]

/-- It is activated then, and claims the pages; another installation is refused. -/
theorem lifecycle_history_bothPages :
    let history := (Worker.bothPages false false).history Bench.environment waitingSteps
    history.worker.clientsClaimed = true ∧
      (∃ stage ∈ history.stages, stage.Installs (.bothPages false false)) ∧
      ((Worker.bothPages false false).history Bench.environment
        (waitingSteps ++ [(.install, .at 2 [] true)])).worker.state = .activated := by
  intro history
  have active : history.worker.state = .activated := by decide +kernel
  obtain ⟨-, follows, final⟩ := Worker.lifecycle_history (Worker.new_bothPages false false)
    Bench.environment waitingSteps
  refine ⟨follows.claims.mpr ⟨active, rfl⟩, follows.installed (.inr active), ?_⟩
  exact (final _ (.inl active)).trans active

/-- The worker waits, and its caches are swept before it is activated. -/
def sweptSteps : List (Operation × Bench) :=
  [(.install, .at 0 twoPages false),
    (.sweep, .at 1 twoPages false),
    (.activate, .at 2 twoPages false)]

/-- When a rule bounds the precache, a worker may be activated without a page that was to
be stored ahead. -/
theorem activated_without_page :
    let history := (Worker.bothPages false true).history Bench.environment sweptSteps
    Worker.new (.bothPages false true) = .ok (.bothPages false true) ∧
      history.worker.state = .activated ∧
      (RuleSet.bothPages false true).lists "http://localhost/a" = true ∧
      "http://localhost/a" ∉ history.worker.stores.storage.urls precachePartition := by
  refine ⟨Worker.new_bothPages false true, ?_, ?_, ?_⟩
  · decide +kernel
  · decide +kernel
  · decide +kernel

end CachePolicy
