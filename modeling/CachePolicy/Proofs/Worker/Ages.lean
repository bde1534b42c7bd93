import CachePolicy.Proofs.Worker.Recency
import CachePolicy.Proofs.Worker.Replay

/-!
# Ages in exact arithmetic

How long an entry stays fresh and a request is kept may be any number of 64 bits.  The number is
capped before it becomes a span of time, and minutes are turned into seconds with a cap as well.
Two moments of a calendar never lie so far apart that a cap shows: entries and requests are
compared with the number that was asked for.

A calendar counts spans in words of its own and refuses a number of seconds for which it has no
span.  No number reaches it that it would refuse.
-/

namespace CachePolicy

/-! ## What is asked for -/

/-- An age is within the bound that is asked for, if one is.  The age is counted in units of
which `second` make a second. -/
def Expiration.Allows (bounds : Expiration) (second age : Int) : Prop :=
  bounds.maxAgeSeconds = none ∨ bounds.maxAgeSeconds = some 0 ∨
    ∃ seconds, bounds.maxAgeSeconds = some seconds ∧ age ≤ seconds.toNat * second

/-- A time is within the minutes for which requests are to be kept. -/
def ReplayQueue.Keeps (queue : ReplayQueue) (second time : Int) : Prop :=
  time ≤ queue.maxRetentionMinutes.toNat * 60 * second

instance (queue : ReplayQueue) (second time : Int) : Decidable (queue.Keeps second time) :=
  inferInstanceAs (Decidable (_ ≤ _))

theorem Expiration.allows_iff {bounds : Expiration} {second age : Int} :
    bounds.Allows second age ↔ ∀ seconds, bounds.normalized.maxAgeSeconds = some seconds →
      age ≤ seconds.toNat * second := by
  rw [Allows, normalized]
  cases bounds.maxAgeSeconds with
  | none => simp
  | some seconds =>
      by_cases zero : seconds = 0
      · subst zero
        simp
      · have positive : 0 < seconds := UInt64.pos_iff_ne_zero.mpr zero
        simp [zero, positive]

/-- What is young enough was so before. -/
theorem Expiration.Allows.mono {bounds : Expiration} {second younger older : Int}
    (order : younger ≤ older) (allows : bounds.Allows second older) :
    bounds.Allows second younger := by
  rw [allows_iff] at allows ⊢
  exact fun seconds bounded => Int.le_trans order (allows seconds bounded)

/-! ## Caps that do not show -/

/-- A difference of moments is shorter than the longest span, either way. -/
def WithinSpan (second age : Int) : Prop :=
  -(longestSpan * second) < age ∧ age < longestSpan * second

/-- An entry is fresh just when its age is within the bound that is asked for. -/
theorem Expiration.isFresh_iff_allows {bounds : Expiration} {now : Moment} {entry : CachedEntry}
    (near : WithinSpan 1000 (now - entry.storedAt)) :
    bounds.isFresh now entry = true ↔ bounds.Allows 1000 (now - entry.storedAt) := by
  rw [isFresh_iff, allows_iff]
  refine forall_congr' fun seconds => imp_congr_right fun _ => ?_
  exact le_span_iff (Int.le_of_lt near.2) seconds

/-- A request is overdue just when it has waited longer than requests are to be kept. -/
theorem WaitingQueue.isExpired_iff_keeps {config : ReplayQueue} {now : Moment}
    {entry : QueuedRequest} (near : WithinSpan 1000 (now - entry.queuedAt)) :
    isExpired config now entry = true ↔ ¬ config.Keeps 1000 (now - entry.queuedAt) := by
  have keeps := le_min_longestSpan_iff (by decide) (Int.le_of_lt near.2)
    (config.maxRetentionMinutes.toNat * 60)
  rw [isExpired, decide_eq_true_iff, ← Int.not_le, not_congr]
  rw [ReplayQueue.Keeps, span, config.min_retentionSeconds, Int.natCast_mul]
  simpa using keeps

/-! ## Time that goes on -/

/-- An entry that is not fresh is not fresh later. -/
theorem Expiration.isFresh_antitone {bounds : Expiration} {now later : Moment}
    {entry : CachedEntry} (order : now ≤ later) (fresh : bounds.isFresh later entry = true) :
    bounds.isFresh now entry = true := by
  rw [isFresh_iff] at fresh ⊢
  exact fun seconds bounded =>
    Int.le_trans (Int.sub_le_sub_right order entry.storedAt) (fresh seconds bounded)

/-- A request that is overdue is overdue later. -/
theorem WaitingQueue.isExpired_mono {config : ReplayQueue} {now later : Moment}
    {entry : QueuedRequest} (order : now ≤ later) (overdue : isExpired config now entry = true) :
    isExpired config later entry = true := by
  rw [isExpired, decide_eq_true_iff] at overdue ⊢
  exact Int.lt_of_lt_of_le overdue (Int.sub_le_sub_right order entry.queuedAt)

/-! ## Requests that a replay reaches -/

namespace WaitingQueue

variable {ν : Type} {config : ReplayQueue} {now : Moment}

/-- A request has waited no longer than was asked for. -/
def isKept (config : ReplayQueue) (now : Moment) (entry : QueuedRequest) : Bool :=
  config.Keeps 1000 (now - entry.queuedAt)

/-- What a replay makes of the requests that it reaches, which are those that it removes and the
first of those that it leaves.  The ones that have waited longer than was asked for are dropped
and not sent, and all others are sent. -/
structure ReplaysExactly (config : ReplayQueue) (now : Moment)
    (before removed left : List QueuedRequest) (learned : List Observation)
    (report : ReplayReport) : Prop where
  parts : before = removed ++ left
  dropped : report.dropped = (removed.filter (!isKept config now ·)).length
  sent : Observation.attempts learned =
    (removed.filter (isKept config now)).map (fun entry => (entry.request, true)) ++
      (left.take 1).map fun entry => (entry.request, false)
  kept : ∀ entry ∈ left.head?, isKept config now entry = true

theorem isExpired_eq_not_isKept {entry : QueuedRequest}
    (near : WithinSpan 1000 (now - entry.queuedAt)) :
    isExpired config now entry = !isKept config now entry := by
  rw [Bool.eq_iff_iff, isExpired_iff_keeps near, isKept]
  simp

/-- The first request that stays has not waited too long. -/
theorem isExpired_eq_false_of_head? (fetch : Call → ν → Reply × ν)
    {entries left : List QueuedRequest} {world later : ν} {report : ReplayReport}
    (ran : replayAll config fetch now entries world = ((report, left), later)) :
    ∀ entry ∈ left.head?, isExpired config now entry = false := by
  induction entries generalizing world report with
  | nil =>
      cases ran
      simp
  | cons entry rest ih =>
      rw [replayAll] at ran
      split at ran
      · generalize after : replayAll config fetch now rest world = result at ran
        obtain ⟨⟨report', left'⟩, world'⟩ := result
        cases ran
        exact ih after
      · next timely =>
          generalize fetch ⟨entry.request, none, none⟩ world = answer at ran
          obtain ⟨reply, world'⟩ := answer
          dsimp only at ran
          -- A request that does not get through ends the replay, and is the first that stays.
          split at ran
          · generalize after : replayAll config fetch now rest world' = result at ran
            obtain ⟨⟨report', left'⟩, last⟩ := result
            cases ran
            exact ih after
          · cases ran
            simpa using timely

/-- A replay drops just the requests that it reaches too late. -/
theorem exists_replaysExactly (environment : Environment ν) (queue : WaitingQueue) (world : ν)
    (near : ∀ entry ∈ queue.waiting, WithinSpan 1000 (now - entry.queuedAt)) :
    ∃ report removed left later learned,
      queue.replay environment.recorded.fetch now (world, []) =
        ((report, { queue with waiting := left }), later, learned) ∧
      ReplaysExactly queue.config now queue.waiting removed left learned report := by
  obtain ⟨report, removed, left, later, learned, ran, replays⟩ :=
    exists_replays environment queue.config now queue.waiting world []
  have gone : ∀ entry ∈ removed,
      queue.config.overdue now entry = !isKept queue.config now entry := by
    intro entry listed
    have waiting : entry ∈ queue.waiting := replays.parts ▸ List.mem_append_left _ listed
    rw [← isExpired_eq_overdue, isExpired_eq_not_isKept (near entry waiting)]
  have sent : removed.filter (!queue.config.overdue now ·) =
      removed.filter (isKept queue.config now) :=
    List.filter_congr fun entry listed => by rw [gone entry listed, Bool.not_not]
  refine ⟨report, removed, left, later, learned, by rw [replay, ran]; rfl, ?_⟩
  refine ⟨replays.parts, ?_, ?_, ?_⟩
  · rw [replays.dropped, List.filter_congr gone]
  · rw [replays.attempts, ReplayQueue.sent, sent]
  · intro entry first
    have stays := isExpired_eq_false_of_head? _ ran entry first
    have listed : entry ∈ queue.waiting :=
      replays.parts ▸ List.mem_append_right _ (List.mem_of_head? first)
    rw [isExpired_eq_not_isKept (near entry listed)] at stays
    simpa using stays

end WaitingQueue

/-! ## Calendars -/

/-- How many nanoseconds make a second. -/
def Calendar.second : Int := 1000000000

/-- How many nanoseconds make a millisecond. -/
def Calendar.millisecond : Int := 1000000

/-- A calendar, with instants and spans that are told apart to the nanosecond. -/
structure Calendar (Instant Span : Type) where
  /-- The span of a number of seconds, unless it is refused. -/
  seconds : Int64 → Option Span
  /-- The span from the second instant to the first. -/
  between : Instant → Instant → Span
  /-- Whether the first span is no longer than the second. -/
  atMost : Span → Span → Bool
  /-- What an instant reads, in nanoseconds. -/
  reading : Instant → Int
  /-- The nanoseconds of a span. -/
  length : Span → Int

namespace Calendar

variable {Instant Span : Type}

/-- What a calendar is documented to do. -/
structure Lawful (calendar : Calendar Instant Span) : Prop where
  isSome_seconds : ∀ count,
    (calendar.seconds count).isSome = true ↔ count.toInt.natAbs ≤ longestSpan
  length_seconds : ∀ count span, calendar.seconds count = some span →
    calendar.length span = count.toInt * second
  length_between : ∀ later earlier,
    WithinSpan second (calendar.reading later - calendar.reading earlier) →
      calendar.length (calendar.between later earlier) =
        calendar.reading later - calendar.reading earlier
  atMost_iff : ∀ one other,
    calendar.atMost one other = true ↔ calendar.length one ≤ calendar.length other

/-- The longest span in seconds, as a word. -/
def longestSeconds : UInt64 := 9223372036854775

example : longestSeconds.toNat = longestSpan ∧
    longestSeconds.toNat = Int64.maxValue.toInt.toNat / 1000 := by decide

variable (calendar : Calendar Instant Span)

/-- The span of a number of seconds, capped and read with a sign; none if it is refused. -/
def limit? (seconds : UInt64) : Option Span :=
  calendar.seconds (min seconds longestSeconds).toInt64

/-- Whether something stored at an instant is fresh; none if the bound has no span. -/
def isFresh? (bounds : Expiration) (now stored : Instant) : Option Bool :=
  match bounds.normalized.maxAgeSeconds with
  | some seconds => (calendar.limit? seconds).map (calendar.atMost (calendar.between now stored))
  | none => some true

/-- Whether a request that waits since an instant has waited too long; none if the time for which
it is kept has no span. -/
def isOverdue? (queue : ReplayQueue) (now queued : Instant) : Option Bool :=
  (calendar.limit? queue.retentionSeconds).map fun limit =>
    !calendar.atMost (calendar.between now queued) limit

variable {calendar}

/-- A word that is capped has no sign. -/
theorem toInt_toInt64_min (seconds : UInt64) :
    (min seconds longestSeconds).toInt64.toInt = (min seconds.toNat longestSpan : Nat) := by
  have capped : (min seconds longestSeconds).toNat = min seconds.toNat longestSpan :=
    UInt64.toNat_min seconds longestSeconds
  -- The cap is below half of all words, so the sign is not set.
  have small : 2 * (min seconds longestSeconds).toNat < 2 ^ 64 := by
    have := Nat.min_le_right seconds.toNat longestSpan
    rw [capped]
    exact Nat.lt_of_le_of_lt (Nat.mul_le_mul_left 2 this) (by decide)
  change (min seconds longestSeconds).toBitVec.toInt = _
  rw [BitVec.toInt_eq_toNat_of_lt small]
  exact congrArg Int.ofNat capped

/-- No number of seconds is refused once it is capped. -/
theorem Lawful.exists_limit (lawful : calendar.Lawful) (seconds : UInt64) :
    ∃ limit, calendar.limit? seconds = some limit ∧
      calendar.length limit = (min seconds.toNat longestSpan : Nat) * second := by
  have there : (calendar.limit? seconds).isSome = true := by
    rw [limit?, lawful.isSome_seconds, toInt_toInt64_min, Int.natAbs_natCast]
    exact Nat.min_le_right _ _
  obtain ⟨limit, made⟩ := Option.isSome_iff_exists.mp there
  exact ⟨limit, made, by rw [lawful.length_seconds _ _ made, toInt_toInt64_min]⟩

/-- A calendar compares the time between two instants with what a number of seconds is. -/
theorem Lawful.atMost_limit_iff (lawful : calendar.Lawful) {now earlier : Instant}
    (near : WithinSpan second (calendar.reading now - calendar.reading earlier))
    {limit : Span} {seconds : Nat}
    (length : calendar.length limit = (min seconds longestSpan : Nat) * second) :
    calendar.atMost (calendar.between now earlier) limit = true ↔
      calendar.reading now - calendar.reading earlier ≤ seconds * second := by
  rw [lawful.atMost_iff, lawful.length_between _ _ near, length,
    le_min_longestSpan_iff (by decide) (Int.le_of_lt near.2)]

theorem Lawful.isFresh?_eq_some (lawful : calendar.Lawful) (bounds : Expiration)
    {now stored : Instant}
    (near : WithinSpan second (calendar.reading now - calendar.reading stored)) :
    ∃ fresh, calendar.isFresh? bounds now stored = some fresh ∧
      (fresh = true ↔ bounds.Allows second (calendar.reading now - calendar.reading stored)) := by
  simp only [Expiration.allows_iff, isFresh?]
  cases bounds.normalized.maxAgeSeconds with
  | none => exact ⟨true, rfl, by simp⟩
  | some seconds =>
      obtain ⟨limit, made, length⟩ := lawful.exists_limit seconds
      refine ⟨_, by simp only [made]; rfl, ?_⟩
      rw [lawful.atMost_limit_iff near length]
      simp

theorem Lawful.isOverdue?_eq_some (lawful : calendar.Lawful) (queue : ReplayQueue)
    {now queued : Instant}
    (near : WithinSpan second (calendar.reading now - calendar.reading queued)) :
    ∃ overdue, calendar.isOverdue? queue now queued = some overdue ∧
      (overdue = true ↔ ¬ queue.Keeps second (calendar.reading now - calendar.reading queued)) := by
  obtain ⟨limit, made, length⟩ := lawful.exists_limit queue.retentionSeconds
  rw [queue.min_retentionSeconds] at length
  refine ⟨_, by rw [isOverdue?, made]; rfl, ?_⟩
  rw [Bool.not_eq_true', ← Bool.not_eq_true, lawful.atMost_limit_iff near length]
  simp [ReplayQueue.Keeps]

/-- Coarser units say the same about an age. -/
theorem allows_mul_iff (bounds : Expiration) {scale : Int} (positive : 0 < scale)
    (unit age : Int) :
    bounds.Allows (unit * scale) (age * scale) ↔ bounds.Allows unit age := by
  simp only [Expiration.Allows, ← Int.mul_assoc, Int.mul_le_mul_right positive]

theorem keeps_mul_iff (queue : ReplayQueue) {scale : Int} (positive : 0 < scale)
    (unit time : Int) :
    queue.Keeps (unit * scale) (time * scale) ↔ queue.Keeps unit time := by
  simp only [ReplayQueue.Keeps, ← Int.mul_assoc, Int.mul_le_mul_right positive]

theorem withinSpan_mul_iff {scale : Int} (positive : 0 < scale) (unit age : Int) :
    WithinSpan (unit * scale) (age * scale) ↔ WithinSpan unit age := by
  rw [WithinSpan, WithinSpan, ← Int.mul_assoc, ← Int.neg_mul, Int.mul_lt_mul_right positive,
    Int.mul_lt_mul_right positive]

variable {now stored queued : Instant} {moment earlier : Moment}

/-- Readings of whole milliseconds lie as far apart as the moments that they are of. -/
theorem reading_sub (reads : calendar.reading now = moment * millisecond)
    (read : calendar.reading stored = earlier * millisecond) :
    calendar.reading now - calendar.reading stored = (moment - earlier) * millisecond := by
  rw [reads, read, Int.sub_mul]

theorem withinSpan_reading (reads : calendar.reading now = moment * millisecond)
    (read : calendar.reading stored = earlier * millisecond)
    (near : WithinSpan 1000 (moment - earlier)) :
    WithinSpan second (calendar.reading now - calendar.reading stored) :=
  reading_sub reads read ▸ (withinSpan_mul_iff (by decide) 1000 _).mpr near

/-- Where instants are told apart to the millisecond, a worker decides as a calendar does. -/
theorem Lawful.isFresh?_eq_isFresh (lawful : calendar.Lawful) (bounds : Expiration)
    {entry : CachedEntry} (reads : calendar.reading now = moment * millisecond)
    (stores : calendar.reading stored = entry.storedAt * millisecond)
    (near : WithinSpan 1000 (moment - entry.storedAt)) :
    calendar.isFresh? bounds now stored = some (bounds.isFresh moment entry) := by
  obtain ⟨fresh, decided, exact⟩ :=
    lawful.isFresh?_eq_some bounds (withinSpan_reading reads stores near)
  have same : fresh = bounds.isFresh moment entry := by
    rw [Bool.eq_iff_iff, exact, reading_sub reads stores, Expiration.isFresh_iff_allows near]
    exact allows_mul_iff bounds (by decide) 1000 _
  rw [decided, same]

theorem Lawful.isOverdue?_eq_isExpired (lawful : calendar.Lawful) (queue : ReplayQueue)
    {entry : QueuedRequest} (reads : calendar.reading now = moment * millisecond)
    (waits : calendar.reading queued = entry.queuedAt * millisecond)
    (near : WithinSpan 1000 (moment - entry.queuedAt)) :
    calendar.isOverdue? queue now queued = some (WaitingQueue.isExpired queue moment entry) := by
  obtain ⟨overdue, decided, exact⟩ :=
    lawful.isOverdue?_eq_some queue (withinSpan_reading reads waits near)
  have same : overdue = WaitingQueue.isExpired queue moment entry := by
    rw [Bool.eq_iff_iff, exact, reading_sub reads waits, WaitingQueue.isExpired_iff_keeps near]
    exact not_congr (keeps_mul_iff queue (by decide) 1000 _)
  rw [decided, same]

/-- What is not fresh for a calendar never is again. -/
theorem Lawful.isFresh?_antitone (lawful : calendar.Lawful) (bounds : Expiration)
    {later : Instant}
    (near : WithinSpan second (calendar.reading now - calendar.reading stored))
    (near' : WithinSpan second (calendar.reading later - calendar.reading stored))
    (order : calendar.reading now ≤ calendar.reading later)
    (stale : calendar.isFresh? bounds now stored = some false) :
    calendar.isFresh? bounds later stored = some false := by
  obtain ⟨fresh, decided, exact⟩ := lawful.isFresh?_eq_some bounds near
  obtain ⟨fresh', decided', exact'⟩ := lawful.isFresh?_eq_some bounds near'
  cases decided.symm.trans stale
  cases fresh' with
  | false => exact decided'
  | true =>
      have younger := (exact'.mp rfl).mono (Int.sub_le_sub_right order (calendar.reading stored))
      cases exact.mpr younger

/-- What has waited too long for a calendar has done so ever after. -/
theorem Lawful.isOverdue?_mono (lawful : calendar.Lawful) (queue : ReplayQueue)
    {later : Instant}
    (near : WithinSpan second (calendar.reading now - calendar.reading queued))
    (near' : WithinSpan second (calendar.reading later - calendar.reading queued))
    (order : calendar.reading now ≤ calendar.reading later)
    (overdue : calendar.isOverdue? queue now queued = some true) :
    calendar.isOverdue? queue later queued = some true := by
  obtain ⟨waited, decided, exact⟩ := lawful.isOverdue?_eq_some queue near
  obtain ⟨waited', decided', exact'⟩ := lawful.isOverdue?_eq_some queue near'
  cases decided.symm.trans overdue
  have longer : waited' = true := exact'.mpr fun kept => exact.mp rfl
    (Int.le_trans (Int.sub_le_sub_right order (calendar.reading queued)) kept)
  rw [decided', longer]

/-- Decisions on ages that a calendar makes by exact arithmetic, though it has words of its own for
spans of time. -/
structure Exact (calendar : Calendar Instant Span) : Prop where
  /-- No bound on age is refused, and each is compared exactly. -/
  fresh : ∀ bounds now stored,
    WithinSpan second (calendar.reading now - calendar.reading stored) →
      ∃ fresh, calendar.isFresh? bounds now stored = some fresh ∧
        (fresh = true ↔ bounds.Allows second (calendar.reading now - calendar.reading stored))
  /-- No number of minutes is refused, and each is compared exactly. -/
  overdue : ∀ queue now queued,
    WithinSpan second (calendar.reading now - calendar.reading queued) →
      ∃ overdue, calendar.isOverdue? queue now queued = some overdue ∧
        (overdue = true ↔ ¬ queue.Keeps second (calendar.reading now - calendar.reading queued))
  stale_later : ∀ bounds now later stored,
    WithinSpan second (calendar.reading now - calendar.reading stored) →
      WithinSpan second (calendar.reading later - calendar.reading stored) →
      calendar.reading now ≤ calendar.reading later →
        calendar.isFresh? bounds now stored = some false →
          calendar.isFresh? bounds later stored = some false
  overdue_later : ∀ queue now later queued,
    WithinSpan second (calendar.reading now - calendar.reading queued) →
      WithinSpan second (calendar.reading later - calendar.reading queued) →
      calendar.reading now ≤ calendar.reading later →
        calendar.isOverdue? queue now queued = some true →
          calendar.isOverdue? queue later queued = some true

/-- The decisions of a worker, whose moments are milliseconds, are those of a calendar. -/
structure Agrees (calendar : Calendar Instant Span) : Prop where
  fresh : ∀ bounds now stored moment (entry : CachedEntry),
    calendar.reading now = moment * millisecond →
      calendar.reading stored = entry.storedAt * millisecond →
      WithinSpan 1000 (moment - entry.storedAt) →
        calendar.isFresh? bounds now stored = some (bounds.isFresh moment entry)
  overdue : ∀ queue now queued moment (entry : QueuedRequest),
    calendar.reading now = moment * millisecond →
      calendar.reading queued = entry.queuedAt * millisecond →
      WithinSpan 1000 (moment - entry.queuedAt) →
        calendar.isOverdue? queue now queued = some (WaitingQueue.isExpired queue moment entry)

theorem Lawful.exact (lawful : calendar.Lawful) : calendar.Exact where
  fresh bounds _ _ near := lawful.isFresh?_eq_some bounds near
  overdue queue _ _ near := lawful.isOverdue?_eq_some queue near
  stale_later bounds _ _ _ near near' := lawful.isFresh?_antitone bounds near near'
  overdue_later queue _ _ _ near near' := lawful.isOverdue?_mono queue near near'

theorem Lawful.agrees (lawful : calendar.Lawful) : calendar.Agrees where
  fresh bounds _ _ _ _ reads stores near := lawful.isFresh?_eq_isFresh bounds reads stores near
  overdue queue _ _ _ _ reads waits near :=
    lawful.isOverdue?_eq_isExpired queue reads waits near

end Calendar

/-- Every number of seconds and of minutes is compared exactly with the time between two moments
that lie less than the longest span apart, and none is refused on the way.  So an entry is fresh
just when it is no older than was asked for, if anything was, and a replay drops just those
requests among the ones it reaches that have waited longer than was asked for.  What is stale or
overdue once is so at any later time. -/
theorem ages_exact {ν Instant Span : Type} {calendar : Calendar Instant Span}
    (lawful : calendar.Lawful) (environment : Environment ν) :
    calendar.Exact ∧ calendar.Agrees ∧
      (∀ (bounds : Expiration) (moment : Moment) (entry : CachedEntry),
        WithinSpan 1000 (moment - entry.storedAt) →
          (bounds.isFresh moment entry = true ↔
            bounds.Allows 1000 (moment - entry.storedAt))) ∧
      (∀ (queue : WaitingQueue) (moment : Moment) (world : ν),
        (∀ entry ∈ queue.waiting, WithinSpan 1000 (moment - entry.queuedAt)) →
          ∃ report removed left later learned,
            queue.replay environment.recorded.fetch moment (world, []) =
              ((report, { queue with waiting := left }), later, learned) ∧
            WaitingQueue.ReplaysExactly queue.config moment queue.waiting removed left learned
              report) ∧
      (∀ (bounds : Expiration) (moment later : Moment) (entry : CachedEntry), moment ≤ later →
        bounds.isFresh moment entry = false → bounds.isFresh later entry = false) ∧
      ∀ (queue : ReplayQueue) (moment later : Moment) (entry : QueuedRequest), moment ≤ later →
        WaitingQueue.isExpired queue moment entry = true →
          WaitingQueue.isExpired queue later entry = true := by
  refine ⟨lawful.exact, lawful.agrees, ?_, ?_, ?_, ?_⟩
  · exact fun _ _ _ near => Expiration.isFresh_iff_allows near
  · exact fun queue _ world near => WaitingQueue.exists_replaysExactly environment queue world near
  · intro bounds moment later entry order stale
    rw [← Bool.not_eq_true] at stale ⊢
    exact fun fresh => stale (Expiration.isFresh_antitone order fresh)
  · exact fun _ _ _ _ order overdue => WaitingQueue.isExpired_mono order overdue

/-- A calendar of plain numbers of nanoseconds. -/
def Calendar.numbers : Calendar Int Int where
  seconds count :=
    if count.toInt.natAbs ≤ longestSpan then some (count.toInt * second) else none
  between later earlier := later - earlier
  atMost one other := one ≤ other
  reading instant := instant
  length span := span

theorem Calendar.lawful_numbers : numbers.Lawful where
  isSome_seconds count := by simp [numbers]
  length_seconds count span made := by
    simp only [numbers, Option.ite_none_right_eq_some, Option.some.injEq] at made
    exact made.2.symm
  length_between _ _ _ := rfl
  atMost_iff one other := decide_eq_true_iff

/-- A minute lasts a minute, to the nanosecond, and the largest numbers outlast the longest span. -/
theorem ages_exact_numbers :
    Calendar.numbers.Lawful ∧ Calendar.numbers.Exact ∧ Calendar.numbers.Agrees ∧
      Calendar.numbers.isFresh? ⟨none, some 60⟩ 60000000000 0 = some true ∧
      Calendar.numbers.isFresh? ⟨none, some 60⟩ 60000000001 0 = some false ∧
      Calendar.numbers.isOverdue? ⟨"outbox", 1⟩ 60000000000 0 = some false ∧
      Calendar.numbers.isOverdue? ⟨"outbox", 1⟩ 60000000001 0 = some true ∧
      Calendar.numbers.isFresh? ⟨none, some 18446744073709551615⟩
        (longestSpan * Calendar.second - 1) 0 = some true ∧
      Calendar.numbers.isOverdue? ⟨"outbox", 18446744073709551615⟩
        (longestSpan * Calendar.second - 1) 0 = some false := by
  obtain ⟨exact, agrees, -⟩ := ages_exact Calendar.lawful_numbers Bench.environment
  refine ⟨Calendar.lawful_numbers, exact, agrees, ?_⟩
  decide

end CachePolicy
