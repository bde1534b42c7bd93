import CachePolicy.Text.Padded

/-!
# The written form of a time

A time is counted in nanoseconds from the start of 1970, and written as a date and a
time of the day in one form.  The fraction of a second has as many groups of three
digits as it needs.
-/

namespace CachePolicy.Cli.Clock

/-- The nanoseconds of a second. -/
def nanosPerSecond : Nat := 1000000000

/-- The seconds of a day. -/
def secondsPerDay : Nat := 86400

/-- The days of four hundred years. -/
def daysPerEra : Nat := 146097

/-- The year, month and day of a day counted from the start of 1970.  Years are
counted from March on, so that a leap day is the last day of its year. -/
def date (day : Int) : Int × Nat × Nat :=
  let shifted := day + 719468
  let era := Int.fdiv shifted daysPerEra
  let dayOfEra := (Int.fmod shifted daysPerEra).toNat
  let yearOfEra :=
    (dayOfEra - dayOfEra / 1460 + dayOfEra / 36524 - dayOfEra / 146096) / 365
  let dayOfYear := dayOfEra - (365 * yearOfEra + yearOfEra / 4 - yearOfEra / 100)
  let fifth := (5 * dayOfYear + 2) / 153
  let month := if fifth < 10 then fifth + 3 else fifth - 9
  let year := era * 400 + yearOfEra + (if month ≤ 2 then 1 else 0)
  (year, month, dayOfYear - (153 * fifth + 2) / 5 + 1)

/-- The fraction of a second. -/
def fraction (nanos : Nat) : String :=
  if nanos = 0 then ""
  else if nanos % 1000000 = 0 then "." ++ Text.padded 3 (nanos / 1000000)
  else if nanos % 1000 = 0 then "." ++ Text.padded 6 (nanos / 1000)
  else "." ++ Text.padded 9 nanos

/-- The text of a time. -/
def text (nanos : Int) : String :=
  let seconds := Int.fdiv nanos nanosPerSecond
  let (year, month, day) := date (Int.fdiv seconds secondsPerDay)
  let second := (Int.fmod seconds secondsPerDay).toNat
  let rest := fraction (Int.fmod nanos nanosPerSecond).toNat
  s!"{Text.padded 4 year.toNat}-{Text.padded 2 month}-{Text.padded 2 day}" ++
    s!"T{Text.padded 2 (second / 3600)}:{Text.padded 2 (second / 60 % 60)}" ++
    s!":{Text.padded 2 (second % 60)}{rest}Z"

end CachePolicy.Cli.Clock
