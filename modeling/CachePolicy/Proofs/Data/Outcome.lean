/-!
# Outcomes of computations that may fail

A computation that goes on after another one succeeds just when both do, and what is made of
its result does not change whether it does.
-/

namespace CachePolicy

variable {ε α β : Type}

/-- A computation that goes on after another succeeds just when both do. -/
theorem bind_eq_ok_iff {first : Except ε α} {next : α → Except ε β} {result : β} :
    first >>= next = .ok result ↔ ∃ value, first = .ok value ∧ next value = .ok result := by
  cases first with
  | error e => simp [bind, Except.bind]
  | ok value => simp [bind, Except.bind]

theorem map_eq_ok_iff {outcome : Except ε α} {change : α → β} {result : β} :
    outcome.map change = .ok result ↔ ∃ value, outcome = .ok value ∧ change value = result := by
  cases outcome with
  | error e => simp [Except.map]
  | ok value => simp [Except.map]

end CachePolicy
