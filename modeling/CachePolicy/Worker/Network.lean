import CachePolicy.Worker.Response

/-!
# The world of a worker

All that a worker learns from outside is the time and the answers of the network.
An `Environment` gives both from some state of the world that the worker does not
see, so statements about workers hold whatever the network and the clock do.

A page may give up on a request while it is under way.  It does so through the
signal that it made for the request; the reply tells whether the signal was given.
-/

namespace CachePolicy

/-- A span of time in whole milliseconds. -/
abbrev Millis := Nat

/-- A fractional part of a thousand without the zeros at its end. -/
def thousandths (n : Nat) : String :=
  let digits := (Nat.toDigits 10 (1000 + n)).drop 1
  String.ofList (digits.reverse.dropWhile (· == '0')).reverse

/-- A span of time in words: seconds from one second on, milliseconds below, and no
span at all in the smallest unit. -/
def Millis.text (span : Millis) : String :=
  if span = 0 then "0ns"
  else if span < 1000 then s!"{span}ms"
  else
    let fraction := thousandths (span % 1000)
    s!"{span / 1000}" ++ (if fraction.isEmpty then "" else "." ++ fraction) ++ "s"

/-- Why a request has no response. -/
inductive FetchError where
  | offline
  | timeout (limit : Millis)
  | aborted
  deriving DecidableEq, Repr

/-- The wording of an error. -/
def FetchError.message : FetchError → String
  | .offline => "network unreachable"
  | .timeout limit => s!"network timed out after {Millis.text limit}"
  | .aborted => "request aborted"

/-- A signal by which a page gives up on a request. -/
abbrev Signal := Nat

/-- A request on its way to the network. -/
structure Call where
  request : PageRequest
  /-- How long the network has to answer. -/
  timeout : Option Millis
  signal : Option Signal

/-- What comes back from the network. -/
structure Reply where
  result : Except FetchError Response
  /-- Whether the page has given up on the request. -/
  aborted : Bool

/-- The outcome of a call for the one who made it: giving up wins over any
answer. -/
def Reply.settled (reply : Reply) : Except FetchError Response :=
  if reply.aborted then .error .aborted else reply.result

/-- A clock and a network over the states of a world. -/
structure Environment (ν : Type) where
  now : ν → Moment × ν
  fetch : Call → ν → Reply × ν

end CachePolicy
