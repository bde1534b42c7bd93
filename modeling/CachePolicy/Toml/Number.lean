import CachePolicy.Json.Basic
import CachePolicy.Text.Hex

/-!
# Integers and numbers with a fraction

Digits may be set apart by single underscores, each between two digits.  An
integer has to fit 64 bits with a sign.  A number with a fraction or an exponent
is rounded once, to the nearest double.
-/

namespace CachePolicy.Toml

namespace Number

/-- The digits that follow a digit. -/
def moreDigits (isDigit : Char → Bool) : List Char → Option (List Char × List Char)
  | '_' :: c :: rest =>
    if isDigit c then do
      let (digits, rest) ← moreDigits isDigit rest
      some (c :: digits, rest)
    else none
  | c :: rest =>
    if isDigit c then do
      let (digits, rest) ← moreDigits isDigit rest
      some (c :: digits, rest)
    else if c == '_' then none
    else some ([], c :: rest)
  | [] => some ([], [])

/-- One or more digits. -/
def digits (isDigit : Char → Bool) : List Char → Option (List Char × List Char)
  | c :: rest =>
    if isDigit c then do
      let (digits, rest) ← moreDigits isDigit rest
      some (c :: digits, rest)
    else none
  | [] => none

/-- The digits before a point, which start with a zero only if that is all. -/
def wholeDigits : List Char → Option (List Char × List Char)
  | '0' :: rest => some (['0'], rest)
  | text => digits Char.isDigit text

/-- The value of digits to a base. -/
def valueOf (base : Nat) (digits : List Char) : Nat :=
  (Text.digitsValue? base digits).getD 0

/-- An integer within 64 bits. -/
def integer? (negative : Bool) (magnitude : Nat) : Option CachePolicy.Number :=
  let value : Int := if negative then -magnitude else magnitude
  if -2 ^ 63 ≤ value ∧ value < 2 ^ 63 then some (.int value) else none

/-- The double nearest to `magnitude * 10 ^ scale`.  Scales far beyond the range
of doubles are settled by the number of digits. -/
def double (negative : Bool) (magnitude : Nat) (scale : Int) : Binary64 :=
  let order := (toString magnitude).length + scale
  if magnitude = 0 ∨ order < -400 then Binary64.ofMagnitude negative 0
  else if 400 < order then Binary64.ofMagnitude negative Binary64.infinityBits
  else if 0 ≤ scale then Binary64.ofRatio negative (magnitude * 10 ^ scale.toNat) 1
  else Binary64.ofRatio negative magnitude (10 ^ (-scale).toNat)

/-- A double as a value.  There is none for an infinity, which a literal may
reach only below zero. -/
def doubleJson (x : Binary64) : Option Json :=
  if x.isFinite then some (.num (.float x))
  else if x.isNegative then some .null
  else none

/-- The exponent after `e`. -/
def exponent (text : List Char) : Option (Int × List Char) := do
  let (negative, text) := match text with
    | '+' :: rest => (false, rest)
    | '-' :: rest => (true, rest)
    | _ => (false, text)
  let (written, rest) ← digits Char.isDigit text
  let power : Int := valueOf 10 written
  some (if negative then -power else power, rest)

/-- The exponent, when there is one. -/
def scale : List Char → Option (Int × List Char)
  | 'e' :: rest => exponent rest
  | 'E' :: rest => exponent rest
  | text => some (0, text)

/-- A number after its sign. -/
def decimal (negative : Bool) (text : List Char) : Option (Json × List Char) := do
  let (whole, rest) ← wholeDigits text
  match rest with
  | '.' :: rest => do
    let (fraction, rest) ← digits Char.isDigit rest
    let (power, rest) ← scale rest
    let value ← doubleJson
      (double negative (valueOf 10 (whole ++ fraction)) (power - fraction.length))
    some (value, rest)
  | 'e' :: _ | 'E' :: _ => do
    let (power, rest) ← scale rest
    let value ← doubleJson (double negative (valueOf 10 whole) power)
    some (value, rest)
  | _ => do
    let value ← integer? negative (valueOf 10 whole)
    some (.num value, rest)

/-- An integer to another base than ten. -/
def based (base : Nat) (isDigit : Char → Bool) (text : List Char) : Option (Json × List Char) := do
  let (written, rest) ← digits isDigit text
  let value ← integer? false (valueOf base written)
  some (.num value, rest)

/-- A number after its sign, or one of the words for what no digits can write. -/
def signed (negative : Bool) : List Char → Option (Json × List Char)
  | 'i' :: 'n' :: 'f' :: rest => some (.null, rest)
  | 'n' :: 'a' :: 'n' :: rest => some (.null, rest)
  | text => decimal negative text

/-- A number.  Infinities and what is not a number become null. -/
def read : List Char → Option (Json × List Char)
  | '0' :: 'x' :: rest => based 16 (fun c => (Text.hexValue? c).isSome) rest
  | '0' :: 'o' :: rest => based 8 (fun c => '0' ≤ c && c ≤ '7') rest
  | '0' :: 'b' :: rest => based 2 (fun c => c == '0' || c == '1') rest
  | '+' :: rest => signed false rest
  | '-' :: rest => signed true rest
  | text => signed false text

end Number

end CachePolicy.Toml
