import CachePolicy.Data.Instances
import CachePolicy.Text.Hex
import CachePolicy.Text.Split

/-!
# Numeric addresses

A host that ends in a number is an IPv4 address, written as one to four numbers
of any base between dots.  A host between brackets is an IPv6 address, eight
pieces of sixteen bits of which one run of zeros may be left out as `::`, and of
which the last two may be written as an IPv4 address.

Both are printed in one normal form.
-/

namespace CachePolicy

namespace Ipv4

/-- A number of an address: hexadecimal after `0x`, octal after another `0`,
else decimal. -/
def number? : List Char → Option Nat
  | [] => none
  | '0' :: 'x' :: digits => Text.digitsValue? 16 digits
  | '0' :: 'X' :: digits => Text.digitsValue? 16 digits
  | ['0'] => some 0
  | '0' :: digits => Text.digitsValue? 8 digits
  | digits => Text.digitsValue? 10 digits

/-- The pieces of a host between dots, less an empty one at the end. -/
def parts (host : List Char) : List (List Char) :=
  let pieces := Text.split (· == '.') host
  if pieces.length > 1 ∧ pieces.getLast? = some [] then pieces.dropLast else pieces

/-- Whether the last part of a host is a number, so that it has to be an
address. -/
def endsInNumber (host : List Char) : Bool :=
  match (parts host).getLast? with
  | none => false
  | some [] => false
  | some last => last.all Char.isDigit || (number? last).isSome

/-- The address of the numbers before the last and the last, which fills what
they leave. -/
def ofNumbers (first : List Nat) (last : Nat) : Option UInt32 :=
  if first.length ≤ 3 ∧ first.all (· < 256) ∧ last < 256 ^ (4 - first.length) then
    some (UInt32.ofNat (first.foldl (fun value n => value * 256 + n) 0 *
      256 ^ (4 - first.length) + last))
  else none

/-- Read an address. -/
def read (host : List Char) : Option UInt32 := do
  let numbers ← (parts host).mapM number?
  let last ← numbers.getLast?
  ofNumbers numbers.dropLast last

/-- An address in decimal with dots. -/
def text (address : UInt32) : List Char :=
  let n := address.toNat
  List.intercalate ['.'] ([n / 256 ^ 3, n / 256 ^ 2 % 256, n / 256 % 256, n % 256].map
    fun part => Nat.toDigits 10 part)

end Ipv4

namespace Ipv6

/-- A piece of one to four hexadecimal digits. -/
def piece? (digits : List Char) : Option UInt16 :=
  if digits.isEmpty ∨ 4 < digits.length then none
  else (Text.digitsValue? 16 digits).map UInt16.ofNat

/-- A decimal number below 256 that does not begin with a needless zero. -/
def byte? (digits : List Char) : Option Nat := do
  if digits.isEmpty ∨ (digits.head? = some '0' ∧ digits.length ≠ 1) then none
  let value ← Text.digitsValue? 10 digits
  if value < 256 then some value else none

/-- The two pieces of an IPv4 address in its decimal form. -/
def embedded? (text : List Char) : Option (List UInt16) := do
  match ← (Text.split (· == '.') text).mapM byte? with
  | [a, b, c, d] => some [UInt16.ofNat (a * 256 + b), UInt16.ofNat (c * 256 + d)]
  | _ => none

/-- The pieces that are written out; `atEnd` tells whether the address ends with
them. -/
def pieces? (atEnd : Bool) : List (List Char) → Option (List UInt16)
  | [] => some []
  | [last] =>
    if atEnd ∧ last.contains '.' then embedded? last else (piece? last).map ([·])
  | part :: rest => do
    let piece ← piece? part
    let more ← pieces? atEnd rest
    some (piece :: more)

/-- The pieces of one side of `::`, which may be empty. -/
def side? (atEnd : Bool) (text : List Char) : Option (List UInt16) :=
  if text.isEmpty then some [] else pieces? atEnd (Text.split (· == ':') text)

/-- The texts before and after the first `::`. -/
def gap? : List Char → Option (List Char × List Char)
  | ':' :: ':' :: rest => some ([], rest)
  | c :: rest => (gap? rest).map fun (before, after) => (c :: before, after)
  | [] => none

/-- Read the eight pieces of an address; `::` stands for at least one zero. -/
def read (text : List Char) : Option (List UInt16) := do
  match gap? text with
  | some (before, after) =>
    let front ← side? false before
    let back ← side? true after
    if front.length + back.length < 8 then
      some (front ++ List.replicate (8 - front.length - back.length) 0 ++ back)
    else none
  | none =>
    let pieces ← side? true text
    if pieces.length = 8 then some pieces else none

/-- How many zeros stand at the front. -/
def zeros (pieces : List UInt16) : Nat := (pieces.takeWhile (· == 0)).length

/-- The start and length of the first of the longest runs of zeros, from index
`at` on. -/
def longestRun (index : Nat) : List UInt16 → Nat × Nat
  | [] => (index, 0)
  | piece :: rest =>
    let here := zeros (piece :: rest)
    let later := longestRun (index + 1) rest
    if later.2 ≤ here then (index, here) else later

/-- Pieces between colons. -/
def joined (pieces : List UInt16) : List Char :=
  List.intercalate [':'] (pieces.map fun piece => Nat.toDigits 16 piece.toNat)

/-- An address in its normal form: the first of the longest runs of two or more
zeros is left out. -/
def text (pieces : List UInt16) : List Char :=
  let (start, length) := longestRun 0 pieces
  if length < 2 then joined pieces
  else joined (pieces.take start) ++ "::".toList ++ joined (pieces.drop (start + length))

end Ipv6

end CachePolicy
