import CachePolicy.Decimal.Binary64

/-!
# The shortest decimal that reads back

A finite double is written with the fewest significant digits that still round
to it, and among those with the digits nearest to it.  For a count of digits
only the two neighbours of the number on that decimal grid can qualify, so the
search tries one digit, two digits and so on, and takes the first hit.

How the digits are laid out is a matter of the format that writes them.  A
`Layout` holds those decisions; `Decimal.write` follows them.
-/

namespace CachePolicy

/-- A positive decimal number `digits * 10 ^ scale`. -/
structure Decimal where
  digits : Nat
  scale : Int
  deriving DecidableEq, Repr

namespace Decimal

/-- `digits * 10 ^ scale` as a fraction. -/
def ratio (d : Decimal) : Nat × Nat :=
  if 0 ≤ d.scale then (d.digits * 10 ^ d.scale.toNat, 1)
  else (d.digits, 10 ^ (-d.scale).toNat)

/-- The fraction `x` is below `y`. -/
def below (x y : Nat × Nat) : Bool := x.1 * y.2 < y.1 * x.2

/-- How far two fractions are apart. -/
def distance (x y : Nat × Nat) : Nat × Nat :=
  (max (x.1 * y.2 - y.1 * x.2) (y.1 * x.2 - x.1 * y.2), x.2 * y.2)

/-- The decimal digits of a natural number. -/
def digitCount (n : Nat) : Nat := (Nat.toDigits 10 n).length

/-- The exponent `e` with `10 ^ (e - 1) ≤ x < 10 ^ e`. -/
def magnitude (x : Nat × Nat) : Int :=
  let guess : Int := (digitCount x.1 : Int) - digitCount x.2
  if below x (ratio ⟨1, guess⟩) then guess else guess + 1

/-- The reals that round to a double, as the two ends of an interval; the ends
belong to it when the significand is even. -/
def roundingEnds (x : Binary64) : (Nat × Nat) × (Nat × Nat) :=
  let m := x.significand
  let narrow := m = Binary64.binade ∧ -1074 < x.exponent
  let low := if narrow then 4 * m - 1 else 4 * m - 2
  (Binary64.shifted low 1 (x.exponent - 2), Binary64.shifted (4 * m + 2) 1 (x.exponent - 2))

/-- Whether reading `d` gives the double `x`. -/
def readsAs (d : Decimal) (x : Binary64) : Bool :=
  let ends := roundingEnds x
  if x.significand % 2 = 0 then !below d.ratio ends.1 && !below ends.2 d.ratio
  else below ends.1 d.ratio && below d.ratio ends.2

/-- The better of the two neighbours of `x` with `count` digits, if one of them
reads back as `x`. -/
def withDigits (x : Binary64) (count : Nat) : Option Decimal :=
  let scale := magnitude x.ratio - count
  let unit := ratio ⟨1, scale⟩
  let low := x.ratio.1 * unit.2 / (x.ratio.2 * unit.1)
  let down : Decimal := ⟨low, scale⟩
  let up : Decimal := ⟨low + 1, scale⟩
  match down.readsAs x, up.readsAs x with
  | true, true =>
    let below := distance x.ratio down.ratio
    let above := distance x.ratio up.ratio
    if Decimal.below below above then some down
    else if Decimal.below above below then some up
    else if low % 2 = 0 then some down else some up
  | true, false => some down
  | false, true => some up
  | false, false => none

/-- The shortest decimal of a finite non-zero double.  Seventeen digits always
suffice. -/
def shortest (x : Binary64) : Decimal :=
  ((List.range 17).findSome? fun n => withDigits x (n + 1)).getD ⟨0, 0⟩

/-- What a number format decides about the written form: where positional
notation is used, whether a whole number keeps `.0`, and whether zero keeps its
sign.  The bounds are on the place of the decimal point, counted from the first
digit. -/
structure Layout where
  leastPoint : Int
  greatestPoint : Int
  keepsPoint : Bool
  keepsZeroSign : Bool
  deriving DecidableEq, Repr

/-- Write digits with the decimal point after the first `point` of them. -/
def place (layout : Layout) (digits : List Char) (point : Int) : List Char :=
  if point < layout.leastPoint ∨ layout.greatestPoint < point then
    let sign := if point - 1 < 0 then '-' else '+'
    let head := match digits with
      | [] => []
      | [d] => [d]
      | d :: rest => d :: '.' :: rest
    head ++ 'e' :: sign :: Nat.toDigits 10 (point - 1).natAbs
  else if point ≤ 0 then
    '0' :: '.' :: (List.replicate (-point).toNat '0' ++ digits)
  else
    let whole := digits.take point.toNat
    let fraction := digits.drop point.toNat
    let padded := whole ++ List.replicate (point.toNat - whole.length) '0'
    if fraction.isEmpty then
      if layout.keepsPoint then padded ++ ['.', '0'] else padded
    else padded ++ '.' :: fraction

/-- The digits of a decimal without the zeros at its end, and the place of its
point. -/
def significantDigits (d : Decimal) : List Char × Int :=
  let digits := Nat.toDigits 10 d.digits
  ((digits.reverse.dropWhile (· == '0')).reverse, digits.length + d.scale)

/-- The text of a finite double. -/
def write (layout : Layout) (x : Binary64) : List Char :=
  if x.magnitudeBits = 0 then
    let zero := if layout.keepsPoint then ['0', '.', '0'] else ['0']
    if x.isNegative && layout.keepsZeroSign then '-' :: zero else zero
  else
    let (digits, point) := (shortest x).significantDigits
    let text := place layout digits point
    if x.isNegative then '-' :: text else text

end Decimal

end CachePolicy
