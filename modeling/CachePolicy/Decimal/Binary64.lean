import CachePolicy.Data.Instances

/-!
# Double-precision numbers as bit patterns

A number with a fraction or an exponent is kept as the 64 bits of its binary
form, so that equality is equality of bits and every operation is exact integer
arithmetic followed by one rounding.

The only operation that rounds is `ofRatio`: it takes the nearest representable
number and, between two equally near ones, the one with the even significand.
-/

namespace CachePolicy

/-- A double-precision number, given by its bits: one for the sign, eleven for
the exponent and fifty-two for the fraction. -/
structure Binary64 where
  bits : UInt64
  deriving DecidableEq, Repr, Inhabited

namespace Binary64

/-- The number of values between two powers of two. -/
def binade : Nat := 2 ^ 52

/-- The bits of infinity, without the sign. -/
def infinityBits : Nat := 2047 * binade

/-- Whether the sign bit is set; it is set on negative zero as well. -/
def isNegative (x : Binary64) : Bool := x.bits.toNat ≥ 2 ^ 63

/-- The bits without the sign. -/
def magnitudeBits (x : Binary64) : Nat := x.bits.toNat % 2 ^ 63

/-- Neither an infinity nor a pattern that stands for no number. -/
def isFinite (x : Binary64) : Bool := x.magnitudeBits < infinityBits

/-- The integer `m` in the magnitude `m * 2 ^ e`. -/
def significand (x : Binary64) : Nat :=
  if x.magnitudeBits < binade then x.magnitudeBits
  else binade + x.magnitudeBits % binade

/-- The integer `e` in the magnitude `m * 2 ^ e`. -/
def exponent (x : Binary64) : Int :=
  if x.magnitudeBits < binade then -1074
  else (x.magnitudeBits / binade : Nat) - 1075

/-- Put a sign on a bit pattern that has none. -/
def ofMagnitude (negative : Bool) (magnitude : Nat) : Binary64 :=
  ⟨UInt64.ofNat (if negative then 2 ^ 63 + magnitude else magnitude)⟩

/-- The quotient rounded to the nearest integer, a half going to the even one. -/
def roundHalfEven (num den : Nat) : Nat :=
  let whole := num / den
  let rest := num % den
  if 2 * rest < den then whole
  else if den < 2 * rest then whole + 1
  else if whole % 2 = 0 then whole else whole + 1

/-- `num * 2 ^ shift / den` as a fraction of natural numbers. -/
def shifted (num den : Nat) (shift : Int) : Nat × Nat :=
  if 0 ≤ shift then (num * 2 ^ shift.toNat, den) else (num, den * 2 ^ (-shift).toNat)

/-- The representable number nearest to `num / den`; beyond the largest one it
is infinity. -/
def ofRatio (negative : Bool) (num den : Nat) : Binary64 :=
  if num = 0 then ofMagnitude negative 0
  else
    let guess : Int := max ((num.log2 : Int) - den.log2 - 52) (-1074)
    let scaled := shifted num den (-guess)
    let scale : Int :=
      if scaled.1 < binade * scaled.2 then max (guess - 1) (-1074) else guess
    let scaled := shifted num den (-scale)
    let bits := (scale + 1074).toNat * binade + roundHalfEven scaled.1 scaled.2
    ofMagnitude negative (min bits infinityBits)

/-- The magnitude as a fraction. -/
def ratio (x : Binary64) : Nat × Nat := shifted x.significand 1 x.exponent

/-- The product of two magnitudes, rounded once, under the sign given. -/
def mul (negative : Bool) (x y : Binary64) : Binary64 :=
  ofRatio negative (x.ratio.1 * y.ratio.1) (x.ratio.2 * y.ratio.2)

/-- The quotient of two magnitudes, rounded once, under the sign given. -/
def div (negative : Bool) (x y : Binary64) : Binary64 :=
  ofRatio negative (x.ratio.1 * y.ratio.2) (x.ratio.2 * y.ratio.1)

/-- The number nearest to an integer. -/
def ofInt (n : Int) : Binary64 := ofRatio (n < 0) n.natAbs 1

/-- The number nearest to a power of ten. -/
def powerOfTen (k : Nat) : Binary64 := ofRatio false (10 ^ k) 1

@[simp] theorem isFinite_iff (x : Binary64) :
    x.isFinite = true ↔ x.magnitudeBits < infinityBits := by
  simp [isFinite]

end Binary64

end CachePolicy
