import CachePolicy.Json.Printer

/-!
# The canonical text of a value

Two values with the same members in another order have one canonical text: the
members of every object are sorted by key, compared by UTF-16 code units, and
every number is written as a double in the shortest form.

The text is what a fingerprint is taken of, so the order of an object's members
and the difference between close large integers are lost in it.
-/

namespace CachePolicy.Json

/-- The UTF-16 code units of a character. -/
def charUnits (c : Char) : List Nat :=
  if c.toNat < 0x10000 then [c.toNat]
  else [0xD800 + (c.toNat - 0x10000) / 1024, 0xDC00 + (c.toNat - 0x10000) % 1024]

/-- The UTF-16 code units of a text. -/
def units (text : String) : List Nat := text.toList.flatMap charUnits

/-- A list of numbers stands at or before another one in dictionary order. -/
def unitsLe : List Nat → List Nat → Bool
  | [], _ => true
  | _ :: _, [] => false
  | x :: xs, y :: ys => if x < y then true else if y < x then false else unitsLe xs ys

/-- The order of members in a canonical object. -/
def keyLe (x y : String × Json) : Bool := unitsLe (units x.1) (units y.1)

/-- Canonical numbers are positional up to 21 digits before the point and six
zeros after it, and a whole number has no point. -/
def canonicalDoubles : Decimal.Layout where
  leastPoint := -5
  greatestPoint := 21
  keepsPoint := false
  keepsZeroSign := false

/-- The characters of a number, as a double. -/
def canonicalNumber : Number → List Char
  | .int n => Decimal.write canonicalDoubles (Binary64.ofInt n)
  | .float x => Decimal.write canonicalDoubles x

mutual

/-- The value with the members of every object in canonical order. -/
def sorted : Json → Json
  | .arr items => .arr (sortedItems items)
  | .obj fields => .obj ((sortedFields fields).mergeSort keyLe)
  | value => value

/-- The items, each in canonical order. -/
def sortedItems : List Json → List Json
  | [] => []
  | item :: rest => sorted item :: sortedItems rest

/-- The members, each value in canonical order. -/
def sortedFields : List (String × Json) → List (String × Json)
  | [] => []
  | (key, value) :: rest => (key, sorted value) :: sortedFields rest

end

mutual

/-- The characters of a value whose members are in canonical order. -/
def canonicalChars : Json → List Char
  | .num n => canonicalNumber n
  | .arr items => '[' :: (canonicalItems items ++ [']'])
  | .obj fields => '{' :: (canonicalFields fields ++ ['}'])
  | value => compactChars value

/-- List items with a comma between each two. -/
def canonicalItems : List Json → List Char
  | [] => []
  | [item] => canonicalChars item
  | item :: next :: rest => canonicalChars item ++ ',' :: canonicalItems (next :: rest)

/-- Object members with a comma between each two. -/
def canonicalFields : List (String × Json) → List Char
  | [] => []
  | [(key, value)] => quotedChars key.toList ++ ':' :: canonicalChars value
  | (key, value) :: next :: rest =>
    quotedChars key.toList ++
      ':' :: (canonicalChars value ++ ',' :: canonicalFields (next :: rest))

end

/-- The canonical text of a value. -/
def canonical (value : Json) : String := String.ofList (canonicalChars value.sorted)

end CachePolicy.Json
