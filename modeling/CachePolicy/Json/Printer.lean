import CachePolicy.Decimal.Shortest
import CachePolicy.Json.Basic
import CachePolicy.Text.Hex

/-!
# Writing JSON

Two layouts of one text: `compact` leaves out all blanks, `pretty` puts every
member on a line of its own under two more blanks than its parent.

A text is quoted by `quoted`: the quotation mark, the backslash and the control
characters below the blank are escaped, with the five short forms where JSON has
one, and every other character stands for itself.
-/

namespace CachePolicy

namespace Json

/-- The characters that stand for one character between quotation marks. -/
def escapeChar (c : Char) : List Char :=
  if c = '"' then ['\\', '"']
  else if c = '\\' then ['\\', '\\']
  else if c = '\n' then ['\\', 'n']
  else if c = '\r' then ['\\', 'r']
  else if c = '\t' then ['\\', 't']
  else if c.toNat = 8 then ['\\', 'b']
  else if c.toNat = 12 then ['\\', 'f']
  else if c.toNat < 32 then
    ['\\', 'u', '0', '0', Text.lowerHex (c.toNat / 16), Text.lowerHex c.toNat]
  else [c]

/-- A text between quotation marks. -/
def quotedChars (text : List Char) : List Char :=
  '"' :: (text.flatMap escapeChar ++ ['"'])

/-- A text as a JSON literal. -/
def quoted (text : String) : String := String.ofList (quotedChars text.toList)

/-- Doubles are positional from 0.00001 up to below 10 ^ 16, keep `.0` and the
sign of zero, and always sign their exponent. -/
def doubles : Decimal.Layout where
  leastPoint := -4
  greatestPoint := 16
  keepsPoint := true
  keepsZeroSign := true

/-- The characters of an integer. -/
def intChars : Int → List Char
  | .ofNat n => Nat.toDigits 10 n
  | .negSucc n => '-' :: Nat.toDigits 10 (n + 1)

/-- The characters of a number. -/
def numberChars : Number → List Char
  | .int n => intChars n
  | .float x => Decimal.write doubles x

mutual

/-- The characters of a value without blanks. -/
def compactChars : Json → List Char
  | .null => ['n', 'u', 'l', 'l']
  | .bool true => ['t', 'r', 'u', 'e']
  | .bool false => ['f', 'a', 'l', 's', 'e']
  | .num n => numberChars n
  | .str s => quotedChars s.toList
  | .arr items => '[' :: (compactItems items ++ [']'])
  | .obj fields => '{' :: (compactFields fields ++ ['}'])

/-- List items with a comma between each two. -/
def compactItems : List Json → List Char
  | [] => []
  | [item] => compactChars item
  | item :: next :: rest => compactChars item ++ ',' :: compactItems (next :: rest)

/-- Object members with a comma between each two. -/
def compactFields : List (String × Json) → List Char
  | [] => []
  | [(key, value)] => quotedChars key.toList ++ ':' :: compactChars value
  | (key, value) :: next :: rest =>
    quotedChars key.toList ++ ':' :: (compactChars value ++ ',' :: compactFields (next :: rest))

end

/-- The text of a value without blanks. -/
def compact (value : Json) : String := String.ofList (compactChars value)

/-- A line break and the indentation of a depth. -/
def lineBreak (depth : Nat) : List Char := '\n' :: List.replicate (2 * depth) ' '

mutual

/-- The characters of a value with one member a line. -/
def prettyChars (depth : Nat) : Json → List Char
  | .arr [] => ['[', ']']
  | .arr items => '[' :: (prettyItems (depth + 1) items ++ lineBreak depth ++ [']'])
  | .obj [] => ['{', '}']
  | .obj fields => '{' :: (prettyFields (depth + 1) fields ++ lineBreak depth ++ ['}'])
  | value => compactChars value

/-- List items, each on a line of its own. -/
def prettyItems (depth : Nat) : List Json → List Char
  | [] => []
  | [item] => lineBreak depth ++ prettyChars depth item
  | item :: next :: rest =>
    lineBreak depth ++ prettyChars depth item ++ ',' :: prettyItems depth (next :: rest)

/-- Object members, each on a line of its own. -/
def prettyFields (depth : Nat) : List (String × Json) → List Char
  | [] => []
  | [(key, value)] =>
    lineBreak depth ++ quotedChars key.toList ++ ':' :: ' ' :: prettyChars depth value
  | (key, value) :: next :: rest =>
    lineBreak depth ++ quotedChars key.toList ++ ':' :: ' ' :: (prettyChars depth value ++
      ',' :: prettyFields depth (next :: rest))

end

/-- The text of a value with one member a line. -/
def pretty (value : Json) : String := String.ofList (prettyChars 0 value)

end Json

end CachePolicy
