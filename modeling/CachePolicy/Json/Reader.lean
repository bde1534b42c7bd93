import CachePolicy.Json.Basic
import CachePolicy.Text.Hex

/-!
# Reading JSON

`Json.read` takes a whole text to a value.  A text is refused for one of two
reasons: it goes on in a way JSON does not allow, or it ends too early.  Nesting
is bounded, and going deeper counts as malformed.

A literal without a fraction or an exponent that fits 64 bits is an integer.
Any other number is a double, computed from its digits as far as they fit 64
bits and then scaled by a power of ten in double arithmetic.
-/

namespace CachePolicy.Json

/-- Why a text is not JSON. -/
inductive ReadError where
  | malformed
  | unfinished
  deriving DecidableEq, Repr

namespace Reader

/-- Containers may be nested one less than this deep. -/
def nestingLimit : Nat := 128

/-- The blanks between the parts of a value. -/
def isBlank (c : Char) : Bool := c = ' ' || c = '\n' || c = '\t' || c = '\r'

/-- The text after leading blanks. -/
def skipBlanks (text : List Char) : List Char := text.dropWhile isBlank

/-- Four hexadecimal digits.  A text is too short for them when fewer than four
bytes are left. -/
def fourDigits (text : List Char) : Except ReadError (Nat × List Char) :=
  if (text.map Char.utf8Size).sum < 4 then .error .unfinished
  else
    match text with
    | a :: b :: c :: d :: rest =>
      match Text.hexValue? a, Text.hexValue? b, Text.hexValue? c, Text.hexValue? d with
      | some a, some b, some c, some d => .ok (a * 4096 + b * 256 + c * 16 + d, rest)
      | _, _, _, _ => .error .malformed
    | _ => .error .malformed

/-- The character after `\u`.  A code point beyond U+FFFF is written as two
halves, and neither half may stand alone. -/
def codePoint (text : List Char) : Except ReadError (Char × List Char) := do
  let (high, rest) ← fourDigits text
  if 0xDC00 ≤ high ∧ high ≤ 0xDFFF then .error .malformed
  else if high < 0xD800 ∨ 0xDBFF < high then .ok (Char.ofNat high, rest)
  else
    match rest with
    | [] => .error .unfinished
    | '\\' :: [] => .error .unfinished
    | '\\' :: 'u' :: rest => do
      let (low, rest) ← fourDigits rest
      if low < 0xDC00 ∨ 0xDFFF < low then .error .malformed
      else .ok (Char.ofNat ((high - 0xD800) * 1024 + (low - 0xDC00) + 0x10000), rest)
    | _ => .error .malformed

/-- The character after a backslash. -/
def escaped : List Char → Except ReadError (Char × List Char)
  | [] => .error .unfinished
  | '"' :: rest => .ok ('"', rest)
  | '\\' :: rest => .ok ('\\', rest)
  | '/' :: rest => .ok ('/', rest)
  | 'b' :: rest => .ok (Char.ofNat 8, rest)
  | 'f' :: rest => .ok (Char.ofNat 12, rest)
  | 'n' :: rest => .ok ('\n', rest)
  | 'r' :: rest => .ok ('\r', rest)
  | 't' :: rest => .ok ('\t', rest)
  | 'u' :: rest => codePoint rest
  | _ => .error .malformed

/-- The text up to the closing quotation mark; `done` holds what was read, in
reverse. -/
def textTail : (fuel : Nat) → (done : List Char) → List Char → Except ReadError (String × List Char)
  | 0, _, _ => .error .unfinished
  | _ + 1, _, [] => .error .unfinished
  | _ + 1, done, '"' :: rest => .ok (String.ofList done.reverse, rest)
  | fuel + 1, done, '\\' :: rest => do
    let (c, rest) ← escaped rest
    textTail fuel (c :: done) rest
  | fuel + 1, done, c :: rest =>
    if c.toNat < 32 then .error .malformed else textTail fuel (c :: done) rest

/-- The text after an opening quotation mark. -/
def text (input : List Char) : Except ReadError (String × List Char) :=
  textTail (input.length + 1) [] input

/-- The largest integer that a literal without a sign can be. -/
def greatestInteger : Nat := 2 ^ 64 - 1

/-- Add a digit to the digits read so far, unless that leaves 64 bits. -/
def pushDigit (digits : Nat) (c : Char) : Option Nat :=
  let next := digits * 10 + (c.toNat - '0'.toNat)
  if next ≤ greatestInteger then some next else none

/-- Add digits as long as the number fits; the rest of them are only counted. -/
def pushDigits (digits : Nat) : List Char → Nat × Nat
  | [] => (digits, 0)
  | c :: rest =>
    match pushDigit digits c with
    | some next => pushDigits next rest
    | none => (digits, rest.length + 1)

/-- `digits * 10 ^ scale`, scaled in double arithmetic by at most one power of
ten, and before that by 10 ^ -308 as often as `fuel` allows and needs. -/
def scaleDouble (negative : Bool) : (fuel : Nat) → Binary64 → Int → Except ReadError Binary64
  | 0, x, _ => .ok x
  | fuel + 1, x, scale =>
    if scale.natAbs ≤ 308 then
      if 0 ≤ scale then
        let scaled := Binary64.mul negative x (Binary64.powerOfTen scale.natAbs)
        if scaled.isFinite then .ok scaled else .error .malformed
      else .ok (Binary64.div negative x (Binary64.powerOfTen scale.natAbs))
    else if x.magnitudeBits = 0 then .ok (Binary64.ofMagnitude negative 0)
    else if 0 ≤ scale then .error .malformed
    else scaleDouble negative fuel (Binary64.div negative x (Binary64.powerOfTen 308)) (scale + 308)

/-- The double of a literal. -/
def double (negative : Bool) (digits : Nat) (scale : Int) : Except ReadError Binary64 :=
  scaleDouble negative 8 (Binary64.ofRatio negative digits 1) scale

/-- The largest exponent that is computed with. -/
def greatestExponent : Nat := 2 ^ 31 - 1

/-- The exponent after `e`, applied to the digits before it. -/
def exponent (negative : Bool) (digits : Nat) (scale : Int) (input : List Char) :
    Except ReadError (Number × List Char) := do
  let (below, rest) := match input with
    | '+' :: rest => (false, rest)
    | '-' :: rest => (true, rest)
    | _ => (false, input)
  match rest with
  | [] => .error .unfinished
  | c :: _ =>
    if !c.isDigit then .error .malformed
    else
      let written := rest.takeWhile Char.isDigit
      let rest := rest.dropWhile Char.isDigit
      let power := (Nat.ofDigitChars 10 written 0)
      if greatestExponent < power then
        if digits ≠ 0 ∧ !below then .error .malformed
        else .ok (.float (Binary64.ofMagnitude negative 0), rest)
      else
        let value ← double negative digits (if below then scale - power else scale + power)
        .ok (.float value, rest)

/-- The fraction after a decimal point. -/
def fraction (negative : Bool) (digits : Nat) (scale : Int) (input : List Char) :
    Except ReadError (Number × List Char) := do
  let written := input.takeWhile Char.isDigit
  let rest := input.dropWhile Char.isDigit
  match written, rest with
  | [], [] => .error .unfinished
  | [], _ => .error .malformed
  | _, _ =>
    let (digits, dropped) := pushDigits digits written
    let scale := scale - (written.length - dropped : Nat)
    match rest with
    | 'e' :: rest => exponent negative digits scale rest
    | 'E' :: rest => exponent negative digits scale rest
    | _ => do
      let value ← double negative digits scale
      .ok (.float value, rest)

/-- An integer literal within 64 bits, or its double; `-0` is a double. -/
def whole (negative : Bool) (digits : Nat) : Number :=
  if !negative then .int digits
  else if digits = 0 ∨ 2 ^ 63 < digits then .float (Binary64.ofRatio true digits 1)
  else .int (-digits)

/-- The number after its sign. -/
def number (negative : Bool) (input : List Char) : Except ReadError (Number × List Char) := do
  let written := input.takeWhile Char.isDigit
  let rest := input.dropWhile Char.isDigit
  match written with
  | [] => .error (if input.isEmpty then .unfinished else .malformed)
  | '0' :: _ :: _ => .error .malformed
  | _ =>
    let (digits, dropped) := pushDigits 0 written
    match rest with
    | '.' :: rest => fraction negative digits dropped rest
    | 'e' :: rest => exponent negative digits dropped rest
    | 'E' :: rest => exponent negative digits dropped rest
    | _ =>
      if dropped = 0 then .ok (whole negative digits, rest)
      else do
        let value ← double negative digits dropped
        .ok (.float value, rest)

/-- The rest of a word such as `true`. -/
def word (value : Json) : (expected : List Char) → List Char → Except ReadError (Json × List Char)
  | [], rest => .ok (value, rest)
  | _ :: _, [] => .error .unfinished
  | e :: expected, c :: rest => if c = e then word value expected rest else .error .malformed

mutual

/-- A value, after leading blanks.  `depth` counts the containers that may still
be opened. -/
def value : (fuel depth : Nat) → List Char → Except ReadError (Json × List Char)
  | 0, _, _ => .error .malformed
  | fuel + 1, depth, input =>
    match skipBlanks input with
    | [] => .error .unfinished
    | 'n' :: rest => word .null ['u', 'l', 'l'] rest
    | 't' :: rest => word (.bool true) ['r', 'u', 'e'] rest
    | 'f' :: rest => word (.bool false) ['a', 'l', 's', 'e'] rest
    | '"' :: rest => do
      let (s, rest) ← text rest
      .ok (.str s, rest)
    | '[' :: rest =>
      if depth ≤ 1 then .error .malformed
      else
        match skipBlanks rest with
        | ']' :: rest => .ok (.arr [], rest)
        | rest => do
          let (items, rest) ← items fuel (depth - 1) rest
          .ok (.arr items, rest)
    | '{' :: rest =>
      if depth ≤ 1 then .error .malformed
      else
        match skipBlanks rest with
        | '}' :: rest => .ok (.obj [], rest)
        | rest => do
          let (fields, rest) ← fields fuel (depth - 1) rest
          .ok (.obj fields, rest)
    | '-' :: rest => do
      let (n, rest) ← number true rest
      .ok (.num n, rest)
    | c :: rest =>
      if c.isDigit then do
        let (n, rest) ← number false (c :: rest)
        .ok (.num n, rest)
      else .error .malformed

/-- One or more items and the closing bracket. -/
def items : (fuel depth : Nat) → List Char → Except ReadError (List Json × List Char)
  | 0, _, _ => .error .malformed
  | fuel + 1, depth, input => do
    let (first, rest) ← value fuel depth input
    match skipBlanks rest with
    | [] => .error .unfinished
    | ']' :: rest => .ok ([first], rest)
    | ',' :: rest =>
      let (more, rest) ← items fuel depth rest
      .ok (first :: more, rest)
    | _ => .error .malformed

/-- One or more members and the closing brace. -/
def fields : (fuel depth : Nat) → List Char → Except ReadError (List (String × Json) × List Char)
  | 0, _, _ => .error .malformed
  | fuel + 1, depth, input =>
    match skipBlanks input with
    | [] => .error .unfinished
    | '"' :: rest => do
      let (key, rest) ← text rest
      match skipBlanks rest with
      | [] => .error .unfinished
      | ':' :: rest =>
        let (first, rest) ← value fuel depth rest
        match skipBlanks rest with
        | [] => .error .unfinished
        | '}' :: rest => .ok ([(key, first)], rest)
        | ',' :: rest =>
          let (more, rest) ← fields fuel depth rest
          .ok ((key, first) :: more, rest)
        | _ => .error .malformed
      | _ => .error .malformed
    | _ => .error .malformed

end

/-- Steps that suffice for a text: no step leaves it as long as it was twice. -/
def steps (input : List Char) : Nat := 2 * input.length + 2

/-- Only blanks may follow the last value. -/
def finish (input : List Char) : Except ReadError Unit :=
  if (skipBlanks input).isEmpty then .ok () else .error .malformed

end Reader

/-- The value of a text. -/
def read (text : String) : Except ReadError Json := do
  let input := text.toList
  let (value, rest) ← Reader.value (Reader.steps input) Reader.nestingLimit input
  Reader.finish rest
  .ok value

end CachePolicy.Json
