import CachePolicy.Text.Padded

/-!
# Dates and times

A date, a time of the day, or a date with a time and perhaps an offset.  What is
read is only ever written again, in one form: `T` between date and time, no
trailing zeros in a fraction of a second, which is kept to nine digits, and `Z`
for the zero offset if it was written so.
-/

namespace CachePolicy.Toml

namespace DateTime

/-- The number of exactly `count` digits, when it lies within the bounds. -/
def digits? (count low high : Nat) (text : List Char) : Option (Nat × List Char) :=
  let written := text.take count
  if written.length = count ∧ written.all Char.isDigit then
    let value := Nat.ofDigitChars 10 written 0
    if low ≤ value ∧ value ≤ high then some (value, text.drop count) else none
  else none

/-- The text after a character that has to stand there. -/
def after? (expected : Char) : List Char → Option (List Char)
  | c :: rest => if c = expected then some rest else none
  | [] => none

/-- The days of a month. -/
def monthLength (year month : Nat) : Nat :=
  if month = 2 then
    if year % 4 = 0 ∧ (year % 100 ≠ 0 ∨ year % 400 = 0) then 29 else 28
  else if month = 4 ∨ month = 6 ∨ month = 9 ∨ month = 11 then 30
  else 31

/-- A date. -/
def date? (text : List Char) : Option (String × List Char) := do
  let (year, rest) ← digits? 4 0 9999 text
  let rest ← after? '-' rest
  let (month, rest) ← digits? 2 1 12 rest
  let rest ← after? '-' rest
  let (day, rest) ← digits? 2 1 (monthLength year month) rest
  some (s!"{Text.padded 4 year}-{Text.padded 2 month}-{Text.padded 2 day}", rest)

/-- The fraction of a second, without the zeros at its end. -/
def fraction (text : List Char) : String × List Char :=
  match text with
  | '.' :: rest =>
    match rest.takeWhile Char.isDigit with
    | [] => ("", text)
    | written =>
      let kept := ((written.take 9).reverse.dropWhile (· == '0')).reverse
      (if kept.isEmpty then "" else String.ofList ('.' :: kept), rest.dropWhile Char.isDigit)
  | _ => ("", text)

/-- A time of the day; the sixtieth second is a leap second. -/
def time? (text : List Char) : Option (String × List Char) := do
  let (hour, rest) ← digits? 2 0 23 text
  let rest ← after? ':' rest
  let (minute, rest) ← digits? 2 0 59 rest
  let rest ← after? ':' rest
  let (second, rest) ← digits? 2 0 60 rest
  let (fraction, rest) := fraction rest
  some (s!"{Text.padded 2 hour}:{Text.padded 2 minute}:{Text.padded 2 second}{fraction}", rest)

/-- An offset in hours and minutes; nothing to offset has no sign. -/
def distance? (sign : String) (text : List Char) : Option (String × List Char) := do
  let (hour, rest) ← digits? 2 0 23 text
  let rest ← after? ':' rest
  let (minute, rest) ← digits? 2 0 59 rest
  let sign := if hour = 0 ∧ minute = 0 then "+" else sign
  some (s!"{sign}{Text.padded 2 hour}:{Text.padded 2 minute}", rest)

/-- An offset. -/
def offset? : List Char → Option (String × List Char)
  | 'Z' :: rest => some ("Z", rest)
  | 'z' :: rest => some ("Z", rest)
  | '+' :: rest => distance? "+" rest
  | '-' :: rest => distance? "-" rest
  | _ => none

/-- Whether a character stands between a date and a time. -/
def separates (c : Char) : Bool := c == 'T' || c == 't' || c == ' '

/-- The time after a date, with its offset. -/
def clock? : List Char → Option (String × List Char)
  | c :: text =>
    if separates c then do
      let (time, rest) ← time? text
      match offset? rest with
      | some (offset, rest) => some (s!"T{time}{offset}", rest)
      | none => some (s!"T{time}", rest)
    else none
  | [] => none

/-- The written form of what stands in front of a text, and the rest. -/
def read? (text : List Char) : Option (String × List Char) :=
  match date? text with
  | some (date, rest) =>
    match clock? rest with
    | some (clock, rest) => some (date ++ clock, rest)
    | none => some (date, rest)
  | none => time? text

end DateTime

end CachePolicy.Toml
