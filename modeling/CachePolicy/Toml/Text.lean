import CachePolicy.Text.Hex

/-!
# Texts and keys

A text stands between quotation marks or between apostrophes; only the former
has escapes.  Three marks open a text over several lines, in which a line break
right at the start is not part of the text and a backslash at the end of a line
joins what follows the next blanks.

A key is a bare word or a text on one line, and a path is keys with dots between
them.
-/

namespace CachePolicy.Toml

namespace Scan

/-- The blanks within a line. -/
def isBlank (c : Char) : Bool := c == ' ' || c == '\t'

/-- The text after blanks. -/
def skipBlanks (text : List Char) : List Char := text.dropWhile isBlank

/-- The characters that stand for themselves in texts and comments: no control
character but the tabulator. -/
def isPlain (c : Char) : Bool := c == '\t' || 32 ≤ c.toNat && c.toNat != 127

/-- The text after a line break. -/
def newline? : List Char → Option (List Char)
  | '\n' :: rest => some rest
  | '\r' :: '\n' :: rest => some rest
  | _ => none

/-- The text after blanks and line breaks. -/
def skipLines : List Char → List Char
  | '\r' :: '\n' :: rest => skipLines rest
  | c :: rest => if isBlank c || c == '\n' then skipLines rest else c :: rest
  | [] => []

/-- The text after a comment, if there is one. -/
def skipComment : List Char → List Char
  | '#' :: rest => rest.dropWhile isPlain
  | text => text

/-- The character of exactly `count` hexadecimal digits. -/
def codePoint (count : Nat) (text : List Char) : Option (Char × List Char) := do
  let written := text.take count
  if written.length < count then none
  else
    let value ← Text.digitsValue? 16 written
    if value < 0xD800 ∨ (0xDFFF < value ∧ value < 0x110000) then
      some (Char.ofNat value, text.drop count)
    else none

/-- The character after a backslash. -/
def escaped : List Char → Option (Char × List Char)
  | 'b' :: rest => some (Char.ofNat 8, rest)
  | 't' :: rest => some ('\t', rest)
  | 'n' :: rest => some ('\n', rest)
  | 'f' :: rest => some (Char.ofNat 12, rest)
  | 'r' :: rest => some ('\r', rest)
  | '"' :: rest => some ('"', rest)
  | '\\' :: rest => some ('\\', rest)
  | 'u' :: rest => codePoint 4 rest
  | 'U' :: rest => codePoint 8 rest
  | _ => none

/-- The text up to the closing quotation mark; `done` holds what was read, in
reverse. -/
def quotedTail : (fuel : Nat) → (done : List Char) → List Char → Option (String × List Char)
  | 0, _, _ => none
  | _ + 1, _, [] => none
  | _ + 1, done, '"' :: rest => some (String.ofList done.reverse, rest)
  | fuel + 1, done, '\\' :: rest => do
    let (c, rest) ← escaped rest
    quotedTail fuel (c :: done) rest
  | fuel + 1, done, c :: rest =>
    if isPlain c then quotedTail fuel (c :: done) rest else none

/-- The text after an opening quotation mark. -/
def quoted (text : List Char) : Option (String × List Char) := quotedTail (text.length + 1) [] text

/-- The text after an opening apostrophe. -/
def verbatim (text : List Char) : Option (String × List Char) :=
  let inner := text.takeWhile fun c => isPlain c && c != '\''
  match text.drop inner.length with
  | '\'' :: rest => some (String.ofList inner, rest)
  | _ => none

/-- The text up to three closing marks; `done` holds what was read, in reverse.
Up to two more marks in front of the closing ones belong to the text. -/
def linesTail (mark : Char) :
    (fuel : Nat) → (done : List Char) → List Char → Option (String × List Char)
  | 0, _, _ => none
  | _ + 1, _, [] => none
  | fuel + 1, done, c :: rest =>
    if c = mark then
      let run := ((c :: rest).takeWhile (· == mark)).length
      let after := (c :: rest).drop run
      if run < 3 then linesTail mark fuel (List.replicate run mark ++ done) after
      else if run < 6 then
        some (String.ofList (List.replicate (run - 3) mark ++ done).reverse, after)
      else none
    else
      match newline? (c :: rest) with
      | some rest => linesTail mark fuel ('\n' :: done) rest
      | none =>
        if c = '\\' ∧ mark = '"' then
          match escaped rest with
          | some (c, rest) => linesTail mark fuel (c :: done) rest
          | none => do
            let rest ← newline? (skipBlanks rest)
            linesTail mark fuel done (skipLines rest)
        else if isPlain c then linesTail mark fuel (c :: done) rest
        else none

/-- The text after three opening marks. -/
def lines (mark : Char) (text : List Char) : Option (String × List Char) :=
  linesTail mark (text.length + 1) [] ((newline? text).getD text)

/-- Whether a character may stand in a key without quotation marks. -/
def isBare (c : Char) : Bool := c.isAlphanum || c == '_' || c == '-'

/-- One key. -/
def key : List Char → Option (String × List Char)
  | '"' :: rest => quoted rest
  | '\'' :: rest => verbatim rest
  | text =>
    match text.takeWhile isBare with
    | [] => none
    | word => some (String.ofList word, text.dropWhile isBare)

/-- Keys with dots between them, and blanks around them. -/
def keys : (fuel : Nat) → List Char → Option (List String × List Char)
  | 0, _ => none
  | fuel + 1, text => do
    let (first, rest) ← key (skipBlanks text)
    match skipBlanks rest with
    | '.' :: rest => do
      let (more, rest) ← keys fuel rest
      some (first :: more, rest)
    | rest => some ([first], rest)

/-- A path has fewer keys than this, and a value fewer levels. -/
def nestingLimit : Nat := 80

/-- A path: the keys up to the last one, and the last one. -/
def path (text : List Char) : Option ((List String × String) × List Char) := do
  let (keys, rest) ← keys (text.length + 1) text
  if nestingLimit ≤ keys.length then none
  else
    let last ← keys.getLast?
    some ((keys.dropLast, last), rest)

end Scan

end CachePolicy.Toml
