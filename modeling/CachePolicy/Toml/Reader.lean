import CachePolicy.Toml.DateTime
import CachePolicy.Toml.Number
import CachePolicy.Toml.Table
import CachePolicy.Toml.Text

/-!
# Reading documents

A document is lines: a header in brackets, a key with a value, or neither, each
with a comment at its end if need be.  `Toml.read` takes a whole text to one
object, whose members stand in the order in which the document names them.

Dates and times become texts, and the numbers that JSON cannot write become
null.  A text that is no document has no value; nothing is said about why.
-/

namespace CachePolicy.Toml

namespace Reader

/-- The text after blanks, line breaks and comments, skipping no more than `fuel`
comments. -/
def skipGap : (fuel : Nat) → List Char → List Char
  | 0, text => text
  | fuel + 1, text =>
    match Scan.skipLines text with
    | '#' :: rest => skipGap fuel (rest.dropWhile Scan.isPlain)
    | rest => rest

/-- The text after the gap between the items of an array. -/
def skipAll (text : List Char) : List Char := skipGap (text.length + 1) text

mutual

/-- A value.  `depth` counts the levels that may still be opened. -/
def value : (fuel depth : Nat) → List Char → Option (Json × List Char)
  | 0, _, _ => none
  | fuel + 1, depth, text =>
    match text with
    | '"' :: '"' :: '"' :: rest => do
      let (s, rest) ← Scan.lines '"' rest
      some (.str s, rest)
    | '\'' :: '\'' :: '\'' :: rest => do
      let (s, rest) ← Scan.lines '\'' rest
      some (.str s, rest)
    | '"' :: rest => do
      let (s, rest) ← Scan.quoted rest
      some (.str s, rest)
    | '\'' :: rest => do
      let (s, rest) ← Scan.verbatim rest
      some (.str s, rest)
    | 't' :: 'r' :: 'u' :: 'e' :: rest => some (.bool true, rest)
    | 'f' :: 'a' :: 'l' :: 's' :: 'e' :: rest => some (.bool false, rest)
    | '[' :: rest =>
      if depth ≤ 1 then none
      else do
        let (items, rest) ← items fuel (depth - 1) rest
        some (.arr items, rest)
    | '{' :: rest =>
      if depth ≤ 1 then none
      else
        match Scan.skipBlanks rest with
        | '}' :: rest => some (.obj [], rest)
        | rest => do
          let (fields, rest) ← fields fuel (depth - 1) [] rest
          some (.obj fields.members, rest)
    | text =>
      match DateTime.read? text with
      | some (moment, rest) => some (.str moment, rest)
      | none => Number.read text

/-- The items of an array and its closing bracket; a comma may stand after the
last item. -/
def items : (fuel depth : Nat) → List Char → Option (List Json × List Char)
  | 0, _, _ => none
  | fuel + 1, depth, text =>
    match skipAll text with
    | ']' :: rest => some ([], rest)
    | text => do
      let (first, rest) ← value fuel depth text
      match skipAll rest with
      | ']' :: rest => some ([first], rest)
      | ',' :: rest => do
        let (more, rest) ← items fuel depth rest
        some (first :: more, rest)
      | _ => none

/-- The members of an inline table that follow those already read, and its
closing brace. -/
def fields : (fuel depth : Nat) → (done : Fields) → List Char → Option (Fields × List Char)
  | 0, _, _, _ => none
  | fuel + 1, depth, done, text => do
    let ((path, key), rest) ← Scan.path text
    match rest with
    | '=' :: rest => do
      let (value, rest) ← value fuel depth (Scan.skipBlanks rest)
      let done ← Fields.assign path key value .explicit done
      match Scan.skipBlanks rest with
      | ',' :: rest => fields fuel depth done rest
      | '}' :: rest => some (done, rest)
      | _ => none
    | _ => none

end

/-- The text after the rest of a line, which holds nothing but a comment. -/
def lineEnd (text : List Char) : Option (List Char) :=
  match Scan.skipComment (Scan.skipBlanks text) with
  | [] => some []
  | text => Scan.newline? text

/-- What was read so far, and the table that the last header opened. -/
structure State where
  root : Fields
  header : List String

/-- Give a key of the open table a value. -/
def State.assign (path : List String) (key : String) (value : Json) (state : State) :
    Option State := do
  let change (kind : TableKind) (fields : Fields) := Fields.assign path key value kind fields
  let root ← Fields.descend false change state.header .explicit state.root
  some { state with root }

/-- Change the table that a header stands in, and open what it names. -/
def State.enter (change : String → TableKind → Fields → Option Fields)
    (path : List String) (key : String) (state : State) : Option State := do
  let root ← Fields.descend false (change key) path .explicit state.root
  some ⟨root, path ++ [key]⟩

/-- One line, and the text after it. -/
def line (state : State) (text : List Char) : Option (State × List Char) :=
  match text with
  | '[' :: '[' :: rest => do
    let ((path, key), rest) ← Scan.path rest
    match rest with
    | ']' :: ']' :: rest => do
      let state ← state.enter Fields.openElement path key
      some (state, ← lineEnd rest)
    | _ => none
  | '[' :: rest => do
    let ((path, key), rest) ← Scan.path rest
    match rest with
    | ']' :: rest => do
      let state ← state.enter Fields.openTable path key
      some (state, ← lineEnd rest)
    | _ => none
  | text => do
    let ((path, key), rest) ← Scan.path text
    match rest with
    | '=' :: rest => do
      let rest := Scan.skipBlanks rest
      let (value, rest) ← value (2 * rest.length + 2) Scan.nestingLimit rest
      let state ← state.assign path key value
      some (state, ← lineEnd rest)
    | _ => none

/-- The lines of a text, of which there are at most `fuel`. -/
def document : (fuel : Nat) → State → List Char → Option State
  | 0, _, _ => none
  | fuel + 1, state, text =>
    match skipAll text with
    | [] => some state
    | text => do
      let (state, rest) ← line state text
      document fuel state rest

end Reader

/-- The object that a text writes.  A byte order mark may stand before it. -/
def read (text : String) : Option Json := do
  let chars := match text.toList with
    | '\uFEFF' :: rest => rest
    | chars => chars
  let state ← Reader.document (chars.length + 1) ⟨[], []⟩ chars
  some (.obj state.root.members)

end CachePolicy.Toml
