import CachePolicy.Files.Store
import CachePolicy.Json.Reader

/-!
# The pages of a site

The pathnames of the pages are either listed in a file or found among the files of
the site.  A listed page is a text, or has its pathname as a member; the list keeps
its order.

A page is found by its file's name: `index.html` stands for its directory, and any
other page for itself without the extension.  The pathnames found are in order, each
of them once, so they do not depend on the order in which files are met.
-/

namespace CachePolicy

/-- Why a text is no list of pages. -/
inductive RouteFault where
  /-- The text is not JSON. -/
  | malformed
  /-- The text is JSON up to an item that is not a page. -/
  | mismatch
  /-- The text ends too early. -/
  | unfinished
  deriving DecidableEq, Repr

/-- The name of a fault. -/
def RouteFault.name : RouteFault → String
  | .malformed => "Syntax"
  | .mismatch => "Data"
  | .unfinished => "Eof"

/-- Why the pages are not known. -/
inductive RouteError where
  | unreadable (path : String) (reason : FileError)
  | invalid (path : String) (fault : RouteFault)
  | notWalked (path : String) (reason : FileError)
  deriving DecidableEq, Repr

namespace RouteError

/-- The wording of an error, less the kind of fault in a file. -/
def summary : RouteError → String
  | unreadable path reason => s!"failed to read {path}: {reason.message}"
  | invalid path _ => s!"invalid route file {path}"
  | notWalked path reason =>
    s!"failed to walk output directory: IO error for operation on {path}: {reason.message}"

/-- The wording of an error. -/
def message (error : RouteError) : String :=
  match error with
  | invalid _ fault => s!"{error.summary}: {fault.name}"
  | _ => error.summary

end RouteError

namespace Routes

/-! ## Listed pages -/

/-- The pathname of a listed page. -/
def pathname? : Json → Option String
  | .str pathname => some pathname
  | .arr [.str pathname] => some pathname
  | .obj fields =>
    match fields.filter (·.1 == "pathname") with
    | [(_, .str pathname)] => some pathname
    | _ => none
  | _ => none

/-- The fault of a text that is not JSON. -/
def faultOf : Json.ReadError → RouteFault
  | .malformed => .malformed
  | .unfinished => .unfinished

/-- A value in front of a text, nested no deeper than a list may hold. -/
def item (fuel depth : Nat) (text : List Char) : Except RouteFault (Json × List Char) :=
  (Json.Reader.value fuel depth text).mapError faultOf

/-- One or more pages and the closing bracket.  An item that is not a page is a fault
before anything behind it is. -/
def items : (fuel : Nat) → List Char → Except RouteFault (List String × List Char)
  | 0, _ => .error .malformed
  | fuel + 1, text => do
    let (value, rest) ← item fuel (Json.Reader.nestingLimit - 1) text
    match pathname? value with
    | none => .error .mismatch
    | some pathname =>
      match Json.Reader.skipBlanks rest with
      | [] => .error .unfinished
      | ']' :: rest => .ok ([pathname], rest)
      | ',' :: rest => do
        let (more, rest) ← items fuel rest
        .ok (pathname :: more, rest)
      | _ => .error .malformed

/-- The pages, when nothing but blanks follows them. -/
def finish (pathnames : List String) (rest : List Char) : Except RouteFault (List String) :=
  if (Json.Reader.skipBlanks rest).isEmpty then .ok pathnames else .error .malformed

/-- The pages that a text lists. -/
def ofText (text : String) : Except RouteFault (List String) := do
  let input := text.toList
  let steps := Json.Reader.steps input
  match Json.Reader.skipBlanks input with
  | '[' :: rest =>
    match Json.Reader.skipBlanks rest with
    | ']' :: rest => finish [] rest
    | rest => do
      let (pathnames, rest) ← items steps rest
      finish pathnames rest
  | '{' :: _ => .error .mismatch
  | rest => do
    let _ ← item steps Json.Reader.nestingLimit rest
    .error .mismatch

/-! ## Pages among files -/

/-- The extension of pages. -/
def extension : List Char := ".html".toList

/-- The text before an ending. -/
def before? (ending text : List Char) : Option (List Char) :=
  if ending.isSuffixOf text then some (text.take (text.length - ending.length)) else none

/-- The pathname of names. -/
def rooted (names : List String) : String := "/" ++ "/".intercalate names

/-- The pathname of the page that has given names on the way to it. -/
def ofNames? (names : List String) : Option String :=
  match names.getLast? with
  | none => none
  | some "index.html" => some (rooted (names.dropLast ++ [""]))
  | some name =>
    (before? extension name.toList).map fun page =>
      rooted (names.dropLast ++ [String.ofList page])

/-- The pathname of the page that a file is, by the way to it as it is shown. -/
def ofFile? (way : Location) : Option String := ofNames? (FileName.shown way)

/-- Texts in order, each of them once. -/
def ordered (texts : List String) : List String :=
  ((SortedMap.empty : SortedMap String Unit).insertAll (texts.map (·, ()))).keys

variable {m : Type → Type} [Monad m] [FileStore m]

/-- The pages that a file lists. -/
def load (path : Path) : m (Except RouteError (List String)) := do
  match ← FileStore.readText path with
  | .error reason => return .error (.unreadable path.text reason)
  | .ok text => return (ofText text).mapError (.invalid path.text)

/-- The pages among the files of a directory. -/
def enumerate (dir : Path) : m (Except RouteError (List String)) := do
  match ← FileStore.walk dir with
  | .error reason => return .error (.notWalked dir.text reason)
  | .ok ways => return .ok (ordered (ways.filterMap ofFile?))

end Routes

end CachePolicy
