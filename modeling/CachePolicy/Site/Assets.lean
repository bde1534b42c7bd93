import CachePolicy.Digest.Sha256
import CachePolicy.Files.Store
import CachePolicy.Glob.Reader
import CachePolicy.Policy.Program
import CachePolicy.Rule.Precache
import CachePolicy.Text.Replace

/-!
# Files to store ahead

The files of a site that some glob accepts are stored ahead, each with a revision
that is taken from its content.  The worker is none of them, and neither is a file
whose URL is to be stored anyway.

The program of a worker has a place for the list of these files.
-/

namespace CachePolicy

/-- Why there is no list of files, or no place for it. -/
inductive AssetError where
  | notGlob (reason : GlobError)
  | notWalked (path : String) (reason : FileError)
  | unreadable (path : String) (reason : FileError)
  | noPlaceholder
  deriving DecidableEq, Repr

namespace AssetError

/-- The wording of an error. -/
def message : AssetError → String
  | notGlob reason => s!"invalid glob pattern: {reason.message}"
  | notWalked path reason =>
    s!"failed to walk output directory: IO error for operation on {path}: {reason.message}"
  | unreadable path reason => s!"failed to read {path}: {reason.message}"
  | noPlaceholder => "program has no " ++ manifestPlaceholder ++ " placeholder"

end AssetError

/-- The files of a site to store ahead. -/
structure AssetManifest where
  entries : List PrecacheEntry
  deriving DecidableEq, Repr

namespace AssetManifest

/-- How many digits of a digest make a revision. -/
def revisionLength : Nat := 32

/-- The revision of a content. -/
def revision (content : Bytes) : String :=
  String.ofList ((Sha256.hex content).toList.take revisionLength)

/-- The globs of texts, unless one of them is none. -/
def globs : List String → Except GlobError (List Glob)
  | [] => .ok []
  | text :: rest => do
    let glob ← Glob.read text
    let more ← globs rest
    .ok (glob :: more)

/-- The name of a file within its site, as it is shown. -/
def nameOf (way : Location) : String := "/".intercalate (FileName.shown way)

/-- Whether a file is to be stored ahead. -/
def selects (globs : List Glob) (swName : String) (explicit : PrecacheManifest)
    (way : Location) : Bool :=
  let name := nameOf way
  name != swName && globs.any (·.accepts name) && !explicit.contains ("/" ++ name)

variable {m : Type → Type} [Monad m] [FileStore m]

/-- The entries of files, in their order. -/
def entriesOf (dir : Path) : List Location → m (Except AssetError (List PrecacheEntry))
  | [] => return .ok []
  | way :: rest => do
    let path := if way.isEmpty then dir else dir.join ⟨way⟩
    match ← FileStore.read path with
    | .error reason => return .error (.unreadable path.text reason)
    | .ok content =>
      let entry : PrecacheEntry := ⟨"/" ++ nameOf way, some (revision content)⟩
      return (← entriesOf dir rest).map (entry :: ·)

/-- The files of a directory that are to be stored ahead. -/
def scan (dir : Path) (patterns : List String) (swName : String) (explicit : PrecacheManifest) :
    m (Except AssetError AssetManifest) := do
  match globs patterns with
  | .error reason => return .error (.notGlob reason)
  | .ok globs =>
    match ← FileStore.walk dir with
    | .error reason => return .error (.notWalked dir.text reason)
    | .ok ways =>
      return (← entriesOf dir (ways.filter (selects globs swName explicit))).map (⟨·⟩)

end AssetManifest

namespace AssetManifest

/-- A list of files as JSON. -/
def toJson (manifest : AssetManifest) : Json := .arr (manifest.entries.map (·.toJson))

/-- A program with the list in the first place for it. -/
def substitute (manifest : AssetManifest) (program : String) : Except AssetError String :=
  match Text.replaceFirst? manifestPlaceholder manifest.toJson.compact program with
  | some program => .ok program
  | none => .error .noPlaceholder

end AssetManifest

end CachePolicy
