import CachePolicy.Files.Name
import CachePolicy.Text.Split

/-!
# Paths

A path is the list of what stands between its slashes, so it can be given back as
it was written.  What it means is decided step by step where it is
followed; here it is only taken apart and put together.

Two readings of a path differ.  Its steps keep every `.` and `..`, since each is
taken in a directory that has to be there.  Its parts drop every `.` but a leading
one, and the last of them names a file without a look at the tree.
-/

namespace CachePolicy

/-- A path, cut at its slashes. -/
structure Path where
  segments : List FileName
  deriving DecidableEq, Repr

namespace Path

instance : Inhabited Path := ⟨⟨[""]⟩⟩

/-- The path of a text. -/
def read (text : String) : Path :=
  ⟨(Text.split (· == '/') text.toList).map fun segment => .ofText (String.ofList segment)⟩

/-- A path as it is shown. -/
def text (path : Path) : String := "/".intercalate (FileName.shown path.segments)

/-- The byte between segments. -/
def slash : UInt8 := 47

/-- The bytes of a path. -/
def bytes (path : Path) : List UInt8 := [slash].intercalate (path.segments.map (·.bytes))

/-- Whether nothing is written. -/
def isEmpty (path : Path) : Bool := path.segments == [.ofText ""]

/-- Whether a path starts at the top. -/
def isRooted (path : Path) : Bool :=
  match path.segments with
  | first :: _ :: _ => first == ""
  | _ => false

/-- Whether a slash ends a path, so that it can only lead to a directory. -/
def isClosed (path : Path) : Bool :=
  match path.segments with
  | _ :: rest => rest.getLast? == some (.ofText "")
  | [] => false

/-- What to follow, one after the other. -/
def steps (path : Path) : List FileName := path.segments.filter (· != "")

/-- Steps without those that stay in place. -/
def moving (steps : List FileName) : List FileName := steps.filter (· != ".")

/-- The steps that a path names, of which only the first may stay in place. -/
def parts (path : Path) : List FileName :=
  if path.isRooted = false ∧ path.steps.head? = some (.ofText ".") then
    "." :: moving path.steps.tail
  else moving path.steps

/-- The path that names given parts. -/
def ofParts (rooted : Bool) (parts : List FileName) : Path :=
  let written : List FileName := if parts.isEmpty then [""] else parts
  ⟨if rooted then "" :: written else written⟩

/-- The path without its last part. -/
def parent? (path : Path) : Option Path :=
  if path.parts.isEmpty then none else some (ofParts path.isRooted path.parts.dropLast)

/-- The name that a path ends in. -/
def name? (path : Path) : Option FileName :=
  path.parts.getLast?.filter fun last => last != "." && last != ".."

/-- A path and the paths to the directories above it, from the longest on. -/
def lineage (path : Path) : List Path :=
  path :: (List.range path.parts.length).reverse.map fun count =>
    ofParts path.isRooted (path.parts.take count)

/-- A path taken from the end of another one, unless it starts at the top. -/
def join (dir other : Path) : Path :=
  if other.isRooted then other
  else if dir.isEmpty || dir.isClosed then ⟨dir.segments.dropLast ++ other.segments⟩
  else ⟨dir.segments ++ other.segments⟩

/-- The path with another last name, or with one more name if it ends in none. -/
def withName (path : Path) (name : FileName) : Path :=
  let dir := if path.name?.isSome then path.parent?.getD ⟨[""]⟩ else path
  dir.join ⟨[name]⟩

end Path

end CachePolicy
