import CachePolicy.Files.Tree

/-!
# Working with files

A program that works with files asks a store for single operations, each of which
happens as a whole or not at all.  A tree of files is a store, and so is the disk of
a machine.

`FileStore.replace` is how a file is written: under another name first, so that the
old file stays until the new one is complete.
-/

namespace CachePolicy

/-- What a path leads to. -/
inductive EntryKind where
  | file
  | directory
  deriving DecidableEq, Repr

/-- What can be done with files. -/
class FileStore (m : Type → Type) where
  /-- What a path leads to, if it leads anywhere. -/
  look : Path → m (Option EntryKind)
  read : Path → m (Except FileError Bytes)
  write : Path → Bytes → m (Except FileError Unit)
  remove : Path → m (Except FileError Unit)
  rename : Path → Path → m (Except FileError Unit)
  makeDirectory : Path → m (Except FileError Unit)
  /-- The ways to all files at and below a path, in the order of a walk. -/
  walk : Path → m (Except FileError (List Location))

namespace Files

/-- What a path leads to, if it leads anywhere. -/
def look (files : Files) (path : Path) : Option EntryKind :=
  match files.find path with
  | .ok (_, .file _) => some .file
  | .ok (_, .directory) => some .directory
  | .error _ => none

/-- Change a tree, or leave it as it is and say why. -/
def attempt (change : Files → Except FileError Files) : StateM Files (Except FileError Unit) :=
  fun files =>
    match change files with
    | .ok after => (.ok (), after)
    | .error e => (.error e, files)

instance : FileStore (StateM Files) where
  look path := fun files => (files.look path, files)
  read path := fun files => (files.read path, files)
  write path content := attempt (·.write path content)
  remove path := attempt (·.remove path)
  rename source target := attempt (·.rename source target)
  makeDirectory path := attempt (·.makeDirectory path)
  walk path := fun files => (files.walk path, files)

end Files

namespace FileStore

variable {m : Type → Type} [Monad m] [FileStore m]

/-- The text of a file. -/
def readText (path : Path) : m (Except FileError String) := do
  match ← read path with
  | .error e => return .error e
  | .ok content =>
    match Utf8.text? content with
    | some text => return .ok text
    | none => return .error .notText

/-- Whether a path leads to a directory. -/
def isDirectory (path : Path) : m Bool := do
  return (← look path) == some .directory

/-- The outcome of making a directory, where one that is there will do. -/
def orThere (path : Path) (refused : FileError) : m (Except FileError Unit) := do
  return if ← isDirectory path then .ok () else .error refused

/-- Make the first of some directories, each of which is in the next one, and those
of the others that are missing. -/
def makeLineage : List Path → m (Except FileError Unit)
  | [] => return .error .notFound
  | path :: above => do
    if path.isEmpty then return .ok ()
    match ← makeDirectory path with
    | .ok _ => return .ok ()
    | .error .notFound =>
      match ← makeLineage above with
      | .error e => return .error e
      | .ok _ =>
        match ← makeDirectory path with
        | .ok _ => return .ok ()
        | .error e => orThere path e
    | .error e => orThere path e

/-- Make a directory and those above it that are missing. -/
def makeDirectories (path : Path) : m (Except FileError Unit) := makeLineage path.lineage

/-- Remove a file, if it is there. -/
def removeIfThere (path : Path) : m (Except FileError Unit) := do
  match ← remove path with
  | .error .notFound => return .ok ()
  | outcome => return outcome

/-- The name under which a file is written first. -/
def temporary (path : Path) : Path :=
  let name := (path.name?.map (·.text)).getD ""
  path.withName (.ofText s!".{name}.tmp")

/-- Make the directory in which a path ends. -/
def makeRoom (path : Path) : m (Except FileError Unit) :=
  match path.parent? with
  | some dir => makeDirectories dir
  | none => return .ok ()

/-- Write a file under another name, remove the old file, and give the new one its
name. -/
def replace (path : Path) (text : String) : m (Except FileError Unit) := ExceptT.run do
  ExceptT.mk (makeRoom path)
  ExceptT.mk (write (temporary path) text.toUTF8)
  ExceptT.mk (removeIfThere path)
  ExceptT.mk (rename (temporary path) path)

end FileStore

end CachePolicy
