import CachePolicy.Files.Store

/-!
# The file of a worker

A site may append code of its own to the program.  A comment marks where it begins,
and the program with this code is what the worker's file holds.
-/

namespace CachePolicy

/-- What stands between the program and the code of the site. -/
def customSeparator : String := "\n\n// Custom worker code\n"

/-- A program with the code of the site, if there is any. -/
def withCustomCode (program : String) : Option String → String
  | some custom => program ++ customSeparator ++ custom
  | none => program

@[simp] theorem withCustomCode_none (program : String) : withCustomCode program none = program :=
  rfl

/-- Why there is no worker's file. -/
inductive WorkerFileError where
  | unreadableCustom (path : String) (reason : FileError)
  | notWritten (path : String) (reason : FileError)
  deriving DecidableEq, Repr

namespace WorkerFileError

/-- The wording of an error. -/
def message : WorkerFileError → String
  | unreadableCustom path reason => s!"failed to read custom worker {path}: {reason.message}"
  | notWritten path reason => s!"failed to write {path}: {reason.message}"

end WorkerFileError

namespace WorkerFile

variable {m : Type → Type} [Monad m] [FileStore m]

/-- The code of the site. -/
def readCustom : Option Path → m (Except WorkerFileError (Option String))
  | none => return .ok none
  | some path => do
    match ← FileStore.readText path with
    | .ok custom => return .ok (some custom)
    | .error reason => return .error (.unreadableCustom path.text reason)

/-- Write a text to the file of a worker. -/
def put (output : Path) (text : String) : m (Except WorkerFileError Unit) := do
  return (← FileStore.replace output text).mapError (.notWritten output.text)

/-- Write a program and the code of the site to the file of a worker.  The result is
what the file holds. -/
def write (program : String) (output : Path) (custom : Option Path) :
    m (Except WorkerFileError String) := ExceptT.run do
  let custom ← ExceptT.mk (readCustom custom)
  let text := withCustomCode program custom
  ExceptT.mk (put output text)
  return text

end WorkerFile

end CachePolicy
