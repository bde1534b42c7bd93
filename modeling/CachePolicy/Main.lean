import CachePolicy.Cli.Clock
import CachePolicy.Cli.Run
import Std.Time.DateTime.Timestamp

/-!
# The program

The disk of the machine is a store of files, and the program runs on it.
-/

namespace CachePolicy

/-- The cause of a refusal of the disk. -/
def FileError.ofIO : IO.Error → FileError
  | .noFileOrDirectory .. => .notFound
  | .noSuchThing .. => .notFound
  | .alreadyExists .. => .alreadyThere
  | .inappropriateType _ 21 _ => .isDirectory
  | .inappropriateType _ _ _ => .notDirectory
  | .resourceBusy .. => .inUse
  | .resourceExhausted _ 36 _ => .nameTooLong
  | .invalidArgument _ 36 _ => .nameTooLong
  | e => .other e.toString

/-- An action on the disk, with the cause of a refusal. -/
def refusing (action : IO α) : IO (Except FileError α) := do
  try return .ok (← action) catch e => return .error (.ofIO e)

/-- The ways to the files below a directory, each after a given way.  A path has fewer
steps than bytes, so `fuel` need not be larger than that. -/
def waysBelow : (fuel : Nat) → (dir : String) → Location → IO (List Location)
  | 0, _, _ => return []
  | fuel + 1, dir, way => do
    let entries ← (System.mkFilePath [dir]).readDir
    let names := (entries.toList.map (·.fileName)).mergeSort (· ≤ ·)
    let found ← names.mapM fun name => do
      let path := dir ++ "/" ++ name
      match (← (System.mkFilePath [path]).symlinkMetadata).type with
      | .dir => waysBelow fuel path (way ++ [.ofText name])
      | .file => return [way ++ [.ofText name]]
      | _ => return []
    return found.flatten

instance : FileStore IO where
  look path := do
    match ← refusing (System.mkFilePath [path.text]).metadata with
    | .error _ => return none
    | .ok data => return some (if data.type == .dir then .directory else .file)
  read path := refusing (IO.FS.readBinFile path.text)
  write path content := refusing (IO.FS.writeBinFile path.text content)
  remove path := do
    match ← refusing (System.mkFilePath [path.text]).symlinkMetadata with
    | .error e => return .error e
    | .ok data =>
      if data.type == .dir then return .error .isDirectory
      refusing (IO.FS.removeFile path.text)
  rename source target := refusing (IO.FS.rename source.text target.text)
  makeDirectory path := refusing (IO.FS.createDir path.text)
  walk path := refusing do
    match (← (System.mkFilePath [path.text]).symlinkMetadata).type with
    | .dir => waysBelow Files.longestPath path.text []
    | .file => return [[]]
    | _ => return []

end CachePolicy

open CachePolicy

/-- Run the program on the disk of the machine. -/
def main (arguments : List String) : IO UInt32 := do
  let now ← Std.Time.Timestamp.now
  let outcome ← Cli.run arguments (Cli.Clock.text now.toNanosecondsSinceUnixEpoch.val)
  IO.print outcome.stdout
  IO.eprint outcome.stderr
  return outcome.code
