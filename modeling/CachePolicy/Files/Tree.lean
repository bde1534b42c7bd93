import CachePolicy.Data.SortedMap
import CachePolicy.Files.Error
import CachePolicy.Files.Path
import CachePolicy.Text.Utf8

/-!
# Trees of files

A tree gives every place below its top a file or a directory.  A place is the list
of names on the way to it, and the order of places is the order of a walk: a
directory comes before what it holds, and what it holds is ordered by name.

A path is followed one step at a time, from the top if a slash starts it and from
the working directory otherwise, and every step is taken in a directory that has to
be there.  Each operation first follows its path to the directory of the last step,
since that step may lead to something that is yet to be made.

There is less to a tree than to a disk.  Nothing in it is a link or a device, nothing
has permissions or is locked, it has room for every file, and no operation is cut
short, so each fails only for the reasons that are given here.  Only a path that is
asked for may be too long: a walk enters each directory that it comes to, however
long the way there.
-/

namespace CachePolicy

/-- The names on the way from the top. -/
abbrev Location := List FileName

/-- What is at a place. -/
inductive Entry where
  | file (content : Bytes)
  | directory
  deriving DecidableEq

/-- A tree of files, and the directory in which paths start. -/
structure Files where
  entries : SortedMap Location Entry
  working : Location

namespace Files

/-- What is at a place; the top is a directory. -/
def at? (files : Files) : Location → Option Entry
  | [] => some .directory
  | place => files.entries.get? place

/-- Put something at a place. -/
def insert (files : Files) (place : Location) (entry : Entry) : Files :=
  { files with entries := files.entries.insert place entry }

/-- Leave a place with nothing. -/
def erase (files : Files) (place : Location) : Files :=
  { files with entries := files.entries.erase place }

/-- Where a path starts. -/
def start (files : Files) (path : Path) : Location :=
  if path.isRooted then [] else files.working

/-- A name may have this many bytes. -/
def longestName : Nat := 255

/-- A path may have this many bytes. -/
def longestPath : Nat := 4095

/-- The place that steps lead to from another one.  Nothing need be there, but
every step starts in a directory. -/
def follow (files : Files) : Location → List FileName → Except FileError Location
  | place, [] => .ok place
  | place, step :: rest =>
    match files.at? place with
    | none => .error .notFound
    | some (.file _) => .error .notDirectory
    | some .directory =>
      if step = "." then follow files place rest
      else if step = ".." then follow files place.dropLast rest
      else if longestName < step.bytes.length then .error .nameTooLong
      else follow files (place ++ [step]) rest

/-- Whether a path can be followed at all. -/
def checkPath (path : Path) : Except FileError Unit :=
  if path.bytes.contains 0 then .error .nulByte
  else if path.isEmpty then .error .notFound
  else if longestPath < path.bytes.length then .error .nameTooLong
  else .ok ()

/-- The place that a path leads to, and what is there. -/
def find (files : Files) (path : Path) : Except FileError (Location × Entry) := do
  checkPath path
  let place ← files.follow (files.start path) path.steps
  match files.at? place with
  | none => .error .notFound
  | some (.file content) =>
    if path.isClosed then .error .notDirectory else .ok (place, .file content)
  | some .directory => .ok (place, .directory)

/-- The last step of a path. -/
inductive LastStep where
  | name (name : FileName)
  /-- The path ends in `.` or `..`, or has no steps. -/
  | unnamed
  deriving DecidableEq, Repr

/-- What kind of step the last one is. -/
def lastStep : Option FileName → LastStep
  | some step => if step = "." ∨ step = ".." then .unnamed else .name step
  | none => .unnamed

/-- The directory in which the last step of a path is taken, and that step. -/
def approach (files : Files) (path : Path) : Except FileError (Location × LastStep) := do
  checkPath path
  let dir ← files.follow (files.start path) path.steps.dropLast
  match files.at? dir with
  | none => .error .notFound
  | some (.file _) => .error .notDirectory
  | some .directory =>
    match lastStep path.steps.getLast? with
    | .unnamed => .ok (dir, .unnamed)
    | .name name =>
      if longestName < name.bytes.length then .error .nameTooLong else .ok (dir, .name name)

/-- The content of a file. -/
def read (files : Files) (path : Path) : Except FileError Bytes := do
  match ← files.find path with
  | (_, .file content) => .ok content
  | (_, .directory) => .error .isDirectory

/-- Give a file its content, and make it if it is not there. -/
def write (files : Files) (path : Path) (content : Bytes) : Except FileError Files := do
  match ← files.approach path with
  | (_, .unnamed) => .error .isDirectory
  | (dir, .name name) =>
    if path.isClosed then .error .isDirectory
    else
      match files.at? (dir ++ [name]) with
      | some .directory => .error .isDirectory
      | _ => .ok (files.insert (dir ++ [name]) (.file content))

/-- Remove a file. -/
def remove (files : Files) (path : Path) : Except FileError Files := do
  match ← files.approach path with
  | (_, .unnamed) => .error .isDirectory
  | (dir, .name name) =>
    match files.at? (dir ++ [name]) with
    | none => .error .notFound
    | some .directory => .error .isDirectory
    | some (.file _) =>
      if path.isClosed then .error .notDirectory else .ok (files.erase (dir ++ [name]))

/-- Give a file another name, in place of the file that has it. -/
def rename (files : Files) (source target : Path) : Except FileError Files := do
  let (sourceDir, sourceStep) ← files.approach source
  let (targetDir, targetStep) ← files.approach target
  match sourceStep, targetStep with
  | .name sourceName, .name targetName =>
    let origin := sourceDir ++ [sourceName]
    let goal := targetDir ++ [targetName]
    match files.at? origin with
    | none => .error .notFound
    | some .directory => .error .isDirectory
    | some (.file content) =>
      if source.isClosed || target.isClosed then .error .notDirectory
      else if files.at? goal == some .directory then .error .isDirectory
      else .ok ((files.erase origin).insert goal (.file content))
  | _, _ => .error .inUse

/-- Make a directory in one that is there. -/
def makeDirectory (files : Files) (path : Path) : Except FileError Files := do
  match ← files.approach path with
  | (_, .unnamed) => .error .alreadyThere
  | (dir, .name name) =>
    match files.at? (dir ++ [name]) with
    | some _ => .error .alreadyThere
    | none => .ok (files.insert (dir ++ [name]) .directory)

/-- The way from one place to a file below it. -/
def wayTo (top : Location) : Location × Entry → Option Location
  | (place, .file _) => if top.isPrefixOf place then some (place.drop top.length) else none
  | (_, .directory) => none

/-- The ways to all files at and below a path, in the order of a walk. -/
def walk (files : Files) (path : Path) : Except FileError (List Location) := do
  let (top, _) ← files.find path
  .ok (files.entries.pairs.filterMap (wayTo top))

@[simp] theorem at?_nil (files : Files) : files.at? [] = some .directory := rfl

theorem at?_ne_nil (files : Files) {place : Location} (h : place ≠ []) :
    files.at? place = files.entries.get? place := by
  cases place with
  | nil => exact absurd rfl h
  | cons => rfl

@[simp] theorem working_insert (files : Files) (place : Location) (entry : Entry) :
    (files.insert place entry).working = files.working := rfl

@[simp] theorem working_erase (files : Files) (place : Location) :
    (files.erase place).working = files.working := rfl

theorem at?_insert (files : Files) (place other : Location) (entry : Entry) (h : place ≠ []) :
    (files.insert place entry).at? other =
      if other = place then some entry else files.at? other := by
  cases other with
  | nil => simp [h.symm]
  | cons => simp [at?, insert]

theorem at?_erase (files : Files) (place other : Location) (h : place ≠ []) :
    (files.erase place).at? other = if other = place then none else files.at? other := by
  cases other with
  | nil => simp [h.symm]
  | cons => simp [at?, erase]

@[simp] theorem follow_nil (files : Files) (place : Location) :
    files.follow place [] = .ok place := rfl

end Files

end CachePolicy
