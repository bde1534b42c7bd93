import CachePolicy.Files.Tree
import CachePolicy.Proofs.Data.Outcome

/-!
# Following paths

Where a path leads depends on the directories of a tree alone, so an operation on a file
leaves every other path where it led.  The last step of a path is taken in a directory, and
when it is a name, what the path leads to is what that directory has under the name.
-/

namespace CachePolicy.Files

variable {files : Files} {place goal : Location}

/-! ## Steps -/

/-- Where a step leads from a directory. -/
def stepFrom (place : Location) (step : FileName) : Except FileError Location :=
  if step = "." then .ok place
  else if step = ".." then .ok place.dropLast
  else if longestName < step.bytes.length then .error .nameTooLong
  else .ok (place ++ [step])

/-- A first step is taken in a directory. -/
theorem follow_cons_of_directory (directory : files.at? place = some .directory) (step : FileName)
    (rest : List FileName) :
    files.follow place (step :: rest) = stepFrom place step >>= (files.follow · rest) := by
  simp only [follow, directory, stepFrom]
  split
  · rfl
  · split
    · rfl
    · split <;> rfl

theorem follow_cons_eq_ok_iff {step : FileName} {rest : List FileName} :
    files.follow place (step :: rest) = .ok goal ↔ files.at? place = some .directory ∧
      ∃ next, stepFrom place step = .ok next ∧ files.follow next rest = .ok goal := by
  cases here : files.at? place with
  | none => simp [follow, here]
  | some entry =>
      cases entry with
      | file content => simp [follow, here]
      | directory =>
          rw [follow_cons_of_directory here, bind_eq_ok_iff]
          exact (and_iff_right rfl).symm

/-- Steps after others start where those led. -/
theorem follow_append (first rest : List FileName) :
    files.follow place (first ++ rest) = files.follow place first >>= (files.follow · rest) := by
  induction first generalizing place with
  | nil => rfl
  | cons step more ih =>
      cases here : files.at? place with
      | none => simp [follow, here, bind, Except.bind]
      | some entry =>
          cases entry with
          | file content => simp [follow, here, bind, Except.bind]
          | directory =>
              rw [List.cons_append, follow_cons_of_directory here, follow_cons_of_directory here]
              cases stepFrom place step with
              | error refused => rfl
              | ok next => exact ih

/-- A step that stays in place may be left out. -/
theorem follow_moving {steps : List FileName} (leads : files.follow place steps = .ok goal) :
    files.follow place (Path.moving steps) = .ok goal := by
  induction steps generalizing place with
  | nil => exact leads
  | cons step rest ih =>
      obtain ⟨directory, next, taken, later⟩ := follow_cons_eq_ok_iff.mp leads
      by_cases stays : step = "."
      · subst stays
        cases taken
        exact ih later
      · have kept : Path.moving (step :: rest) = step :: Path.moving rest :=
          List.filter_cons_of_pos (by simpa using stays)
        rw [kept]
        exact follow_cons_eq_ok_iff.mpr ⟨directory, next, taken, ih later⟩

/-- The parts of a path lead where its steps do. -/
theorem follow_parts {path : Path} (leads : files.follow place path.steps = .ok goal) :
    files.follow place path.parts = .ok goal := by
  rw [Path.parts]
  split
  · next dotted =>
      obtain ⟨rest, split⟩ := List.head?_eq_some_iff.mp dotted.2
      rw [split] at leads ⊢
      obtain ⟨directory, next, taken, later⟩ := follow_cons_eq_ok_iff.mp leads
      exact follow_cons_eq_ok_iff.mpr ⟨directory, next, taken, follow_moving later⟩
  · exact follow_moving leads

/-! ## Trees with the same directories -/

/-- Two trees have the same directories, and paths start in the same one. -/
structure SameDirectories (files other : Files) : Prop where
  working : other.working = files.working
  directories : ∀ place, other.at? place = some .directory ↔ files.at? place = some .directory

namespace SameDirectories

variable {other third : Files}

theorem refl (files : Files) : SameDirectories files files := ⟨rfl, fun _ => Iff.rfl⟩

theorem symm (same : SameDirectories files other) : SameDirectories other files :=
  ⟨same.working.symm, fun place => (same.directories place).symm⟩

theorem trans (first : SameDirectories files other) (second : SameDirectories other third) :
    SameDirectories files third :=
  ⟨second.working.trans first.working,
    fun place => (second.directories place).trans (first.directories place)⟩

theorem start (same : SameDirectories files other) (path : Path) :
    other.start path = files.start path := by
  rw [Files.start, Files.start, same.working]

/-- Paths lead to the same places. -/
theorem follow_eq_ok_iff (same : SameDirectories files other) {steps : List FileName} :
    other.follow place steps = .ok goal ↔ files.follow place steps = .ok goal := by
  induction steps generalizing place with
  | nil => exact Iff.rfl
  | cons step rest ih => simp only [follow_cons_eq_ok_iff, same.directories place, ih]

end SameDirectories

/-- A file under a name where there is no directory changes no directory. -/
theorem sameDirectories_insert {content : Bytes} (named : place ≠ [])
    (free : files.at? place ≠ some .directory) :
    SameDirectories files (files.insert place (.file content)) := by
  refine ⟨rfl, fun other => ?_⟩
  rw [at?_insert _ _ _ _ named]
  by_cases same : other = place
  · simp [same, free]
  · simp [same]

theorem sameDirectories_erase (named : place ≠ []) (free : files.at? place ≠ some .directory) :
    SameDirectories files (files.erase place) := by
  refine ⟨rfl, fun other => ?_⟩
  rw [at?_erase _ _ _ named]
  by_cases same : other = place
  · simp [same, free]
  · simp [same]

/-! ## The last step -/

theorem lastStep_eq_name_iff {last : Option FileName} {name : FileName} :
    lastStep last = .name name ↔ last = some name ∧ name ≠ "." ∧ name ≠ ".." := by
  cases last with
  | none => simp [lastStep]
  | some step =>
      rw [lastStep]
      split
      · next unnamed =>
          refine ⟨nofun, fun moves => ?_⟩
          cases moves.1
          exact absurd unnamed (not_or.mpr moves.2)
      · next moves =>
          rw [LastStep.name.injEq, Option.some.injEq]
          exact ⟨fun same => ⟨same, same ▸ not_or.mp moves⟩, And.left⟩

/-- A path names something in a directory: its last step is taken there, and is a name. -/
structure Names (files : Files) (path : Path) (dir : Location) (name : FileName) : Prop where
  follows : files.follow (files.start path) path.steps.dropLast = .ok dir
  directory : files.at? dir = some .directory
  last : path.steps.getLast? = some name
  notHere : name ≠ "."
  notUp : name ≠ ".."

namespace Names

variable {path : Path} {dir : Location} {name : FileName}

theorem steps (names : files.Names path dir name) :
    path.steps = path.steps.dropLast ++ [name] := by
  obtain ⟨before, split⟩ := List.getLast?_eq_some_iff.mp names.last
  rw [split, List.dropLast_concat]

theorem of_sameDirectories {other : Files} (same : SameDirectories files other)
    (names : files.Names path dir name) : other.Names path dir name where
  follows := by
    rw [same.start, same.follow_eq_ok_iff]
    exact names.follows
  directory := (same.directories dir).mpr names.directory
  last := names.last
  notHere := names.notHere
  notUp := names.notUp

/-- The path leads to the name in the directory, if the name is not too long. -/
theorem follow_eq (names : files.Names path dir name) :
    files.follow (files.start path) path.steps =
      if longestName < name.bytes.length then .error .nameTooLong else .ok (dir ++ [name]) := by
  rw [names.steps, follow_append, names.follows]
  change files.follow dir [name] = _
  rw [follow_cons_of_directory names.directory, stepFrom, if_neg names.notHere, if_neg names.notUp]
  split <;> rfl

end Names

variable {path : Path} {dir : Location} {name : FileName}

theorem checkPath_ne_notFound (full : path.isEmpty = false) :
    checkPath path ≠ .error .notFound := by
  simp only [checkPath, full]
  split
  · nofun
  · split
    · next empty => cases empty
    · split <;> nofun

/-- A path is approached just when it can be followed and names something. -/
theorem approach_eq_name_iff :
    files.approach path = .ok (dir, .name name) ↔ checkPath path = .ok () ∧
      files.Names path dir name ∧ ¬ longestName < name.bytes.length := by
  simp only [approach, bind_eq_ok_iff]
  constructor
  · rintro ⟨_, checked, at', follows, rest⟩
    cases here : files.at? at' with
    | none => simp [here] at rest
    | some entry =>
        cases entry with
        | file content => simp [here] at rest
        | directory =>
            simp only [here] at rest
            cases last : lastStep path.steps.getLast? with
            | unnamed => simp [last] at rest
            | name found =>
                simp only [last] at rest
                split at rest
                · cases rest
                · next fits =>
                    cases rest
                    obtain ⟨ends, notHere, notUp⟩ := lastStep_eq_name_iff.mp last
                    exact ⟨checked, ⟨follows, here, ends, notHere, notUp⟩, fits⟩
  · rintro ⟨checked, names, fits⟩
    refine ⟨(), checked, dir, names.follows, ?_⟩
    have last := lastStep_eq_name_iff.mpr ⟨names.last, names.notHere, names.notUp⟩
    simp only [names.directory, last, if_neg fits]

end CachePolicy.Files
