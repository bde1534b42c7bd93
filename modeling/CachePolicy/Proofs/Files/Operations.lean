import CachePolicy.Files.Store
import CachePolicy.Proofs.Files.Following

/-!
# What operations on files do

A path addresses a place when its last step is a name in a directory that is there.  Each
operation on such a path depends on the tree only by what is at the place, and changes
nothing else.  So what a program does with some files says nothing about the others.
-/

namespace CachePolicy.Files

variable {files other : Files} {path : Path} {place dir : Location} {name : FileName}

/-- A path leads to a place, whether or not something is there. -/
def Leads (files : Files) (path : Path) (place : Location) : Prop :=
  files.follow (files.start path) path.steps = .ok place

/-- A path addresses the place of a file: its last step is a name in a directory, and no slash
follows. -/
structure Addresses (files : Files) (path : Path) (place : Location) : Prop where
  approached : ∃ dir name, files.approach path = .ok (dir, .name name) ∧ place = dir ++ [name]
  unclosed : path.isClosed = false

theorem SameDirectories.leads_iff (same : SameDirectories files other) :
    other.Leads path place ↔ files.Leads path place := by
  rw [Leads, Leads, same.start, same.follow_eq_ok_iff]

/-- What a path is found to lead to is there. -/
theorem of_find_eq_ok {entry : Entry} (found : files.find path = .ok (place, entry)) :
    checkPath path = .ok () ∧ files.Leads path place ∧ files.at? place = some entry := by
  simp only [find, bind_eq_ok_iff] at found
  obtain ⟨_, checked, goal, leads, rest⟩ := found
  cases there : files.at? goal with
  | none => simp [there] at rest
  | some other =>
      cases other with
      | directory =>
          simp only [there] at rest
          cases rest
          exact ⟨checked, leads, there⟩
      | file content =>
          simp only [there] at rest
          split at rest
          · cases rest
          · cases rest
            exact ⟨checked, leads, there⟩

theorem leads_of_approach (approached : files.approach path = .ok (dir, .name name)) :
    files.Leads path (dir ++ [name]) := by
  obtain ⟨-, names, fits⟩ := approach_eq_name_iff.mp approached
  rw [Leads, names.follow_eq, if_neg fits]

/-- How a path is approached, once its steps but the last lead somewhere. -/
theorem approach_of_follows {entry : Entry} (checked : checkPath path = .ok ())
    (follows : files.follow (files.start path) path.steps.dropLast = .ok dir)
    (there : files.at? dir = some entry) :
    files.approach path = match entry, lastStep path.steps.getLast? with
      | .file _, _ => .error .notDirectory
      | .directory, .unnamed => .ok (dir, .unnamed)
      | .directory, .name name =>
        if longestName < name.bytes.length then .error .nameTooLong else .ok (dir, .name name) := by
  simp only [approach, checked, follows, there, bind, Except.bind]
  cases entry with
  | file content => rfl
  | directory => cases lastStep path.steps.getLast? <;> rfl

/-- A path that leads to something is approached, unless it has no steps and starts at a
file. -/
theorem approach_of_leads {entry : Entry} (checked : checkPath path = .ok ())
    (leads : files.Leads path place) (there : files.at? place = some entry) :
    files.approach path = .error .notDirectory ∧ entry ≠ .directory ∨
      (∃ dir, files.approach path = .ok (dir, .unnamed)) ∨
      ∃ dir name, files.approach path = .ok (dir, .name name) ∧ place = dir ++ [name] := by
  rw [Leads] at leads
  rcases List.eq_nil_or_concat path.steps with none | ⟨before, last, split⟩
  · rw [none] at leads
    cases leads
    have approached := approach_of_follows checked (by rw [none]; rfl) there
    rw [none, List.getLast?_nil, lastStep] at approached
    cases entry with
    | file content => exact .inl ⟨approached, by simp⟩
    | directory => exact .inr (.inl ⟨_, approached⟩)
  · rw [List.concat_eq_append] at split
    rw [split, follow_append, bind_eq_ok_iff] at leads
    obtain ⟨dir, follows, step⟩ := leads
    obtain ⟨directory, next, taken, ends⟩ := follow_cons_eq_ok_iff.mp step
    cases ends
    have approached := approach_of_follows checked
      (by rw [split, List.dropLast_concat]; exact follows) directory
    rw [split, List.getLast?_concat] at approached
    cases ending : lastStep (some last) with
    | unnamed => exact .inr (.inl ⟨dir, by rw [approached, ending]⟩)
    | name name =>
        obtain ⟨same, notHere, notUp⟩ := lastStep_eq_name_iff.mp ending
        cases same
        rw [stepFrom, if_neg notHere, if_neg notUp] at taken
        split at taken
        · cases taken
        · next fits =>
            cases taken
            exact .inr (.inr ⟨dir, last, by simp only [approached, ending, if_neg fits], rfl⟩)

/-! ## Addressed places -/

namespace Addresses

theorem leads (addresses : files.Addresses path place) : files.Leads path place := by
  obtain ⟨dir, name, approached, rfl⟩ := addresses.approached
  exact leads_of_approach approached

theorem ne_nil (addresses : files.Addresses path place) : place ≠ [] := by
  obtain ⟨dir, name, -, rfl⟩ := addresses.approached
  simp

theorem getLast?_eq (addresses : files.Addresses path place) :
    place.getLast? = path.steps.getLast? := by
  obtain ⟨dir, name, approached, rfl⟩ := addresses.approached
  rw [(approach_eq_name_iff.mp approached).2.1.last, List.getLast?_concat]

/-- The last step of the path is a name. -/
theorem last_moves {before : List FileName} (addresses : files.Addresses path place)
    (steps : path.steps = before ++ [name]) : name ≠ "." ∧ name ≠ ".." := by
  obtain ⟨dir, last, approached, -⟩ := addresses.approached
  obtain ⟨-, names, -⟩ := approach_eq_name_iff.mp approached
  have ends := names.last
  rw [steps, List.getLast?_concat] at ends
  cases ends
  exact ⟨names.notHere, names.notUp⟩

theorem checked (addresses : files.Addresses path place) : checkPath path = .ok () := by
  obtain ⟨dir, name, approached, -⟩ := addresses.approached
  exact (approach_eq_name_iff.mp approached).1

theorem of_sameDirectories (same : SameDirectories files other)
    (addresses : files.Addresses path place) : other.Addresses path place := by
  obtain ⟨dir, name, approached, rfl⟩ := addresses.approached
  obtain ⟨checked, names, fits⟩ := approach_eq_name_iff.mp approached
  exact ⟨⟨dir, name,
    approach_eq_name_iff.mpr ⟨checked, names.of_sameDirectories same, fits⟩, rfl⟩,
    addresses.unclosed⟩

theorem find_eq (addresses : files.Addresses path place) :
    files.find path = match files.at? place with
      | none => .error .notFound
      | some entry => .ok (place, entry) := by
  have leads : files.follow (files.start path) path.steps = .ok place := addresses.leads
  simp only [find, addresses.checked, leads, bind, Except.bind, addresses.unclosed]
  cases files.at? place with
  | none => rfl
  | some entry =>
      cases entry with
      | file content => rfl
      | directory => rfl

theorem look_eq_none_iff (addresses : files.Addresses path place) :
    files.look path = none ↔ files.at? place = none := by
  rw [look, addresses.find_eq]
  cases files.at? place with
  | none => simp
  | some entry =>
      cases entry with
      | file content => simp
      | directory => simp

theorem read_eq_ok_iff (addresses : files.Addresses path place) {content : Bytes} :
    files.read path = .ok content ↔ files.at? place = some (.file content) := by
  rw [read, addresses.find_eq]
  cases files.at? place with
  | none => simp [bind, Except.bind]
  | some entry =>
      cases entry with
      | file other => simp [bind, Except.bind]
      | directory => simp [bind, Except.bind]

theorem remove_eq (addresses : files.Addresses path place) :
    files.remove path = match files.at? place with
      | none => .error .notFound
      | some .directory => .error .isDirectory
      | some (.file _) => .ok (files.erase place) := by
  obtain ⟨dir, name, approached, rfl⟩ := addresses.approached
  simp only [remove, approached, bind, Except.bind, addresses.unclosed]
  cases files.at? (dir ++ [name]) with
  | none => rfl
  | some entry =>
      cases entry with
      | file content => rfl
      | directory => rfl

theorem rename_eq {target : Path} {goal : Location} {content : Bytes}
    (addresses : files.Addresses path place) (targets : files.Addresses target goal)
    (there : files.at? place = some (.file content))
    (free : files.at? goal ≠ some .directory) :
    files.rename path target = .ok ((files.erase place).insert goal (.file content)) := by
  obtain ⟨dir, name, approached, rfl⟩ := addresses.approached
  obtain ⟨targetDir, targetName, targetApproached, rfl⟩ := targets.approached
  have absent : (files.at? (targetDir ++ [targetName]) == some .directory) = false :=
    beq_false_of_ne free
  simp [rename, approached, targetApproached, bind, Except.bind, addresses.unclosed,
    targets.unclosed, there, absent]

end Addresses

/-! ## Operations that succeed -/

theorem write_eq_ok_iff {content : Bytes} :
    files.write path content = .ok other ↔ ∃ place, files.Addresses path place ∧
      files.at? place ≠ some .directory ∧ other = files.insert place (.file content) := by
  simp only [write, bind_eq_ok_iff]
  constructor
  · rintro ⟨⟨dir, step⟩, approached, rest⟩
    cases step with
    | unnamed => simp at rest
    | name name =>
        simp only at rest
        split at rest
        · cases rest
        · next unclosed =>
            rw [Bool.not_eq_true] at unclosed
            refine ⟨dir ++ [name], ⟨⟨dir, name, approached, rfl⟩, unclosed⟩, ?_⟩
            split at rest
            · cases rest
            · next free => exact ⟨free, (Except.ok.inj rest).symm⟩
  · rintro ⟨place, addresses, free, rfl⟩
    obtain ⟨dir, name, approached, rfl⟩ := addresses.approached
    refine ⟨_, approached, ?_⟩
    simp only [addresses.unclosed, Bool.false_eq_true, if_false]

theorem remove_eq_ok_iff :
    files.remove path = .ok other ↔ ∃ place content, files.Addresses path place ∧
      files.at? place = some (.file content) ∧ other = files.erase place := by
  constructor
  · intro removed
    have opened := removed
    simp only [remove, bind_eq_ok_iff] at opened
    obtain ⟨⟨dir, step⟩, approached, rest⟩ := opened
    cases step with
    | unnamed => simp at rest
    | name name =>
        simp only at rest
        split at rest
        · cases rest
        · cases rest
        · next content there =>
            split at rest
            · cases rest
            · next unclosed =>
                rw [Bool.not_eq_true] at unclosed
                exact ⟨dir ++ [name], content, ⟨⟨dir, name, approached, rfl⟩, unclosed⟩, there,
                  (Except.ok.inj rest).symm⟩
  · rintro ⟨place, content, addresses, there, rfl⟩
    rw [addresses.remove_eq, there]

theorem rename_eq_ok_iff {source target : Path} :
    files.rename source target = .ok other ↔ ∃ place goal content,
      files.Addresses source place ∧ files.Addresses target goal ∧
        files.at? place = some (.file content) ∧ files.at? goal ≠ some .directory ∧
        other = (files.erase place).insert goal (.file content) := by
  constructor
  · intro renamed
    simp only [rename, bind_eq_ok_iff] at renamed
    obtain ⟨⟨dir, step⟩, approached, ⟨targetDir, targetStep⟩, targetApproached, rest⟩ := renamed
    cases step with
    | unnamed => simp at rest
    | name name =>
        cases targetStep with
        | unnamed => simp at rest
        | name targetName =>
            simp only at rest
            split at rest
            · cases rest
            · cases rest
            · next content there =>
                split at rest
                · cases rest
                · next unclosed =>
                    split at rest
                    · cases rest
                    · next free =>
                        simp only [Bool.or_eq_true, not_or, Bool.not_eq_true] at unclosed
                        exact ⟨dir ++ [name], targetDir ++ [targetName], content,
                          ⟨⟨dir, name, approached, rfl⟩, unclosed.1⟩,
                          ⟨⟨targetDir, targetName, targetApproached, rfl⟩, unclosed.2⟩, there,
                          by simpa using free, (Except.ok.inj rest).symm⟩
  · rintro ⟨place, goal, content, addresses, targets, there, free, rfl⟩
    exact addresses.rename_eq targets there free

theorem makeDirectory_eq_ok_iff :
    files.makeDirectory path = .ok other ↔ ∃ dir name,
      files.approach path = .ok (dir, .name name) ∧ files.at? (dir ++ [name]) = none ∧
        other = files.insert (dir ++ [name]) .directory := by
  simp only [makeDirectory, bind_eq_ok_iff]
  constructor
  · rintro ⟨⟨dir, step⟩, approached, rest⟩
    cases step with
    | unnamed => simp at rest
    | name name =>
        simp only at rest
        split at rest
        · cases rest
        · next absent => exact ⟨dir, name, approached, absent, (Except.ok.inj rest).symm⟩
  · rintro ⟨dir, name, approached, absent, rfl⟩
    exact ⟨_, approached, by simp only [absent]⟩

/-- Where there is nothing to remove, nothing is seen. -/
theorem look_of_remove_notFound (missing : files.remove path = .error .notFound) :
    files.look path = none := by
  unfold look
  cases found : files.find path with
  | error reason => rfl
  | ok result =>
      exfalso
      obtain ⟨place, entry⟩ := result
      obtain ⟨checked, leads, there⟩ := of_find_eq_ok found
      rcases approach_of_leads checked leads there with ⟨refused, -⟩ | ⟨dir, unnamed⟩ |
        ⟨dir, name, approached, rfl⟩
      · simp [remove, refused, bind, Except.bind] at missing
      · simp [remove, unnamed, bind, Except.bind] at missing
      · cases entry with
        | directory => simp [remove, approached, there, bind, Except.bind] at missing
        | file content =>
            cases closed : path.isClosed <;>
              simp [remove, approached, there, closed, bind, Except.bind] at missing

end CachePolicy.Files
