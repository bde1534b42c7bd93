import CachePolicy.Proofs.Files.Naming
import CachePolicy.Proofs.Files.Operations
import CachePolicy.Proofs.Files.Running

/-!
# Replacing a file

A file in a directory is replaced through a temporary file beside it.  Either the temporary
file cannot be written and nothing has changed, or the file has the new content and the
temporary file is gone.  No other place changes, as all directories on the way are there.
-/

namespace CachePolicy.Files

variable {files : Files} {path dir : Path} {place top : Location} {name : FileName}

/-! ## Removing a file that may be there -/

/-- What removing a file that may be there comes to. -/
inductive RemovalEnds (files : Files) (path : Path) : Except FileError Unit × Files → Prop where
  | removed {place : Location} {content : Bytes} (addresses : files.Addresses path place)
      (there : files.at? place = some (.file content)) :
      RemovalEnds files path (.ok (), files.erase place)
  | missing (missing : files.remove path = .error .notFound) :
      RemovalEnds files path (.ok (), files)
  | refused {reason : FileError} (refused : files.remove path = .error reason)
      (there : reason ≠ .notFound) : RemovalEnds files path (.error reason, files)

theorem removalEnds (files : Files) (path : Path) :
    RemovalEnds files path ((FileStore.removeIfThere path : StateM Files _) files) := by
  rw [FileStore.removeIfThere, bind_apply, remove_apply]
  cases removed : files.remove path with
  | ok after =>
      obtain ⟨place, content, addresses, there, rfl⟩ := remove_eq_ok_iff.mp removed
      rw [attempt_ok removed]
      exact .removed addresses there
  | error reason =>
      rw [attempt_error removed]
      cases reason with
      | notFound => exact .missing removed
      | _ => exact .refused removed nofun

/-- Two trees have the same at every place to which none of some paths leads. -/
structure SameBut (before after : Files) (paths : List Path) : Prop where
  working : after.working = before.working
  same : ∀ place, (∀ path ∈ paths, ¬before.Leads path place) →
    after.at? place = before.at? place

theorem SameBut.mono {before after : Files} {paths more : List Path} (included : paths ⊆ more)
    (same : SameBut before after paths) : SameBut before after more :=
  ⟨same.working, fun place free =>
    same.same place fun path member => free path (included member)⟩

/-- A tree from which a file was removed, if it was there. -/
structure Cleared (before : Files) (path : Path) (after : Files) : Prop where
  same : SameDirectories before after
  unseen : after.look path = none
  others : SameBut before after [path]

theorem RemovalEnds.cleared {after : Files} (ends : RemovalEnds files path (.ok (), after)) :
    Cleared files path after := by
  cases ends with
  | @removed place content addresses there =>
      have same : SameDirectories files (files.erase place) :=
        sameDirectories_erase addresses.ne_nil (by rw [there]; nofun)
      refine ⟨same, ?_, rfl, ?_⟩
      · rw [(addresses.of_sameDirectories same).look_eq_none_iff,
          at?_erase _ _ _ addresses.ne_nil, if_pos rfl]
      · intro other free
        rw [at?_erase _ _ _ addresses.ne_nil, if_neg]
        rintro rfl
        exact free path List.mem_cons_self addresses.leads
  | missing missing => exact ⟨.refl files, look_of_remove_notFound missing, rfl, fun _ _ => rfl⟩

/-- A name in a directory can be removed or is not there only if the directory is one. -/
theorem RemovalEnds.addresses {after : Files} {entry : Entry} (named : name ≠ "")
    (ends : RemovalEnds files (dir.join ⟨[name]⟩) (.ok (), after)) (leads : after.Leads dir top)
    (there : after.at? top = some entry) :
    entry = .directory ∧ after.Addresses (dir.join ⟨[name]⟩) (top ++ [name]) := by
  have cleared := ends.cleared
  have steps := Path.steps_join_name dir named
  have unclosed := Path.isClosed_join_name dir named
  have follows : files.follow (files.start (dir.join ⟨[name]⟩))
      (dir.join ⟨[name]⟩).steps.dropLast = .ok top := by
    rw [steps, List.dropLast_concat, start, Path.isRooted_join_name]
    exact cleared.same.leads_iff.mp leads
  suffices approached : files.approach (dir.join ⟨[name]⟩) = .ok (top, .name name) by
    have directory := (approach_eq_name_iff.mp approached).2.1.directory
    rw [← cleared.same.directories, there] at directory
    cases directory
    have addresses : files.Addresses (dir.join ⟨[name]⟩) (top ++ [name]) :=
      ⟨⟨top, name, approached, rfl⟩, unclosed⟩
    exact ⟨rfl, addresses.of_sameDirectories cleared.same⟩
  cases ends with
  | @removed place content addresses there =>
      obtain ⟨dir', last, approached, -⟩ := addresses.approached
      obtain ⟨-, names, -⟩ := approach_eq_name_iff.mp approached
      cases follows.symm.trans names.follows
      have ends := names.last
      rw [steps, List.getLast?_concat] at ends
      cases ends
      exact approached
  | missing missing =>
      cases checked : checkPath (dir.join ⟨[name]⟩) with
      | error reason =>
          have same : files.remove (dir.join ⟨[name]⟩) = .error reason := by
            simp [remove, approach, checked, bind, Except.bind]
          rw [missing] at same
          cases same
          exact absurd checked (checkPath_ne_notFound (Path.isEmpty_join_name dir named))
      | ok =>
          have approached := approach_of_follows checked follows there
          rw [steps, List.getLast?_concat] at approached
          cases entry with
          | file content =>
              simp [remove, approached, bind, Except.bind] at missing
          | directory =>
              cases ending : lastStep (some name) with
              | unnamed => simp [remove, approached, ending, bind, Except.bind] at missing
              | name last =>
                  obtain ⟨same, -⟩ := lastStep_eq_name_iff.mp ending
                  cases same
                  by_cases long : longestName < name.bytes.length
                  · simp [remove, approached, ending, long, bind, Except.bind] at missing
                  · rw [approached, ending]
                    exact if_neg long

/-- Removing a file that may be there, where a path addresses its place. -/
theorem Addresses.removeIfThere_eq (addresses : files.Addresses path place) :
    (FileStore.removeIfThere path : StateM Files _) files = match files.at? place with
      | none => (.ok (), files)
      | some .directory => (.error .isDirectory, files)
      | some (.file _) => (.ok (), files.erase place) := by
  have removal := addresses.remove_eq
  rw [FileStore.removeIfThere, bind_apply, remove_apply]
  cases there : files.at? place with
  | none =>
      rw [there] at removal
      rw [attempt_error removal]
      rfl
  | some entry =>
      rw [there] at removal
      cases entry with
      | directory =>
          rw [attempt_error removal]
          rfl
      | file content =>
          rw [attempt_ok removal]
          rfl

/-- A path that addresses no directory addresses nothing afterwards. -/
theorem removeIfThere_of_addresses (addresses : files.Addresses path place)
    (free : files.at? place ≠ some .directory) :
    ∃ after, (FileStore.removeIfThere path : StateM Files _) files = (.ok (), after) ∧
      SameDirectories files after ∧ after.at? place = none ∧
      ∀ other, other ≠ place → after.at? other = files.at? other := by
  rw [addresses.removeIfThere_eq]
  cases there : files.at? place with
  | none => exact ⟨files, rfl, .refl files, there, fun _ _ => rfl⟩
  | some entry =>
      cases entry with
      | directory => exact absurd there free
      | file content =>
          refine ⟨files.erase place, rfl, sameDirectories_erase addresses.ne_nil free, ?_, ?_⟩
          · rw [at?_erase _ _ _ addresses.ne_nil, if_pos rfl]
          · intro other differs
            rw [at?_erase _ _ _ addresses.ne_nil, if_neg differs]

/-! ## Making room -/

/-- A directory that is there cannot be made, and not because something is missing. -/
theorem makeDirectory_of_leads (full : path.isEmpty = false) (leads : files.Leads path top)
    (directory : files.at? top = some .directory) :
    ∃ reason, files.makeDirectory path = .error reason ∧ reason ≠ .notFound := by
  cases checked : checkPath path with
  | error reason =>
      refine ⟨reason, by simp [makeDirectory, approach, checked, bind, Except.bind], ?_⟩
      rintro rfl
      exact checkPath_ne_notFound full checked
  | ok =>
      refine ⟨.alreadyThere, ?_, by decide⟩
      rcases approach_of_leads checked leads directory with ⟨-, other⟩ | ⟨dir, unnamed⟩ |
        ⟨dir, name, approached, rfl⟩
      · exact absurd rfl other
      · simp [makeDirectory, unnamed, bind, Except.bind]
      · simp [makeDirectory, approached, directory, bind, Except.bind]

theorem look_of_leads (checked : checkPath path = .ok ()) (leads : files.Leads path top)
    (directory : files.at? top = some .directory) : files.look path = some .directory := by
  have follows : files.follow (files.start path) path.steps = .ok top := leads
  simp [look, find, checked, follows, directory, bind, Except.bind]

/-- Making directories that are there changes nothing, and succeeds where the path is one that
may be followed. -/
theorem makeLineage_of_leads (leads : files.Leads path top)
    (directory : files.at? top = some .directory) (above : List Path) :
    ∃ outcome,
      (FileStore.makeLineage (path :: above) : StateM Files _) files = (outcome, files) ∧
        (path.isEmpty = true ∨ checkPath path = .ok () → outcome = .ok ()) := by
  cases full : path.isEmpty with
  | true => exact ⟨.ok (), by simp [FileStore.makeLineage, full, pure_apply], fun _ => rfl⟩
  | false =>
      obtain ⟨reason, refused, there⟩ := makeDirectory_of_leads full leads directory
      have run : (FileStore.makeLineage (path :: above) : StateM Files _) files =
          (if files.look path == some .directory then .ok () else .error reason, files) := by
        simp only [FileStore.makeLineage, full, Bool.false_eq_true, if_false]
        rw [bind_apply, makeDirectory_apply, attempt_error refused]
        cases reason with
        | notFound => exact absurd rfl there
        | _ => rfl
      refine ⟨_, run, ?_⟩
      rintro (empty | checked)
      · cases empty
      · rw [look_of_leads checked leads directory]
        rfl

/-- Making room for a file in a directory that is there changes nothing. -/
theorem makeRoom_of_leads (named : name ≠ "") (moves : name ≠ ".")
    (leads : files.Leads dir top) (directory : files.at? top = some .directory) :
    ∃ outcome,
      (FileStore.makeRoom (dir.join ⟨[name]⟩) : StateM Files _) files = (outcome, files) ∧
        (dir.tidy.isEmpty = true ∨ checkPath dir.tidy = .ok () → outcome = .ok ()) := by
  have tidy : files.Leads dir.tidy top := by
    rw [Leads, Path.steps_tidy, start, Path.isRooted_tidy]
    exact follow_parts leads
  rw [FileStore.makeRoom, Path.parent?_join_name dir named moves]
  exact makeLineage_of_leads tidy directory _

/-! ## Replacing -/

/-- A tree after a file was replaced: the file has its content, and there is no temporary
file. -/
structure Replaced (files : Files) (place hidden : Location) (content : Bytes) (after : Files) :
    Prop where
  same : SameDirectories files after
  there : after.at? place = some (.file content)
  gone : after.at? hidden = none
  kept : ∀ other, other ≠ place → other ≠ hidden → after.at? other = files.at? other

/-- What replacing a file comes to: without a temporary file nothing changes. -/
inductive ReplacementEnds (files : Files) (path : Path) (place : Location) (content : Bytes) :
    Except FileError Unit × Files → Prop where
  | replaced {hidden : Location} {after : Files}
      (addresses : files.Addresses (FileStore.temporary path) hidden)
      (free : files.at? hidden ≠ some .directory)
      (replaced : Replaced files place hidden content after) :
      ReplacementEnds files path place content (.ok (), after)
  | refused {reason : FileError}
      (refused : ∀ after, files.write (FileStore.temporary path) content ≠ .ok after) :
      ReplacementEnds files path place content (.error reason, files)

/-- Once the temporary file is written, it takes the place of the file. -/
theorem replaced_of_written {spare : Location} (content : Bytes)
    (addresses : files.Addresses path place) (free : files.at? place ≠ some .directory)
    (spareAddresses : files.Addresses (FileStore.temporary path) spare)
    (spareFree : files.at? spare ≠ some .directory) (apart : place ≠ spare) :
    ∃ cleared after,
      (FileStore.removeIfThere path : StateM Files _) (files.insert spare (.file content)) =
        (.ok (), cleared) ∧
      cleared.rename (FileStore.temporary path) path = .ok after ∧
      Replaced files place spare content after := by
  have first : SameDirectories files (files.insert spare (.file content)) :=
    sameDirectories_insert spareAddresses.ne_nil spareFree
  have untouched : (files.insert spare (.file content)).at? place = files.at? place := by
    rw [at?_insert _ _ _ _ spareAddresses.ne_nil, if_neg apart]
  obtain ⟨cleared, removed, second, absent, kept⟩ :=
    removeIfThere_of_addresses (addresses.of_sameDirectories first) (untouched ▸ free)
  have stored : cleared.at? spare = some (.file content) := by
    rw [kept spare apart.symm, at?_insert _ _ _ _ spareAddresses.ne_nil, if_pos rfl]
  have both := first.trans second
  have renamed := (spareAddresses.of_sameDirectories both).rename_eq
    (addresses.of_sameDirectories both) stored (by rw [absent]; nofun)
  have erased : SameDirectories cleared (cleared.erase spare) :=
    sameDirectories_erase spareAddresses.ne_nil (by rw [stored]; nofun)
  have vacant : (cleared.erase spare).at? place = none := by
    rw [at?_erase _ _ _ spareAddresses.ne_nil, if_neg apart, absent]
  refine ⟨cleared, _, removed, renamed, ?_, ?_, ?_, ?_⟩
  · exact (both.trans erased).trans
      (sameDirectories_insert addresses.ne_nil (by rw [vacant]; nofun))
  · rw [at?_insert _ _ _ _ addresses.ne_nil, if_pos rfl]
  · rw [at?_insert _ _ _ _ addresses.ne_nil, if_neg apart.symm,
      at?_erase _ _ _ spareAddresses.ne_nil, if_pos rfl]
  · intro other notPlace notSpare
    rw [at?_insert _ _ _ _ addresses.ne_nil, if_neg notPlace,
      at?_erase _ _ _ spareAddresses.ne_nil, if_neg notSpare, kept other notPlace,
      at?_insert _ _ _ _ spareAddresses.ne_nil, if_neg notSpare]

/-- Once the temporary file is written, the old file is removed and the new one gets its name,
as there is room for both. -/
theorem replace_of_written (leads : files.Leads dir top)
    (directory : files.at? top = some .directory) (named : name ≠ "") (notHere : name ≠ ".")
    (notUp : name ≠ "..") {text : String} {between : Files}
    (written : files.write (FileStore.temporary (dir.join ⟨[name]⟩)) text.toUTF8 = .ok between) :
    (FileStore.replace (dir.join ⟨[name]⟩) text : StateM Files _) files =
      match (FileStore.removeIfThere (dir.join ⟨[name]⟩) : StateM Files _) between with
      | (.error reason, after) => (.error reason, after)
      | (.ok _, after) =>
        attempt (·.rename (FileStore.temporary (dir.join ⟨[name]⟩)) (dir.join ⟨[name]⟩)) after := by
  obtain ⟨outcome, made, roomy⟩ := makeRoom_of_leads named notHere leads directory
  obtain ⟨spare, spareAddresses, -, -⟩ := write_eq_ok_iff.mp written
  have hidden := FileStore.temporary_join_name dir named notHere notUp
  have fine : dir.tidy.isEmpty = true ∨ checkPath dir.tidy = .ok () := by
    cases full : dir.tidy.isEmpty with
    | true => exact .inl rfl
    | false => exact .inr (checkPath_of_join_name full (hidden ▸ spareAddresses.checked))
  cases roomy fine
  rw [FileStore.replace, mk_bind_apply, made]
  dsimp only
  rw [mk_bind_apply, write_apply, attempt_ok written]
  dsimp only
  rw [mk_bind_apply]
  rcases (FileStore.removeIfThere (dir.join ⟨[name]⟩) : StateM Files _) between with ⟨_ | _, _⟩
  · rfl
  · dsimp only
    rw [ExceptT.run_mk, rename_apply]

/-- The temporary file is not the file itself. -/
theorem Addresses.ne_temporary {spare : Location} (named : name ≠ "")
    (addresses : files.Addresses (dir.join ⟨[name]⟩) place)
    (spareAddresses : files.Addresses (FileStore.temporary (dir.join ⟨[name]⟩)) spare) :
    place ≠ spare := by
  obtain ⟨notHere, notUp⟩ := addresses.last_moves (Path.steps_join_name dir named)
  intro same
  have last := spareAddresses.getLast?_eq
  rw [FileStore.temporary_join_name dir named notHere notUp,
    Path.steps_join_name _ (FileStore.temporaryName_ne (by decide)), List.getLast?_concat,
    ← same, addresses.getLast?_eq, Path.steps_join_name dir named, List.getLast?_concat] at last
  exact FileStore.temporaryName_ne_self name (Option.some.inj last).symm

/-- A file in a directory is replaced just when the temporary file can be written. -/
theorem replacementEnds (leads : files.Leads dir top) (directory : files.at? top = some .directory)
    (addresses : files.Addresses (dir.join ⟨[name]⟩) place) (named : name ≠ "")
    (free : files.at? place ≠ some .directory) (text : String) :
    ReplacementEnds files (dir.join ⟨[name]⟩) place text.toUTF8
      ((FileStore.replace (dir.join ⟨[name]⟩) text : StateM Files _) files) := by
  obtain ⟨notHere, notUp⟩ := addresses.last_moves (Path.steps_join_name dir named)
  cases written : files.write (FileStore.temporary (dir.join ⟨[name]⟩)) text.toUTF8 with
  | error reason =>
      have refused : ∀ after,
          files.write (FileStore.temporary (dir.join ⟨[name]⟩)) text.toUTF8 ≠ .ok after := by
        rw [written]
        nofun
      obtain ⟨outcome, made, -⟩ := makeRoom_of_leads named notHere leads directory
      rw [FileStore.replace, mk_bind_apply, made]
      cases outcome with
      | error other => exact .refused refused
      | ok =>
          dsimp only
          rw [mk_bind_apply, write_apply, attempt_error written]
          exact .refused refused
  | ok between =>
      rw [replace_of_written leads directory named notHere notUp written]
      obtain ⟨spare, spareAddresses, spareFree, rfl⟩ := write_eq_ok_iff.mp written
      obtain ⟨cleared, after, removed, renamed, replaced⟩ :=
        replaced_of_written text.toUTF8 addresses free spareAddresses spareFree
          (addresses.ne_temporary named spareAddresses)
      rw [removed]
      dsimp only
      rw [attempt_ok renamed]
      exact .replaced spareAddresses spareFree replaced

end CachePolicy.Files
