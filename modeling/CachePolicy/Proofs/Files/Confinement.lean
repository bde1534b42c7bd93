import CachePolicy.Proofs.Files.Journal

/-!
# Staying in a directory

A name that is joined to the path of a directory is the name of something in that directory,
whatever the tree, so long as an operation on the joined path succeeds.  The temporary file of a
name other than `.` and `..` is in the directory as well.  A file is therefore replaced without any
other place being touched, besides the directories above it that have to be made.
-/

namespace CachePolicy

namespace Files

variable {files other : Files} {path dir : Path} {place goal top : Location} {name : FileName}

/-! ## Trees with more directories -/

/-- No directory of a tree is lost in another one, and paths start in the same one. -/
structure Grown (files other : Files) : Prop where
  working : other.working = files.working
  directories : ∀ place, files.at? place = some .directory → other.at? place = some .directory

theorem SameDirectories.grown (same : SameDirectories files other) : Grown files other :=
  ⟨same.working, fun place => (same.directories place).mpr⟩

/-- A path goes on to lead where it led. -/
theorem Grown.leads (grown : Grown files other) (leads : files.Leads path place) :
    other.Leads path place := by
  have follows : ∀ (steps : List FileName) (from' : Location),
      files.follow from' steps = .ok place → other.follow from' steps = .ok place := by
    intro steps
    induction steps with
    | nil => exact fun _ leads => leads
    | cons step rest ih =>
        intro from' leads
        obtain ⟨directory, next, taken, later⟩ := follow_cons_eq_ok_iff.mp leads
        exact follow_cons_eq_ok_iff.mpr
          ⟨grown.directories from' directory, next, taken, ih next later⟩
  rw [Leads, start, grown.working]
  exact follows path.steps _ leads

/-! ## Steps that stay in place -/

theorem directory_of_follow {steps : List FileName} (leads : files.follow place steps = .ok goal)
    (directory : files.at? goal = some .directory) : files.at? place = some .directory := by
  cases steps with
  | nil =>
      cases leads
      exact directory
  | cons step rest => exact (follow_cons_eq_ok_iff.mp leads).1

/-- On the way to a directory one may stay in place. -/
theorem follow_of_moving {steps : List FileName}
    (leads : files.follow place (Path.moving steps) = .ok goal)
    (directory : files.at? goal = some .directory) : files.follow place steps = .ok goal := by
  induction steps generalizing place with
  | nil => exact leads
  | cons step rest ih =>
      by_cases stays : step = "."
      · subst stays
        have later : files.follow place (Path.moving rest) = .ok goal := leads
        exact follow_cons_eq_ok_iff.mpr
          ⟨directory_of_follow later directory, place, rfl, ih later⟩
      · have kept : Path.moving (step :: rest) = step :: Path.moving rest :=
          List.filter_cons_of_pos (by simpa using stays)
        rw [kept] at leads
        obtain ⟨here, next, taken, later⟩ := follow_cons_eq_ok_iff.mp leads
        exact follow_cons_eq_ok_iff.mpr ⟨here, next, taken, ih later⟩

/-- The steps of a path lead to a directory if its parts do. -/
theorem follow_of_parts (leads : files.follow place path.parts = .ok goal)
    (directory : files.at? goal = some .directory) : files.follow place path.steps = .ok goal := by
  -- The parts of a path are without `.`, unless it is the first step of one that is relative.
  rw [Path.parts] at leads
  split at leads
  · next dotted =>
      obtain ⟨rest, split⟩ := List.head?_eq_some_iff.mp dotted.2
      rw [split] at leads ⊢
      obtain ⟨here, next, taken, later⟩ := follow_cons_eq_ok_iff.mp leads
      exact follow_cons_eq_ok_iff.mpr ⟨here, next, taken, follow_of_moving later directory⟩
  · exact follow_of_moving leads directory

theorem leads_of_tidy (leads : files.Leads path.tidy top)
    (directory : files.at? top = some .directory) : files.Leads path top := by
  rw [Leads, start, Path.isRooted_tidy, Path.steps_tidy] at leads
  exact follow_of_parts leads directory

/-! ## Names in a directory -/

/-- A path is that of a name in a directory. -/
def JoinedTo (dir path : Path) (name : FileName) : Prop :=
  name ≠ "" ∧ (path = dir.join ⟨[name]⟩ ∨ path = dir.tidy.join ⟨[name]⟩)

/-- What such a path addresses is in the directory, and the directory is there. -/
theorem JoinedTo.exists_top (joined : JoinedTo dir path name)
    (addresses : files.Addresses path place) :
    ∃ top, place = top ++ [name] ∧ files.Leads dir top ∧ files.at? top = some .directory := by
  obtain ⟨full, written⟩ := joined
  obtain ⟨top, last, approached, rfl⟩ := addresses.approached
  obtain ⟨-, names, -⟩ := approach_eq_name_iff.mp approached
  have follows := names.follows
  have ends := names.last
  obtain rfl | rfl := written
  · rw [Path.steps_join_name dir full, List.getLast?_concat] at ends
    rw [Path.steps_join_name dir full, List.dropLast_concat, start,
      Path.isRooted_join_name] at follows
    cases ends
    exact ⟨top, rfl, follows, names.directory⟩
  · rw [Path.steps_join_name _ full, List.getLast?_concat] at ends
    rw [Path.steps_join_name _ full, List.dropLast_concat, start,
      Path.isRooted_join_name] at follows
    cases ends
    exact ⟨top, rfl, leads_of_tidy follows names.directory, names.directory⟩

theorem Addresses.named_eq (addresses : files.Addresses path place) :
    Journal.named files path = [place] := by
  obtain ⟨top, last, approached, rfl⟩ := addresses.approached
  rw [Journal.named, approached]

end Files

/-! ## Journals of a directory -/

open Files

/-- All that a journal notes has happened in a directory: each file that was touched is in it and
has one of some names, and each directory that was made is on the way to it.  Where nothing is
noted, everything is as it was. -/
structure Confined (dir : Path) (names : List FileName) (before : Files) (journal : Journal) :
    Prop where
  touched : ∀ place ∈ journal.touched, ∃ top, ∃ name ∈ names, place = top ++ [name] ∧
    journal.files.Leads dir top ∧ journal.files.at? top = some .directory
  made : ∀ place ∈ journal.made, ∃ path ∈ dir.tidy.lineage, journal.files.Leads path place
  working : journal.files.working = before.working
  others : ∀ place, place ∉ journal.touched → place ∉ journal.made →
    journal.files.at? place = before.at? place

namespace Confined

variable {dir : Path} {names : List FileName} {before after : Files} {journal : Journal}

theorem start (dir : Path) (names : List FileName) (before : Files) :
    Confined dir names before { files := before } where
  touched := nofun
  made := nofun
  working := rfl
  others _ _ _ := rfl

/-- Places in the directory may be touched. -/
theorem touching (confined : Confined dir names before journal) {paths : List Path}
    (inside : ∀ path ∈ paths, ∃ name ∈ names, JoinedTo dir path name ∧
      ∃ place, journal.files.Addresses path place)
    (same : SameDirectories journal.files after)
    (others : ∀ place, place ∉ paths.flatMap (Journal.named journal.files) →
      after.at? place = journal.files.at? place) :
    Confined dir names before { journal.touching paths with files := after } where
  touched place noted := by
    obtain noted | noted := List.mem_append.mp noted
    · obtain ⟨top, name, listed, rfl, leads, directory⟩ := confined.touched place noted
      exact ⟨top, name, listed, rfl, same.grown.leads leads, same.grown.directories top directory⟩
    · obtain ⟨path, given, noted⟩ := List.mem_flatMap.mp noted
      obtain ⟨name, listed, joined, goal, addresses⟩ := inside path given
      rw [addresses.named_eq, List.mem_singleton] at noted
      subst noted
      obtain ⟨top, rfl, leads, directory⟩ := joined.exists_top addresses
      exact ⟨top, name, listed, rfl, same.grown.leads leads, same.grown.directories top directory⟩
  made place noted := by
    obtain ⟨path, above, leads⟩ := confined.made place noted
    exact ⟨path, above, same.grown.leads leads⟩
  working := same.working.trans confined.working
  others place untouched unmade := by
    simp only [Journal.touching, List.mem_append, not_or] at untouched
    rw [← confined.others place untouched.1 unmade]
    exact others place untouched.2

/-- A directory on the way to the directory may be made. -/
theorem making (confined : Confined dir names before journal) {path : Path}
    (above : path ∈ dir.tidy.lineage) (made : journal.files.makeDirectory path = .ok after) :
    Confined dir names before { journal.making path with files := after } := by
  obtain ⟨top, name, approached, absent, rfl⟩ := makeDirectory_eq_ok_iff.mp made
  have noted : Journal.named journal.files path = [top ++ [name]] := by
    rw [Journal.named, approached]
  have place : top ++ [name] ≠ [] := by simp
  have grown : Grown journal.files (journal.files.insert (top ++ [name]) .directory) := by
    refine ⟨rfl, fun other directory => ?_⟩
    rw [at?_insert _ _ _ _ place]
    split
    · rfl
    · exact directory
  refine ⟨?_, ?_, confined.working, ?_⟩
  · intro place noted
    obtain ⟨top, name, listed, rfl, leads, directory⟩ := confined.touched place noted
    exact ⟨top, name, listed, rfl, grown.leads leads, grown.directories top directory⟩
  · intro place listed
    rw [Journal.making, noted] at listed
    obtain listed | listed := List.mem_append.mp listed
    · obtain ⟨other, inside, leads⟩ := confined.made place listed
      exact ⟨other, inside, grown.leads leads⟩
    · rw [List.mem_singleton.mp listed]
      exact ⟨path, above, grown.leads (leads_of_approach approached)⟩
  · intro other untouched unmade
    rw [Journal.making, noted, List.mem_append, not_or, List.mem_singleton] at unmade
    rw [← confined.others other untouched unmade.1]
    exact (at?_insert _ _ _ _ place).trans (if_neg unmade.2)

end Confined

/-! ## Operations in a directory -/

namespace Tracks

variable {dir path : Path} {names : List FileName} {before : Files}

/-- A file in the directory is written. -/
theorem confined_write {name : FileName} (listed : name ∈ names) (joined : JoinedTo dir path name)
    (content : Bytes) : Tracks (Confined dir names before) (FileStore.write path content)
      (FileStore.write path content) := by
  refine .record fun journal after confined written => ?_
  obtain ⟨place, addresses, free, rfl⟩ := write_eq_ok_iff.mp written
  refine confined.touching ?_ (sameDirectories_insert addresses.ne_nil free) ?_
  · intro other given
    rw [List.mem_singleton.mp given]
    exact ⟨name, listed, joined, place, addresses⟩
  · intro other untouched
    rw [List.flatMap_singleton, addresses.named_eq, List.mem_singleton] at untouched
    rw [at?_insert _ _ _ _ addresses.ne_nil, if_neg untouched]

/-- A file in the directory is removed. -/
theorem confined_remove {name : FileName} (listed : name ∈ names)
    (joined : JoinedTo dir path name) :
    Tracks (Confined dir names before) (FileStore.remove path) (FileStore.remove path) := by
  refine .record fun journal after confined removed => ?_
  obtain ⟨place, content, addresses, there, rfl⟩ := remove_eq_ok_iff.mp removed
  refine confined.touching ?_ (sameDirectories_erase addresses.ne_nil (by rw [there]; nofun)) ?_
  · intro other given
    rw [List.mem_singleton.mp given]
    exact ⟨name, listed, joined, place, addresses⟩
  · intro other untouched
    rw [List.flatMap_singleton, addresses.named_eq, List.mem_singleton] at untouched
    rw [at?_erase _ _ _ addresses.ne_nil, if_neg untouched]

/-- A file in the directory gets the name of another one there. -/
theorem confined_rename {target : Path} {name goal : FileName} (listed : name ∈ names)
    (joined : JoinedTo dir path name) (given : goal ∈ names) (joined' : JoinedTo dir target goal) :
    Tracks (Confined dir names before) (FileStore.rename path target)
      (FileStore.rename path target) := by
  refine .record fun journal after confined renamed => ?_
  obtain ⟨place, place', content, addresses, targets, there, free, rfl⟩ :=
    rename_eq_ok_iff.mp renamed
  have erased : SameDirectories journal.files (journal.files.erase place) :=
    sameDirectories_erase addresses.ne_nil (by rw [there]; nofun)
  -- The target is written when the source is gone already, and the two may be one place.
  have vacant : (journal.files.erase place).at? place' ≠ some .directory :=
    fun directory => free ((erased.directories place').mp directory)
  refine confined.touching ?_
    (erased.trans (sameDirectories_insert targets.ne_nil vacant)) ?_
  · intro other given'
    obtain rfl | given' := List.mem_cons.mp given'
    · exact ⟨name, listed, joined, place, addresses⟩
    · rw [List.mem_singleton.mp given']
      exact ⟨goal, given, joined', place', targets⟩
  · intro other untouched
    simp only [List.flatMap_cons, List.flatMap_nil, addresses.named_eq, targets.named_eq,
      List.append_nil, List.mem_append, List.mem_singleton, not_or] at untouched
    rw [at?_insert _ _ _ _ targets.ne_nil, if_neg untouched.2, at?_erase _ _ _ addresses.ne_nil,
      if_neg untouched.1]

/-- The directory is made, and those above it. -/
theorem confined_makeDirectories :
    Tracks (Confined dir names before) (FileStore.makeDirectories dir.tidy)
      (FileStore.makeDirectories dir.tidy) :=
  .makeLineage fun _ above => .record fun _ _ confined made => confined.making above made

/-- A file in the directory is replaced, by way of its temporary file. -/
theorem confined_replace {name : FileName} (named : name ≠ "") (notHere : name ≠ ".")
    (notUp : name ≠ "..") (text : String) :
    Tracks (Confined dir [name, FileStore.temporaryName name] before)
      (FileStore.replace (dir.join ⟨[name]⟩) text)
      (FileStore.replace (dir.join ⟨[name]⟩) text) := by
  have joined : JoinedTo dir (dir.join ⟨[name]⟩) name := ⟨named, .inl rfl⟩
  have hidden : JoinedTo dir (FileStore.temporary (dir.join ⟨[name]⟩))
      (FileStore.temporaryName name) :=
    ⟨FileStore.temporaryName_ne (by decide),
      .inr (FileStore.temporary_join_name dir named notHere notUp)⟩
  have first : name ∈ [name, FileStore.temporaryName name] := List.mem_cons_self
  have second : FileStore.temporaryName name ∈ [name, FileStore.temporaryName name] :=
    List.mem_cons_of_mem _ List.mem_cons_self
  refine .replace ?_ (confined_write second hidden _) (confined_remove first joined)
    (confined_rename second hidden first joined)
  rw [FileStore.makeRoom, FileStore.makeRoom, Path.parent?_join_name dir named notHere]
  exact confined_makeDirectories

end Tracks

end CachePolicy
