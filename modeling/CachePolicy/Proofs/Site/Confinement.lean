import CachePolicy.Proofs.Config.Names
import CachePolicy.Proofs.Files.Confinement
import CachePolicy.Proofs.Site.Build
import CachePolicy.Site.Development

/-!
# Workers that stay in their directory

The name of a worker is checked for separators when a configuration is loaded.  A build with such
a name touches nothing besides the worker and its temporary file, which are both in the directory
of the site.  The names `.` and `..` pass the check.  No build gets as far as to write under one of
them, but the worker for development is written without a look at the directory first, and then its
temporary file is somewhere else.
-/

namespace CachePolicy

open Files

namespace Tracks

variable {invariant : Journal → Prop}

/-! ## Programs that write a worker -/

variable {output : Path}

theorem put {text : String}
    (replaces : Tracks invariant (FileStore.replace output text) (FileStore.replace output text)) :
    Tracks invariant (WorkerFile.put output text) (WorkerFile.put output text) :=
  .bind replaces fun _ => .pure _

theorem write {program : String} {custom : Option Path}
    (replaces : ∀ text,
      Tracks invariant (FileStore.replace output text) (FileStore.replace output text)) :
    Tracks invariant (WorkerFile.write program output custom)
      (WorkerFile.write program output custom) :=
  .mk_bind (WorkerFile.tracks_readCustom custom) fun _ =>
    .mk_bind (.put (replaces _)) fun _ => .pure _

theorem step_of {ε α β : Type} {cause : ε → BuildError} {first : StateM Files (Except ε α)}
    {first' : StateM Journal (Except ε α)} {next : α → ExceptT BuildError (StateM Files) β}
    {next' : α → ExceptT BuildError (StateM Journal) β} (tracks : Tracks invariant first first')
    (later : ∀ journal value, invariant journal → (first journal.files).1 = .ok value →
      Tracks invariant (next value).run (next' value).run) :
    Tracks invariant (Site.step cause first >>= next).run
      (Site.step cause first' >>= next').run := by
  refine .mk_bind_of (tracks.map _) fun journal value holds ran => later journal value holds ?_
  rw [map_apply] at ran
  cases came : (first journal.files).1 with
  | error reason => simp [came, Except.mapError] at ran
  | ok other => simpa [came, Except.mapError] using ran

/-- A build writes only if it has removed the old worker and scanned the directory. -/
theorem build {dir : Path} {options : Options} {routes : Option (List String)}
    (removes : Tracks invariant (FileStore.removeIfThere (Site.workerPath dir options.swName))
      (FileStore.removeIfThere (Site.workerPath dir options.swName)))
    (replaces : ∀ first second explicit assets text, invariant first → invariant second →
      ((FileStore.removeIfThere (Site.workerPath dir options.swName) : StateM Files _)
        first.files).1 = .ok () →
      ((AssetManifest.scan dir options.globPatterns options.swName explicit : StateM Files _)
        second.files).1 = .ok assets →
      Tracks invariant (FileStore.replace (Site.workerPath dir options.swName) text)
        (FileStore.replace (Site.workerPath dir options.swName) text)) :
    Tracks invariant (Site.build dir options routes) (Site.build dir options routes) := by
  refine step_of removes fun first _ holds removed => ?_
  refine step_of (Site.tracks_pathnames dir routes) fun _ _ _ _ => ?_
  refine step_of (.pure _) fun _ _ _ _ => ?_
  refine step_of (AssetManifest.tracks_scan _ _ _ _) fun second assets holds' scanned => ?_
  refine step_of (.pure _) fun _ _ _ _ => ?_
  refine step_of (.write fun text => ?_) fun _ _ _ _ => .pure _
  exact replaces first second _ assets text holds holds' removed scanned

/-- Nothing is ever removed under a name that moves. -/
theorem remove_of_moves {dir : Path} {name : FileName} (named : name ≠ "")
    (moves : name = "." ∨ name = "..") :
    Tracks invariant (FileStore.remove (dir.join ⟨[name]⟩))
      (FileStore.remove (dir.join ⟨[name]⟩)) := by
  refine .record fun journal after _ removed => ?_
  obtain ⟨place, content, addresses, -, -⟩ := remove_eq_ok_iff.mp removed
  obtain ⟨notHere, notUp⟩ := addresses.last_moves (Path.steps_join_name dir named)
  exact absurd moves (not_or.mpr ⟨notHere, notUp⟩)

end Tracks

namespace Site

variable {files before : Files} {dir : Path} {options : Options} {routes : Option (List String)}

/-- Where a file of a name that moves is not there, there is no directory to scan. -/
theorem not_scanned_of_moves {name : FileName} (named : name ≠ "")
    (moves : name = "." ∨ name = "..")
    (removed : ((FileStore.removeIfThere (dir.join ⟨[name]⟩) : StateM Files _) files).1 = .ok ())
    {patterns : List String} {swName : String} {explicit : PrecacheManifest}
    {assets : AssetManifest} :
    ((AssetManifest.scan dir patterns swName explicit : StateM Files _) files).1 ≠ .ok assets := by
  intro scanned
  have steps := Path.steps_join_name dir named
  have ends := removalEnds files (dir.join ⟨[name]⟩)
  generalize (FileStore.removeIfThere (dir.join ⟨[name]⟩) : StateM Files _) files = result
    at ends removed
  -- No address ends in a name that moves, and each end of the removal has one: the file that was
  -- removed, or the one that was missing from the directory that was scanned.
  suffices apart : name ≠ "." ∧ name ≠ ".." from absurd moves (not_or.mpr apart)
  cases ends with
  | removed addresses there => exact addresses.last_moves steps
  | missing missing =>
      obtain ⟨top, entry, found⟩ := AssetManifest.find_of_scan scanned
      obtain ⟨-, leads, there⟩ := of_find_eq_ok found
      exact ((RemovalEnds.missing missing).addresses named leads there).2.last_moves steps
  | refused refused there => cases removed

/-- A build stays in the directory of the site. -/
theorem tracks_build (plain : isPlainName options.swName = true)
    (notHere : FileName.ofText options.swName ≠ ".")
    (notUp : FileName.ofText options.swName ≠ "..") :
    Tracks (Confined dir [options.swName, FileStore.temporaryName options.swName] before)
      (build dir options routes) (build dir options routes) := by
  have named := (Path.read_of_isPlainName plain).2
  have output := workerPath_of_isPlainName plain dir
  refine .build ?_ fun _ _ _ _ text _ _ _ _ => ?_
  · rw [output]
    exact .removeIfThere (.confined_remove List.mem_cons_self ⟨named, .inl rfl⟩)
  · rw [output]
    exact .confined_replace named notHere notUp text

/-- A build under a name that moves does nothing. -/
theorem tracks_build_of_moves (dir : Path) (routes : Option (List String))
    (plain : isPlainName options.swName = true)
    (moves : FileName.ofText options.swName = "." ∨ FileName.ofText options.swName = "..")
    (start : Journal) :
    Tracks (· = start) (build dir options routes) (build dir options routes) := by
  have named := (Path.read_of_isPlainName plain).2
  have output := workerPath_of_isPlainName plain dir
  refine .build ?_ fun first second _ _ _ same same' removed scanned => ?_
  · rw [output]
    exact .removeIfThere (.remove_of_moves named moves)
  · subst same same'
    rw [output] at removed
    exact absurd scanned (not_scanned_of_moves named moves removed)

end Site

/-- The worker for development stays in its directory. -/
theorem Development.tracks_write {swName : String} {before : Files} {dir : Path}
    (plain : isPlainName swName = true) (notHere : FileName.ofText swName ≠ ".")
    (notUp : FileName.ofText swName ≠ "..") :
    Tracks (Confined dir [swName, FileStore.temporaryName swName] before)
      (Development.write dir swName) (Development.write dir swName) := by
  obtain ⟨read, named⟩ := Path.read_of_isPlainName plain
  unfold Development.write
  rw [read]
  exact .bind (.put (.confined_replace named notHere notUp _)) fun _ => .pure _

/-! ## Workers of a configuration -/

/-- A program that starts on a tree touches nothing besides the worker of a name and its temporary
file in a directory, and makes no other directory than that one and those above it. -/
def StaysIn {α : Type} (dir : Path) (swName : String) (before : Files) (plain : StateM Files α)
    (noted : StateM Journal α) : Prop :=
  ∃ outcome journal, noted { files := before } = (outcome, journal) ∧
    plain before = (outcome, journal.files) ∧
    Confined dir [swName, FileStore.temporaryName swName] before journal

/-- Where the worker of a loaded configuration is written.  A build touches nothing outside the
directory of the site, whatever it comes to, and nothing at all if the worker is to have the name
`.` or `..`.  Under any other name the worker for development stays in its directory, too. -/
theorem EffectiveConfig.worker_confined {files : Files} {path : Option Path}
    {overrides : Option Json} {effective : EffectiveConfig}
    (loaded : ((EffectiveConfig.load path overrides : StateM Files _) files).1 = .ok effective)
    (before : Files) (dir : Path) (routes : Option (List String)) :
    StaysIn dir effective.options.swName before (Site.build dir effective.options routes)
        (Site.build dir effective.options routes) ∧
      (effective.options.swName = "." ∨ effective.options.swName = ".." →
        ((Site.build dir effective.options routes : StateM Journal _) { files := before }).2 =
          { files := before }) ∧
      (effective.options.swName ≠ "." → effective.options.swName ≠ ".." →
        StaysIn dir effective.options.swName before
          (Development.write dir effective.options.swName)
          (Development.write dir effective.options.swName)) := by
  have plain := (EffectiveConfig.checked_of_load loaded).swName
  have start := Confined.start dir
    [effective.options.swName, FileStore.temporaryName effective.options.swName] before
  have idle (moves : FileName.ofText effective.options.swName = "." ∨
      FileName.ofText effective.options.swName = "..") :=
    Site.tracks_build_of_moves dir routes plain moves { files := before } _ rfl
  refine ⟨?_, ?_, ?_⟩
  · by_cases moves : FileName.ofText effective.options.swName = "." ∨
        FileName.ofText effective.options.swName = ".."
    · obtain ⟨outcome, journal, ran, same, rfl⟩ := idle moves
      exact ⟨outcome, _, ran, same, start⟩
    · obtain ⟨notHere, notUp⟩ := not_or.mp moves
      exact Site.tracks_build plain notHere notUp _ start
  · intro moves
    obtain ⟨outcome, journal, ran, -, rfl⟩ :=
      idle (moves.imp (congrArg FileName.ofText) (congrArg FileName.ofText))
    rw [ran]
  · intro notHere notUp
    exact Development.tracks_write plain (FileName.ofText_inj.not.mpr notHere)
      (FileName.ofText_inj.not.mpr notUp) _ start

/-- A tree with a file and without a directory for a site. -/
def Files.siteless : Files where
  entries := SortedMap.empty.insertAll [(["other.txt"], .file "x".toUTF8)]
  working := []

/-- Any name without separators may be given to a worker by hand. -/
theorem EffectiveConfig.load_swName (name : String) (plain : isPlainName name = true) :
    ∃ effective, ((EffectiveConfig.load none (some (.obj [("swName", .str name)])) :
        StateM Files _) .siteless).1 = .ok effective ∧
      effective.options = { swName := name } := by
  have decoded : Options.decode (Layers.merge [Options.builtin, .obj [("swName", .str name)]]) =
    .ok { swName := name } := rfl
  have checked : Options.check { swName := name } = .ok { swName := name } :=
    Options.check_eq_ok_iff.mpr ⟨⟨by simp, plain, nofun, by simp⟩, rfl⟩
  exact ⟨_, EffectiveConfig.load_overrides decoded checked, rfl⟩

/-- A worker whose name begins like the way up stays in its directory all the same. -/
theorem EffectiveConfig.worker_confined_dots :
    ∃ effective, ((EffectiveConfig.load none (some (.obj [("swName", .str "...")])) :
        StateM Files _) .siteless).1 = .ok effective ∧
      effective.options.swName = "..." ∧
      StaysIn ⟨["public"]⟩ "..." .siteless (Site.build ⟨["public"]⟩ effective.options none)
        (Site.build ⟨["public"]⟩ effective.options none) ∧
      StaysIn ⟨["public"]⟩ "..." .siteless (Development.write ⟨["public"]⟩ "...")
        (Development.write ⟨["public"]⟩ "...") ∧
      ((Development.write ⟨["public"]⟩ "..." : StateM Journal _) { files := .siteless }).2.touched =
        ([["public", ".....tmp"], ["public", ".....tmp"], ["public", "..."]] : List Location) := by
  obtain ⟨effective, loaded, options⟩ := EffectiveConfig.load_swName "..." (by decide)
  obtain ⟨builds, -, writes⟩ :=
    EffectiveConfig.worker_confined loaded .siteless ⟨["public"]⟩ none
  have name : effective.options.swName = "..." := by rw [options]
  rw [name] at builds writes
  exact ⟨effective, loaded, name, builds, writes (by decide) (by decide), rfl⟩

/-- Under the name `..` the temporary file of the worker for development is written beside the
directory, and stays there. -/
theorem EffectiveConfig.worker_beside_directory :
    ∃ effective, ((EffectiveConfig.load none (some (.obj [("swName", .str "..")])) :
        StateM Files _) .siteless).1 = .ok effective ∧
      effective.options.swName = ".." ∧
      ∃ outcome journal, (Development.write ⟨["public"]⟩ ".." : StateM Journal _)
          { files := .siteless } = (outcome, journal) ∧
        journal.touched = ([["..tmp"]] : List Location) ∧
        journal.made = ([["public"]] : List Location) ∧
        (∃ content, journal.files.at? ["..tmp"] = some (.file content)) ∧
        ¬ StaysIn ⟨["public"]⟩ ".." .siteless (Development.write ⟨["public"]⟩ "..")
          (Development.write ⟨["public"]⟩ "..") := by
  obtain ⟨effective, loaded, options⟩ := EffectiveConfig.load_swName ".." (by decide)
  have name : effective.options.swName = ".." := by rw [options]
  refine ⟨effective, loaded, name, _, _, rfl, rfl, rfl, ⟨_, rfl⟩, ?_⟩
  -- The directory was made on the way, so its path leads to it, and the file is not below.
  rintro ⟨outcome, journal, ran, -, confined⟩
  obtain rfl : _ = journal := congrArg Prod.snd ran
  obtain ⟨top, last, -, place, leads, -⟩ := confined.touched ["..tmp"] List.mem_cons_self
  obtain rfl : [.ofText "public"] = top := Except.ok.inj leads
  exact absurd place (by simp)

end CachePolicy
