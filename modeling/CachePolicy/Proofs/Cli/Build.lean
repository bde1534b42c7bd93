import CachePolicy.Cli.Run
import CachePolicy.Proofs.Site.Confinement

/-!
# Skipped builds

A command that builds the worker of a site reads its configuration first, then the list of the
pages if a file is named for it, and begins the build after that.  A build takes the old worker
away before anything else, so that a build that is skipped leaves no worker.  But where the list of
the pages cannot be read there is no build, and an old worker stays.
-/

namespace CachePolicy

open Files

/-! ## What is read before a build -/

section Tracks

variable {invariant : Journal → Prop}

theorem EffectiveConfig.tracks_readLayer (path : Path) :
    Tracks invariant (EffectiveConfig.readLayer path) (EffectiveConfig.readLayer path) := by
  refine .bind (.look path) fun found => ?_
  cases found with
  | none => exact .pure _
  | some kind =>
      refine .bind (.read path) fun outcome => ?_
      cases outcome with
      | error reason => exact .pure _
      | ok content => exact .pure _

theorem EffectiveConfig.tracks_load (path : Option Path) (overrides : Option Json) :
    Tracks invariant (EffectiveConfig.load path overrides)
      (EffectiveConfig.load path overrides) := by
  cases path with
  | none => exact .bind (.pure _) fun _ => .pure _
  | some path => exact .bind (tracks_readLayer path) fun _ => .pure _

theorem Routes.tracks_load (path : Path) :
    Tracks invariant (Routes.load path) (Routes.load path) := by
  refine .bind (.readText path) fun outcome => ?_
  cases outcome with
  | error reason => exact .pure _
  | ok text => exact .pure _

end Tracks

namespace Cli

namespace Command

section Reading

variable {invariant : Journal → Prop} (command : Command)

theorem tracks_config : Tracks invariant command.config command.config := by
  unfold config
  cases command.path? "config" with
  | none => exact EffectiveConfig.tracks_load _ _
  | some path =>
      refine .bind (.look path) fun found => ?_
      cases found with
      | none => exact .pure _
      | some kind =>
          simp only [Option.isNone_some, Bool.false_eq_true, ↓reduceIte]
          exact EffectiveConfig.tracks_load _ _

theorem tracks_routes : Tracks invariant command.routes command.routes := by
  unfold routes
  cases command.path? "routes" with
  | none => exact .pure _
  | some path => exact .bind (Routes.tracks_load path) fun _ => .pure _

theorem onlyReads_config : OnlyReads (command.config : StateM Files _) :=
  Tracks.onlyReads fun _ => command.tracks_config

theorem onlyReads_routes : OnlyReads (command.routes : StateM Files _) :=
  Tracks.onlyReads fun _ => command.tracks_routes

end Reading

variable {command : Command} {arguments : List String} {files after : Files}
variable {effective : EffectiveConfig} {error : BuildError}

/-- The options of a configuration that a command loads have been checked. -/
theorem checked_of_config
    (loaded : ((command.config : StateM Files _) files).1 = .ok effective) :
    effective.options.Checked := by
  unfold config at loaded
  cases asked : command.path? "config" with
  | none =>
      rw [asked] at loaded
      exact EffectiveConfig.checked_of_load loaded
  | some path =>
      rw [asked] at loaded
      simp only [bind_apply] at loaded
      split at loaded
      · cases loaded
      · exact EffectiveConfig.checked_of_load loaded

/-- A command has the options that are required of it. -/
theorem required_of_readOptions {verb : Verb} (made : readOptions verb arguments = .ok command) :
    command.verb = verb ∧
      ∀ option ∈ verb.ownOptions, option.required = true → command.has option.long = true := by
  simp only [readOptions, bind_eq_ok_iff] at made
  obtain ⟨⟨given, rest⟩, -, complete⟩ := made
  split at complete
  · next whole =>
      cases complete
      rw [Bool.and_eq_true, List.all_eq_true] at whole
      refine ⟨rfl, ?_⟩
      intro option own required
      have present := whole.2 option (List.mem_append_right _ own)
      rw [required] at present
      exact present
  · cases complete

theorem exists_readOptions_of_read (made : Command.read arguments = .ok command) :
    ∃ verb rest, readOptions verb rest = .ok command := by
  simp only [Command.read, bind_eq_ok_iff] at made
  obtain ⟨⟨given, rest⟩, -, named⟩ := made
  cases rest with
  | nil => cases named
  | cons name rest =>
      dsimp only at named
      cases known : Verb.named? name with
      | some verb =>
          rw [known] at named
          exact ⟨verb, rest, named⟩
      | none =>
          rw [known] at named
          dsimp only at named
          split at named
          · cases named
          · cases named

/-- A command to build a site names its directory. -/
theorem exists_outDir_of_read (made : Command.read arguments = .ok command)
    (builds : command.verb = .build) : ∃ dir, command.path? "out-dir" = some dir := by
  obtain ⟨verb, rest, options⟩ := exists_readOptions_of_read made
  obtain ⟨rfl, required⟩ := required_of_readOptions options
  rw [builds] at required
  have asked : command.has "out-dir" = true := required _ List.mem_cons_self rfl
  obtain ⟨value, named⟩ := Option.isSome_iff_exists.mp asked
  exact ⟨Path.read value, by rw [path?, named, Option.map_some]⟩

/-- The site is built once the configuration and the pages are known. -/
theorem buildSite_apply (command : Command) (files : Files) :
    (command.buildSite : StateM Files _) files =
      match ((command.config : StateM Files _) files).1 with
      | .error reason => (.error (.config reason), files)
      | .ok effective =>
        match ((command.routes : StateM Files _) files).1 with
        | .error reason => (.error (.routes reason), files)
        | .ok routes =>
          (Site.build ((command.path? "out-dir").getD default) effective.options routes :
            StateM Files _) files := by
  rw [buildSite, Site.step_bind_of_onlyReads command.onlyReads_config]
  cases ((command.config : StateM Files _) files).1 with
  | error reason => rfl
  | ok effective =>
      dsimp only
      rw [Site.step_bind_of_onlyReads command.onlyReads_routes]
      cases ((command.routes : StateM Files _) files).1 with
      | error reason => rfl
      | ok routes => rfl

/-- The program leaves what the build leaves, and a build that is skipped is a failure only of a
command that is to be strict. -/
theorem run_of_skipped (made : Command.read arguments = .ok command)
    (builds : command.verb = .build)
    (skipped : (command.buildSite : StateM Files _) files = (.error error, after))
    (time : String) :
    (Cli.run arguments time : StateM Files _) files =
      (⟨if command.has "strict" then 1 else 0, "", ""⟩, after) := by
  rw [Cli.run, made]
  simp only [run, builds]
  rw [runBuild, bind_apply, skipped]
  rfl

/-! ## What is left -/

/-- What is left where a build is skipped; `output` is the file of the worker. -/
inductive SkipEnds (command : Command) (output : Path) (files : Files) :
    BuildError → Files → Prop where
  /-- The list of the pages cannot be read, and the old worker has not been looked at. -/
  | unlisted {reason : RouteError}
      (unlisted : ((command.routes : StateM Files _) files).1 = .error reason) :
      SkipEnds command output files (.routes reason) files
  /-- The old worker cannot be taken away. -/
  | kept {routes : Option (List String)} {path : String} {reason : FileError}
      (listed : ((command.routes : StateM Files _) files).1 = .ok routes) :
      SkipEnds command output files (.staleWorker path reason) files
  | cleared {routes : Option (List String)} {error : BuildError} {after : Files}
      (listed : ((command.routes : StateM Files _) files).1 = .ok routes)
      (moved : ∀ path reason, error ≠ .staleWorker path reason)
      (cleared : Cleared files output after) : SkipEnds command output files error after

theorem skipEnds {dir : Path} (asked : command.path? "out-dir" = some dir)
    (loaded : ((command.config : StateM Files _) files).1 = .ok effective)
    (skipped : (command.buildSite : StateM Files _) files = (.error error, after)) :
    SkipEnds command (Site.workerPath dir effective.options.swName) files error after := by
  have plain := (checked_of_config loaded).swName
  rw [buildSite_apply, loaded, asked] at skipped
  cases listed : ((command.routes : StateM Files _) files).1 with
  | error reason =>
      rw [listed] at skipped
      cases skipped
      exact .unlisted listed
  | ok routes =>
      rw [listed] at skipped
      have ends := Site.buildEnds files dir effective.options routes
      have built : (Site.build dir effective.options routes : StateM Files _) files =
        (.error error, after) := skipped
      rw [built] at ends
      by_cases stale : ∃ path reason, error = .staleWorker path reason
      · obtain ⟨path, reason, rfl⟩ := stale
        obtain ⟨rfl, -⟩ := ends.of_stale
        exact .kept listed
      · have moved : ∀ path reason, error ≠ .staleWorker path reason :=
          fun path reason same => stale ⟨path, reason, same⟩
        exact .cleared listed moved (ends.of_error plain moved)

/-- A build that is skipped, though not because of the old worker, leaves no worker just when the
list of the pages could be read, unless there was no worker before.  If the list cannot be read,
nothing has changed, so that an old worker stays.  Whatever it is skipped for, a build changes
nothing besides the file of the worker, prints nothing, and fails only where it is to be strict. -/
theorem no_worker_iff_of_skipped (made : Command.read arguments = .ok command)
    (builds : command.verb = .build)
    (loaded : ((command.config : StateM Files _) files).1 = .ok effective)
    (skipped : (command.buildSite : StateM Files _) files = (.error error, after))
    (time : String) :
    ∃ dir, command.path? "out-dir" = some dir ∧
      let output := Site.workerPath dir effective.options.swName
      let listing := ((command.routes : StateM Files _) files).1
      (Cli.run arguments time : StateM Files _) files =
          (⟨if command.has "strict" then 1 else 0, "", ""⟩, after) ∧
        SameBut files after [output] ∧
        ((∀ path reason, error ≠ .staleWorker path reason) →
          (after.look output = none ↔
            (∃ routes, listing = .ok routes) ∨ files.look output = none)) ∧
        (∀ reason, listing = .error reason → error = .routes reason ∧ after = files) ∧
        (∀ path reason, error = .staleWorker path reason → after = files) := by
  obtain ⟨dir, asked⟩ := exists_outDir_of_read made builds
  refine ⟨dir, asked, run_of_skipped made builds skipped time, ?_⟩
  have unchanged : SameBut files files [Site.workerPath dir effective.options.swName] :=
    ⟨rfl, fun _ _ => rfl⟩
  cases skipEnds asked loaded skipped with
  | unlisted unlisted =>
      rw [unlisted]
      refine ⟨unchanged, ?_, ?_, nofun⟩
      · intro moved
        simp
      · intro reason same
        cases same
        exact ⟨rfl, rfl⟩
  | kept listed =>
      rw [listed]
      exact ⟨unchanged, fun moved => absurd rfl (moved _ _), nofun, fun _ _ _ => rfl⟩
  | cleared listed moved cleared =>
      rw [listed]
      refine ⟨cleared.others, ?_, nofun, fun path reason same => absurd same (moved path reason)⟩
      intro _
      exact iff_of_true cleared.unseen (.inl ⟨_, rfl⟩)

end Command

end Cli

/-! ## A site with an old worker -/

/-- A site with nothing but an old worker. -/
def Files.oldWorker : Files where
  entries := SortedMap.empty.insertAll [(["dist"], .directory),
    (["dist", "service-worker.js"], .file "old".toUTF8)]
  working := []

namespace Cli.Command

/-- The code to append to the worker is missing, so that the build is skipped, and the old worker is
gone. -/
theorem no_worker_iff_of_skipped_missingCode :
    let arguments := ["build", "--out-dir", "dist", "--custom-worker", "code.js"]
    let output := Site.workerPath ⟨["dist"]⟩ "service-worker.js"
    ∃ command effective error after, Command.read arguments = .ok command ∧
      command.verb = .build ∧
      ((command.config : StateM Files _) .oldWorker).1 = .ok effective ∧
      (command.buildSite : StateM Files _) .oldWorker = (.error error, after) ∧
      Files.oldWorker.look output = some .file ∧
      (Cli.run arguments "" : StateM Files _) .oldWorker = (⟨0, "", ""⟩, after) ∧
      after.look output = none := by
  intro arguments output
  let command : Command := ⟨.build, [("out-dir", "dist"), ("custom-worker", "code.js")]⟩
  have made : Command.read arguments = .ok command := rfl
  obtain ⟨effective, loaded, options⟩ : ∃ effective,
      ((command.config : StateM Files _) .oldWorker).1 = .ok effective ∧
        effective.options = { customServiceWorker := some "code.js" } := ⟨_, rfl, rfl⟩
  have removed : (FileStore.removeIfThere (Site.workerPath ⟨["dist"]⟩ effective.options.swName) :
      StateM Files _) .oldWorker =
        (.ok (), Files.oldWorker.erase ["dist", "service-worker.js"]) := by
    rw [options, FileStore.removeIfThere, bind_apply, remove_apply]
    rfl
  have missing : ((WorkerFile.readCustom (effective.options.customServiceWorker.map Path.read) :
      StateM Files _) (Files.oldWorker.erase ["dist", "service-worker.js"])).1 =
        .error (.unreadableCustom "code.js" .notFound) := by
    rw [options]
    rfl
  have unmade : IsEmpty (Site.Stages (Files.oldWorker.erase ["dist", "service-worker.js"])
      ⟨["dist"]⟩ effective.options none) := by
    constructor
    intro stages
    cases missing.symm.trans stages.appended
  have ends := Site.buildEnds .oldWorker ⟨["dist"]⟩ effective.options none
  obtain ⟨error, fails, moved⟩ := ends.of_isEmpty removed unmade
  have skipped : (command.buildSite : StateM Files _) .oldWorker =
      (.error error, Files.oldWorker.erase ["dist", "service-worker.js"]) := by
    rw [buildSite_apply, loaded]
    exact fails
  obtain ⟨dir, asked, ran, -, absent, -⟩ :=
    no_worker_iff_of_skipped made rfl loaded skipped ""
  cases asked
  rw [options] at absent
  exact ⟨command, effective, error, _, made, rfl, loaded, skipped, by decide, ran,
    (absent moved).mpr (.inl ⟨none, rfl⟩)⟩

/-- The list of the pages is missing, so that there is no build, and the old worker stays. -/
theorem oldWorker_stays_unlisted :
    let arguments := ["build", "--out-dir", "dist", "--routes", "routes.json"]
    ∃ command effective, Command.read arguments = .ok command ∧ command.verb = .build ∧
      ((command.config : StateM Files _) .oldWorker).1 = .ok effective ∧
      (command.buildSite : StateM Files _) .oldWorker =
        (.error (.routes (.unreadable "routes.json" .notFound)), .oldWorker) ∧
      (Cli.run arguments "" : StateM Files _) .oldWorker = (⟨0, "", ""⟩, .oldWorker) ∧
      Files.oldWorker.look (Site.workerPath ⟨["dist"]⟩ effective.options.swName) = some .file :=
  ⟨⟨.build, [("out-dir", "dist"), ("routes", "routes.json")]⟩, _, rfl, rfl, rfl, rfl, rfl, rfl⟩

end Cli.Command

end CachePolicy
