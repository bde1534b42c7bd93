import CachePolicy.Proofs.Files.Replacing
import CachePolicy.Proofs.Policy.Assembly
import CachePolicy.Proofs.Site.Assets
import CachePolicy.Site.Build

/-!
# What a build leaves

A build takes the old worker away, reads the files of the site in several stages, and writes
the new worker.  Only the first and the last of these change anything.  So a build leaves
either the worker that the stages make, and no other change, or no worker at all, unless the
old one cannot be taken away, and then nothing has changed.
-/

namespace CachePolicy

open Files

/-- A plain name is one segment. -/
theorem Path.read_of_isPlainName {name : String} (plain : isPlainName name = true) :
    Path.read name = ⟨[name]⟩ ∧ FileName.ofText name ≠ "" := by
  rw [isPlainName, Bool.and_eq_true, List.all_eq_true] at plain
  obtain ⟨full, plain⟩ := plain
  have unsplit : Text.split (· == '/') name.toList = [name.toList] := by
    apply Text.split_eq_singleton
    intro c member
    have := plain c member
    simp only [Bool.and_eq_true, bne_iff_ne] at this
    exact beq_false_of_ne this.1
  refine ⟨?_, by simpa using full⟩
  simp [Path.read, unsplit]

/-! ## Stages that only read -/

section Tracks

variable {invariant : Journal → Prop}

theorem Site.tracks_pathnames (dir : Path) (routes : Option (List String)) :
    Tracks invariant (Site.pathnames dir routes) (Site.pathnames dir routes) := by
  cases routes with
  | some given => exact .pure _
  | none =>
      refine .bind (.walk dir) fun outcome => ?_
      cases outcome with
      | error reason => exact .pure _
      | ok ways => exact .pure _

theorem WorkerFile.tracks_readCustom (custom : Option Path) :
    Tracks invariant (WorkerFile.readCustom custom) (WorkerFile.readCustom custom) := by
  cases custom with
  | none => exact .pure _
  | some path =>
      refine .bind (.readText path) fun outcome => ?_
      cases outcome with
      | error reason => exact .pure _
      | ok text => exact .pure _

end Tracks

theorem Site.onlyReads_pathnames (dir : Path) (routes : Option (List String)) :
    OnlyReads (Site.pathnames dir routes : StateM Files _) :=
  Tracks.onlyReads fun _ => tracks_pathnames dir routes

theorem WorkerFile.onlyReads_readCustom (custom : Option Path) :
    OnlyReads (WorkerFile.readCustom custom : StateM Files _) :=
  Tracks.onlyReads fun _ => tracks_readCustom custom

/-- The worker's file is replaced once the code of the site is read. -/
theorem WorkerFile.write_apply (program : String) (output : Path) (custom : Option Path)
    (files : Files) :
    (WorkerFile.write program output custom : StateM Files _) files =
      match ((readCustom custom : StateM Files _) files).1 with
      | .error reason => (.error reason, files)
      | .ok custom =>
        match (FileStore.replace output (withCustomCode program custom) : StateM Files _) files with
        | (.ok _, after) => (.ok (withCustomCode program custom), after)
        | (.error reason, after) => (.error (.notWritten output.text reason), after) := by
  have same := onlyReads_readCustom custom files
  rw [WorkerFile.write, mk_bind_apply]
  rcases run : (readCustom custom : StateM Files _) files with ⟨outcome, after⟩
  rw [run] at same
  obtain rfl : after = files := same
  cases outcome with
  | error reason => rfl
  | ok custom =>
      dsimp only
      rw [mk_bind_apply, put, bind_apply, pure_apply]
      rcases (FileStore.replace output (withCustomCode program custom) : StateM Files _) after with
        ⟨_ | _, _⟩ <;> rfl

/-! ## Stages -/

namespace Site

/-- What the stages of a build make of the files of a site. -/
structure Stages (files : Files) (dir : Path) (options : Options)
    (routes : Option (List String)) where
  pathnames : List String
  compilation : Compilation
  assets : AssetManifest
  program : String
  custom : Option String
  pages : ((Site.pathnames dir routes : StateM Files _) files).1 = .ok pathnames
  compiled : options.compile pathnames = .ok compilation
  scanned : ((AssetManifest.scan dir options.globPatterns options.swName
    compilation.ruleSet.precache : StateM Files _) files).1 = .ok assets
  filled : assets.substitute compilation.program = .ok program
  appended : ((WorkerFile.readCustom (options.customServiceWorker.map Path.read) :
    StateM Files _) files).1 = .ok custom

variable {files : Files} {dir : Path} {options : Options} {routes : Option (List String)}

namespace Stages

/-- The text of the worker. -/
def text (stages : Stages files dir options routes) : String :=
  withCustomCode stages.program stages.custom

/-- What is reported of the worker. -/
def report (stages : Stages files dir options routes) : BuildReport where
  output := workerPath dir options.swName
  fingerprint := stages.compilation.fingerprint
  rules := stages.compilation.ruleSet.rules.length
  precached := stages.compilation.ruleSet.precache.entries.length
  hashedAssets := stages.assets.entries.length
  bytes := stages.text.utf8ByteSize
  warnings := stages.compilation.conflicts.map (·.message)

end Stages

/-- The stages can make only one worker. -/
instance : Subsingleton (Stages files dir options routes) where
  allEq first second := by
    obtain ⟨pathnames, compilation, assets, program, custom, pages, compiled, scanned, filled,
      appended⟩ := first
    cases Except.ok.inj (second.pages.symm.trans pages)
    cases Except.ok.inj (second.compiled.symm.trans compiled)
    cases Except.ok.inj (second.scanned.symm.trans scanned)
    cases Except.ok.inj (second.filled.symm.trans filled)
    cases Except.ok.inj (second.appended.symm.trans appended)
    rfl

/-- What a build comes to. -/
inductive BuildEnds (files : Files) (dir : Path) (options : Options)
    (routes : Option (List String)) : Except BuildError BuildReport × Files → Prop where
  | kept {path : String} {reason other : FileError}
      (refused : (FileStore.removeIfThere (workerPath dir options.swName) : StateM Files _) files =
        (.error other, files)) :
      BuildEnds files dir options routes (.error (.staleWorker path reason), files)
  | unmade {cleared : Files} {error : BuildError}
      (removed : (FileStore.removeIfThere (workerPath dir options.swName) : StateM Files _) files =
        (.ok (), cleared))
      (unmade : IsEmpty (Stages cleared dir options routes))
      (moved : ∀ path reason, error ≠ .staleWorker path reason) :
      BuildEnds files dir options routes (.error error, cleared)
  | unwritten {cleared after : Files} {reason : FileError} {path : String}
      (removed : (FileStore.removeIfThere (workerPath dir options.swName) : StateM Files _) files =
        (.ok (), cleared))
      (stages : Stages cleared dir options routes)
      (refused : (FileStore.replace (workerPath dir options.swName) stages.text :
        StateM Files _) cleared = (.error reason, after)) :
      BuildEnds files dir options routes (.error (.workerFile (.notWritten path reason)), after)
  | built {cleared after : Files}
      (removed : (FileStore.removeIfThere (workerPath dir options.swName) : StateM Files _) files =
        (.ok (), cleared))
      (stages : Stages cleared dir options routes)
      (replaced : (FileStore.replace (workerPath dir options.swName) stages.text :
        StateM Files _) cleared = (.ok (), after)) :
      BuildEnds files dir options routes (.ok stages.report, after)

theorem step_bind_apply {ε α β : Type} (cause : ε → BuildError)
    (outcome : StateM Files (Except ε α)) (next : α → ExceptT BuildError (StateM Files) β)
    (files : Files) :
    (step cause outcome >>= next).run files =
      match outcome files with
      | (.ok value, after) => (next value).run after
      | (.error e, after) => (.error (cause e), after) := by
  rw [step, mk_bind_apply, map_apply]
  rcases outcome files with ⟨_ | _, _⟩ <;> rfl

/-- The next step works on the same tree as one that only reads. -/
theorem step_bind_of_onlyReads {ε α β : Type} {outcome : StateM Files (Except ε α)}
    (reads : OnlyReads outcome) (cause : ε → BuildError)
    (next : α → ExceptT BuildError (StateM Files) β) (files : Files) :
    (step cause outcome >>= next).run files =
      match (outcome files).1 with
      | .ok value => (next value).run files
      | .error e => (.error (cause e), files) := by
  have same := reads files
  rw [step_bind_apply]
  rcases run : outcome files with ⟨result, after⟩
  rw [run] at same
  cases result <;> simp only [show after = files from same]

theorem buildEnds (files : Files) (dir : Path) (options : Options)
    (routes : Option (List String)) :
    BuildEnds files dir options routes ((build dir options routes : StateM Files _) files) := by
  have removal := removalEnds files (workerPath dir options.swName)
  rw [build, step_bind_apply]
  rcases removed : (FileStore.removeIfThere (workerPath dir options.swName) : StateM Files _)
    files with ⟨outcome, cleared⟩
  rw [removed] at removal
  cases outcome with
  | error reason =>
      cases removal with
      | refused refused there => exact .kept removed
  | ok =>
      dsimp only
      rw [step_bind_of_onlyReads (onlyReads_pathnames dir routes)]
      cases pages : ((pathnames dir routes : StateM Files _) cleared).1 with
      | error reason =>
          exact .unmade removed ⟨fun stages => nomatch stages.pages.symm.trans pages⟩ nofun
      | ok pathnames =>
          dsimp only
          rw [step_bind_of_onlyReads (.pure _), pure_apply]
          cases compiled : options.compile pathnames with
          | error reason =>
              refine .unmade removed ⟨fun stages => ?_⟩ nofun
              cases Except.ok.inj (stages.pages.symm.trans pages)
              exact nomatch stages.compiled.symm.trans compiled
          | ok compilation =>
              dsimp only
              rw [step_bind_of_onlyReads (AssetManifest.onlyReads_scan _ _ _ _)]
              cases scanned : ((AssetManifest.scan dir options.globPatterns options.swName
                  compilation.ruleSet.precache : StateM Files _) cleared).1 with
              | error reason =>
                  refine .unmade removed ⟨fun stages => ?_⟩ nofun
                  cases Except.ok.inj (stages.pages.symm.trans pages)
                  cases Except.ok.inj (stages.compiled.symm.trans compiled)
                  exact nomatch stages.scanned.symm.trans scanned
              | ok assets =>
                  dsimp only
                  rw [step_bind_of_onlyReads (.pure _), pure_apply]
                  cases filled : assets.substitute compilation.program with
                  | error reason =>
                      refine .unmade removed ⟨fun stages => ?_⟩ nofun
                      cases Except.ok.inj (stages.pages.symm.trans pages)
                      cases Except.ok.inj (stages.compiled.symm.trans compiled)
                      cases Except.ok.inj (stages.scanned.symm.trans scanned)
                      exact nomatch stages.filled.symm.trans filled
                  | ok program =>
                      dsimp only
                      rw [step_bind_apply, WorkerFile.write_apply]
                      cases appended : ((WorkerFile.readCustom
                          (options.customServiceWorker.map Path.read) : StateM Files _) cleared).1
                        with
                      | error reason =>
                          exact .unmade removed
                            ⟨fun stages => nomatch stages.appended.symm.trans appended⟩ nofun
                      | ok custom =>
                          let stages : Stages cleared dir options routes :=
                            ⟨pathnames, compilation, assets, program, custom, pages, compiled,
                              scanned, filled, appended⟩
                          dsimp only
                          rcases replaced : (FileStore.replace (workerPath dir options.swName)
                              (withCustomCode program custom) : StateM Files _) cleared with
                            ⟨outcome, after⟩
                          cases outcome with
                          | error reason => exact .unwritten removed stages replaced
                          | ok => exact .built removed stages replaced

/-! ## What is left -/

variable {after : Files}

theorem workerPath_of_isPlainName {name : String} (plain : isPlainName name = true) (dir : Path) :
    workerPath dir name = dir.join ⟨[name]⟩ := by
  rw [workerPath, (Path.read_of_isPlainName plain).1]

/-- Where the stages succeed, the worker is a file in the directory of the site. -/
theorem Stages.addresses {cleared : Files} (plain : isPlainName options.swName = true)
    (stages : Stages cleared dir options routes)
    (removal : RemovalEnds files (workerPath dir options.swName) (.ok (), cleared)) :
    ∃ top, cleared.Leads dir top ∧ cleared.at? top = some .directory ∧
      cleared.Addresses (workerPath dir options.swName) (top ++ [.ofText options.swName]) := by
  obtain ⟨top, entry, found⟩ := AssetManifest.find_of_scan stages.scanned
  obtain ⟨-, leads, there⟩ := of_find_eq_ok found
  rw [workerPath_of_isPlainName plain] at removal ⊢
  obtain ⟨rfl, addresses⟩ :=
    removal.addresses (Path.read_of_isPlainName plain).2 leads there
  exact ⟨top, leads, there, addresses⟩

/-- How the worker that the stages make is written. -/
theorem Stages.replacementEnds {cleared : Files} (plain : isPlainName options.swName = true)
    (stages : Stages cleared dir options routes)
    (removal : RemovalEnds files (workerPath dir options.swName) (.ok (), cleared)) :
    ∃ place, cleared.Addresses (workerPath dir options.swName) place ∧
      ReplacementEnds cleared (workerPath dir options.swName) place stages.text.toUTF8
        ((FileStore.replace (workerPath dir options.swName) stages.text : StateM Files _)
          cleared) := by
  obtain ⟨top, leads, directory, addresses⟩ := stages.addresses plain removal
  refine ⟨_, addresses, ?_⟩
  have absent := addresses.look_eq_none_iff.mp removal.cleared.unseen
  rw [workerPath_of_isPlainName plain] at addresses ⊢
  exact Files.replacementEnds leads directory addresses (Path.read_of_isPlainName plain).2
    (by rw [absent]; nofun) stages.text

namespace BuildEnds

/-- A build that fails later than at the old worker leaves no worker. -/
theorem of_error {error : BuildError} (plain : isPlainName options.swName = true)
    (ends : BuildEnds files dir options routes (.error error, after))
    (moved : ∀ path reason, error ≠ .staleWorker path reason) :
    Cleared files (workerPath dir options.swName) after := by
  have removal := removalEnds files (workerPath dir options.swName)
  cases ends with
  | kept refused => exact absurd rfl (moved _ _)
  | unmade removed unmade moved =>
      rw [removed] at removal
      exact removal.cleared
  | unwritten removed stages refused =>
      rw [removed] at removal
      obtain ⟨place, addresses, replacement⟩ := stages.replacementEnds plain removal
      rw [refused] at replacement
      cases replacement with
      | refused unwritten => exact removal.cleared

/-- A build that fails at the old worker has changed nothing. -/
theorem of_stale {path : String} {reason : FileError}
    (ends : BuildEnds files dir options routes (.error (.staleWorker path reason), after)) :
    after = files ∧ ∃ other,
      (FileStore.removeIfThere (workerPath dir options.swName) : StateM Files _) files =
        (.error other, files) := by
  cases ends with
  | kept refused => exact ⟨rfl, _, refused⟩
  | unmade removed unmade moved => exact absurd rfl (moved _ _)

/-- Where the old worker can be taken away and a stage fails, the build leaves the tree without the
old worker. -/
theorem of_isEmpty {result : Except BuildError BuildReport × Files} {cleared : Files}
    (ends : BuildEnds files dir options routes result)
    (removed : (FileStore.removeIfThere (workerPath dir options.swName) : StateM Files _) files =
      (.ok (), cleared))
    (unmade : IsEmpty (Stages cleared dir options routes)) :
    ∃ error, result = (.error error, cleared) ∧
      ∀ path reason, error ≠ .staleWorker path reason := by
  cases ends with
  | kept refused => cases removed.symm.trans refused
  | unmade same unmade moved =>
      cases removed.symm.trans same
      exact ⟨_, rfl, moved⟩
  | unwritten same stages refused =>
      cases removed.symm.trans same
      exact (unmade.false stages).elim
  | built same stages replaced =>
      cases removed.symm.trans same
      exact (unmade.false stages).elim

/-- Where the old worker can be taken away, every stage succeeds and the temporary file can be
written, the build succeeds. -/
theorem of_stages {result : Except BuildError BuildReport × Files} {cleared written : Files}
    (plain : isPlainName options.swName = true)
    (ends : BuildEnds files dir options routes result)
    (removed : (FileStore.removeIfThere (workerPath dir options.swName) : StateM Files _) files =
      (.ok (), cleared))
    (stages : Stages cleared dir options routes)
    (writes : cleared.write (FileStore.temporary (workerPath dir options.swName))
      stages.text.toUTF8 = .ok written) : result.1 = .ok stages.report := by
  have removal := removalEnds files (workerPath dir options.swName)
  rw [removed] at removal
  cases ends with
  | kept refused => cases removed.symm.trans refused
  | unmade same unmade moved =>
      cases removed.symm.trans same
      exact (unmade.false stages).elim
  | built same others replaced =>
      cases removed.symm.trans same
      cases Subsingleton.elim stages others
      rfl
  | unwritten same others refused =>
      cases removed.symm.trans same
      cases Subsingleton.elim stages others
      obtain ⟨place, addresses, replacement⟩ := stages.replacementEnds plain removal
      rw [refused] at replacement
      cases replacement with
      | refused unwritten => exact absurd writes (unwritten _)

end BuildEnds

end Site

end CachePolicy
