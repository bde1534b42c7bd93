import CachePolicy.Proofs.Files.Restoring
import CachePolicy.Proofs.Site.Precached

/-!
# Building twice

A build takes the old worker away before it looks at the site, so it makes the same of every tree
that differs in the worker only.  What it leaves is such a tree: the site that it has read, and
the new worker.  A second build therefore reads the same site as the first, whatever the worker
is called, and makes the same worker again.
-/

namespace CachePolicy

open Files

namespace Files

variable {files cleared : Files} {path : Path} {place : Location}

/-- Where no file is seen and there is no directory, there is nothing. -/
theorem Addresses.at?_eq_none (addresses : files.Addresses path place)
    (unseen : files.look path ≠ some .file) (free : files.at? place ≠ some .directory) :
    files.at? place = none := by
  cases there : files.at? place with
  | none => rfl
  | some entry =>
      cases entry with
      | directory => exact absurd there free
      | file content =>
          refine absurd ?_ unseen
          rw [look, addresses.find_eq, there]

/-- A removal puts nothing anywhere. -/
theorem RemovalEnds.at?_eq_none (ends : RemovalEnds files path (.ok (), cleared))
    (absent : files.at? place = none) : cleared.at? place = none := by
  cases ends with
  | removed addresses there =>
      rw [at?_erase _ _ _ addresses.ne_nil, absent, ite_self]
  | missing missing => exact absent

end Files

namespace Site

variable {files other cleared after : Files} {dir : Path} {options : Options}
  {routes : Option (List String)} {report : BuildReport}

/-- A build makes the same of two trees that are the same without the worker. -/
theorem build_congr
    (removed : (FileStore.removeIfThere (workerPath dir options.swName) : StateM Files _) files =
      (.ok (), cleared))
    (alike : (FileStore.removeIfThere (workerPath dir options.swName) : StateM Files _) other =
      (.ok (), cleared)) :
    (build dir options routes : StateM Files _) files =
      (build dir options routes : StateM Files _) other := by
  rw [build, step_bind_apply, step_bind_apply, removed, alike]

/-- Without a temporary file at first, a build that succeeds leaves the site that it has read, and
the worker. -/
theorem BuildEnds.eq_insert (plain : isPlainName options.swName = true)
    (vacant : files.look (FileStore.temporary (workerPath dir options.swName)) ≠ some .file)
    (ends : BuildEnds files dir options routes (.ok report, after)) :
    ∃ cleared place,
      (FileStore.removeIfThere (workerPath dir options.swName) : StateM Files _) files =
        (.ok (), cleared) ∧
      cleared.Addresses (workerPath dir options.swName) place ∧ cleared.at? place = none ∧
      ∃ stages : Stages cleared dir options routes, report = stages.report ∧
        after = cleared.insert place (.file stages.text.toUTF8) := by
  cases ends with
  | @built cleared _ removed stages replaced =>
      have removal := removalEnds files (workerPath dir options.swName)
      rw [removed] at removal
      obtain ⟨top, leads, directory, addresses⟩ := stages.addresses plain removal
      have absent := addresses.look_eq_none_iff.mp removal.cleared.unseen
      refine ⟨cleared, _, removed, addresses, absent, stages, rfl, ?_⟩
      obtain ⟨_, -, replacement⟩ := stages.replacementEnds plain removal
      rw [replaced] at replacement
      cases replacement with
      | @replaced spare _ spareAddresses free written =>
          have same := removal.cleared.same
          have spareAbsent : cleared.at? spare = none := by
            apply removal.at?_eq_none
            apply (spareAddresses.of_sameDirectories same.symm).at?_eq_none vacant
            rwa [Ne, ← same.directories]
          rw [workerPath_of_isPlainName plain] at replaced addresses spareAddresses
          rw [replace_of_vacant leads directory (Path.read_of_isPlainName plain).2 addresses absent
            spareAddresses spareAbsent] at replaced
          exact (congrArg Prod.snd replaced).symm

/-- The worker is none of the files that are stored ahead. -/
theorem Stages.url_ne_worker (stages : Stages cleared dir options routes) :
    ∀ entry ∈ stages.assets.entries, entry.url ≠ "/" ++ options.swName := by
  obtain ⟨globs, -, ways, -, read⟩ := AssetManifest.scan_eq_ok_iff.mp stages.scanned
  intro entry member named
  have listed := List.mem_map_of_mem (f := (·.url)) member
  rw [AssetManifest.urls_of_entriesOf read] at listed
  obtain ⟨way, selected, same⟩ := List.mem_map.mp listed
  have chosen := (List.mem_filter.mp selected).2
  simp only [AssetManifest.selects, Bool.and_eq_true, bne_iff_ne] at chosen
  apply chosen.1.1
  have chars := congrArg String.toList (same.trans named)
  rw [AssetManifest.urlOf, String.toList_append, String.toList_append] at chars
  exact String.toList_inj.mp (List.append_cancel_left chars)

end Site

/-- Building again changes nothing.  Where no temporary file is in the way, let a build succeed
whose worker has a plain name.  Then a second build with the same arguments reports the same and
leaves every file as it was.  Both builds have made their pages, their files and their fingerprint
of one tree, in which there is no worker, and the worker is none of the files stored ahead.  The
second build would have made the same of any other worker. -/
theorem rebuild_idempotent {before after : Files} {dir : Path} {options : Options}
    {routes : Option (List String)} {report : BuildReport}
    (plain : isPlainName options.swName = true)
    (vacant : before.look (FileStore.temporary (Site.workerPath dir options.swName)) ≠ some .file)
    (built : (Site.build dir options routes : StateM Files _) before = (.ok report, after)) :
    let output := Site.workerPath dir options.swName
    (Site.build dir options routes : StateM Files _) after = (.ok report, after) ∧
      (∃ cleared, Cleared before output cleared ∧ Cleared after output cleared ∧
        ∃ stages : Site.Stages cleared dir options routes, report = stages.report ∧
          after.read output = .ok stages.text.toUTF8 ∧
          ∀ entry ∈ stages.assets.entries, entry.url ≠ "/" ++ options.swName) ∧
      ∀ content changed, after.write output content = .ok changed →
        (Site.build dir options routes : StateM Files _) changed = (.ok report, after) := by
  intro output
  have ends := Site.buildEnds before dir options routes
  rw [built] at ends
  obtain ⟨cleared, place, removed, addresses, absent, stages, same, rfl⟩ :=
    ends.eq_insert plain vacant
  have free : cleared.at? place ≠ some .directory := by
    rw [absent]
    nofun
  have there : (cleared.insert place (.file stages.text.toUTF8)).Addresses output place :=
    addresses.of_sameDirectories (sameDirectories_insert addresses.ne_nil free)
  -- The new worker is taken away with no trace, and so is any other in its place.
  have restored : (FileStore.removeIfThere output : StateM Files _)
      (cleared.insert place (.file stages.text.toUTF8)) = (.ok (), cleared) := by
    rw [removeIfThere_insert addresses free, erase_eq_self addresses.ne_nil absent]
  have removal := removalEnds before output
  rw [removed] at removal
  have again := removalEnds (cleared.insert place (.file stages.text.toUTF8)) output
  rw [restored] at again
  refine ⟨?_, ⟨cleared, removal.cleared, again.cleared, stages, same, ?_, stages.url_ne_worker⟩, ?_⟩
  · rw [← Site.build_congr removed restored, built]
  · rw [there.read_eq_ok_iff, at?_insert _ _ _ _ addresses.ne_nil, if_pos rfl]
  · intro content changed written
    obtain ⟨goal, targets, worker, rfl⟩ := write_eq_ok_iff.mp written
    cases there.unique targets
    have other : (FileStore.removeIfThere output : StateM Files _)
        ((cleared.insert place (.file stages.text.toUTF8)).insert place (.file content)) =
          (.ok (), cleared) := by
      rw [removeIfThere_insert there worker, erase_insert, erase_eq_self addresses.ne_nil absent]
    rw [← Site.build_congr removed other, built]

/-! ## A worker among pages -/

/-- A site with a page and an old worker that is called like one. -/
def Files.workerAmongPages : Files where
  entries := SortedMap.empty.insertAll [(["dist"], .directory),
    (["dist", "index.html"], .file "<html></html>".toUTF8),
    (["dist", "sw.html"], .file "self;".toUTF8)]
  working := []

/-- Options that find every page, and call the worker like one. -/
def Options.workerPage : Options where
  preset := .disabled
  swName := "sw.html"
  globPatterns := ["*.html"]

/-- The page of this site is found once in two builds, and the worker in neither. -/
theorem rebuild_idempotent_workerPage :
    let output := Site.workerPath ⟨["dist"]⟩ Options.workerPage.swName
    let build := (Site.build ⟨["dist"]⟩ .workerPage none : StateM Files _)
    isPlainName Options.workerPage.swName = true ∧
      Files.workerAmongPages.look (FileStore.temporary output) ≠ some .file ∧
      ∃ report after, report.hashedAssets = 1 ∧ build .workerAmongPages = (.ok report, after) ∧
        build after = (.ok report, after) ∧
        (∃ cleared, Cleared .workerAmongPages output cleared ∧ Cleared after output cleared ∧
          ∃ stages : Site.Stages cleared ⟨["dist"]⟩ .workerPage none, report = stages.report ∧
            after.read output = .ok stages.text.toUTF8 ∧
            ∀ entry ∈ stages.assets.entries, entry.url ≠ "/" ++ Options.workerPage.swName) ∧
        ∀ content changed, after.write output content = .ok changed →
          build changed = (.ok report, after) := by
  intro output build
  have plain : isPlainName Options.workerPage.swName = true := by decide
  have vacant : Files.workerAmongPages.look (FileStore.temporary output) ≠ some .file := by
    decide +kernel
  let cleared := Files.workerAmongPages.erase ["dist", "sw.html"]
  have removed : (FileStore.removeIfThere output : StateM Files _) .workerAmongPages =
      (.ok (), cleared) := by
    have named : output = ⟨["dist", "sw.html"]⟩ := by decide
    rw [named, FileStore.removeIfThere, bind_apply, remove_apply]
    rfl
  have pages : ((Site.pathnames ⟨["dist"]⟩ none : StateM Files _) cleared).1 = .ok ["/"] := rfl
  obtain ⟨ruleSet, planned, explicit⟩ : ∃ ruleSet, Options.workerPage.plan ["/"] = .ok ruleSet ∧
      ruleSet.precache = ⟨[.unversioned "/"]⟩ := ⟨_, rfl, by decide +kernel⟩
  have compiled : Options.workerPage.compile ["/"] =
      .ok (Options.workerPage.compilationOf ruleSet) :=
    Options.compile_eq_ok_iff.mpr ⟨_, planned, rfl⟩
  obtain ⟨page, scanned⟩ : ∃ page, ((AssetManifest.scan ⟨["dist"]⟩ ["*.html"] "sw.html"
      ruleSet.precache : StateM Files _) cleared).1 = .ok ⟨[page]⟩ := by
    have globs : AssetManifest.globs ["*.html"] = .ok [.pages] := rfl
    have walked : cleared.walk ⟨["dist"]⟩ = .ok [["index.html"]] := rfl
    have selected : ([["index.html"]] : List Location).filter (AssetManifest.selects [.pages]
        "sw.html" ⟨[.unversioned "/"]⟩) = ([["index.html"]] : List Location) := by decide +kernel
    obtain ⟨page, read⟩ : ∃ page, ((AssetManifest.entriesOf ⟨["dist"]⟩ [["index.html"]] :
        StateM Files _) cleared).1 = .ok [page] := ⟨_, rfl⟩
    rw [explicit]
    refine ⟨page, AssetManifest.scan_eq_ok_iff.mpr ⟨_, globs, _, walked, ?_⟩⟩
    rw [selected]
    exact read
  obtain ⟨_, _, -, -, filled⟩ :=
    (⟨[page]⟩ : AssetManifest).substitute_eq_ok (Options.holdsPlaceholder_of_compile compiled)
  let stages : Site.Stages cleared ⟨["dist"]⟩ .workerPage none :=
    ⟨["/"], _, ⟨[page]⟩, _, none, pages, compiled, scanned, filled, rfl⟩
  have spare : FileStore.temporary output = ⟨["dist", ".sw.html.tmp"]⟩ := by decide
  have writes : cleared.write (FileStore.temporary output) stages.text.toUTF8 =
      .ok (cleared.insert ["dist", ".sw.html.tmp"] (.file stages.text.toUTF8)) := by
    rw [spare]
    rfl
  have succeeds : (build .workerAmongPages).1 = .ok stages.report :=
    (Site.buildEnds .workerAmongPages ⟨["dist"]⟩ .workerPage none).of_stages plain removed stages
      writes
  have built : build .workerAmongPages = (.ok stages.report, (build .workerAmongPages).2) :=
    Prod.ext succeeds rfl
  exact ⟨plain, vacant, _, _, rfl, built, rebuild_idempotent plain vacant built⟩

end CachePolicy
