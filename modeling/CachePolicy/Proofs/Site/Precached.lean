import CachePolicy.Proofs.Policy.Placeholder
import CachePolicy.Proofs.Site.Build
import CachePolicy.Proofs.Url.Plain
import Mathlib.Data.List.Nodup

/-!
# What is stored ahead once

The files that a build finds and the URLs that the options and the pages name are stored ahead
by two calls.  No URL is listed twice as a text.  A worker, however, knows an entry by the URL
that a browser makes of the text, and two texts may make the same.  At least one of them is then
not plain.
-/

namespace CachePolicy

open Files AssetManifest

/-! ## URLs as texts -/

theorem PrecacheManifest.nodup_urls_ofList (entries : List PrecacheEntry) :
    (PrecacheManifest.ofList entries).urls.Nodup := by
  have grows : ∀ manifest : PrecacheManifest, manifest.urls.Nodup →
      (entries.foldl push manifest).urls.Nodup := by
    induction entries with
    | nil => exact fun _ nodup => nodup
    | cons entry rest ih => exact fun manifest nodup => ih _ (nodup_urls_push nodup entry)
  exact grows .empty (List.nodup_nil)

/-- The removal of a file leaves only places of the tree. -/
theorem Files.mem_keys_of_removal {files cleared : Files} {path : Path} {place : Location}
    (removal : RemovalEnds files path (.ok (), cleared)) (listed : place ∈ cleared.entries.keys) :
    place ∈ files.entries.keys := by
  cases removal with
  | removed addresses there =>
      obtain ⟨pair, kept, rfl⟩ := List.mem_map.mp listed
      exact List.mem_map_of_mem (List.mem_filter.mp kept).1
  | missing missing => exact listed

namespace Site.Stages

variable {files : Files} {dir : Path} {options : Options} {routes : Option (List String)}

/-- All entries that are stored ahead: the files found, and what the options and pages name. -/
def precached (stages : Stages files dir options routes) : List PrecacheEntry :=
  stages.assets.entries ++ stages.compilation.ruleSet.precache.entries

/-- No URL is listed twice as a text. -/
theorem nodup_precached (named : files.Named) (written : files.InText)
    (stages : Stages files dir options routes) : (stages.precached.map (·.url)).Nodup := by
  obtain ⟨globs, -, ways, walked, read⟩ := scan_eq_ok_iff.mp stages.scanned
  obtain ⟨ruleSet, planned, same⟩ := Options.compile_eq_ok_iff.mp stages.compiled
  obtain ⟨rules, -, -, rfl⟩ := Options.plan_eq_ok_iff.mp planned
  have explicit : stages.compilation.ruleSet.precache =
      options.precacheManifest stages.pathnames := by
    rw [← same]
    rfl
  rw [precached, List.map_append, urls_of_entriesOf read, List.nodup_append]
  refine ⟨?_, ?_, ?_⟩
  · refine ((nodup_of_walk walked).filter _).map_on ?_
    intro first member second other same
    have found := (List.mem_filter.mp member).1
    have found' := (List.mem_filter.mp other).1
    exact urlOf_injOn (forall_of_walk named walked _ found) (forall_of_walk named walked _ found')
      (forall_of_walk written walked _ found) (forall_of_walk written walked _ found') same
  · rw [explicit]
    exact PrecacheManifest.nodup_urls_ofList _
  · intro url found other listed same
    subst same
    obtain ⟨way, selected, rfl⟩ := List.mem_map.mp found
    have chosen := (List.mem_filter.mp selected).2
    simp only [selects, Bool.and_eq_true, Bool.not_eq_true'] at chosen
    have absent : urlOf way ∉ stages.compilation.ruleSet.precache.urls := by
      simpa [PrecacheManifest.contains, urlOf] using chosen.2
    exact absent listed

end Site.Stages

/-! ## URLs as a browser knows them -/

/-- Two requests for the same URL. -/
def SameHref (first second : String) : Prop :=
  ∃ one two, Request.get first = .ok one ∧ Request.get second = .ok two ∧ one.href = two.href

/-- Plain texts are the same if they make the same URL. -/
theorem eq_of_sameHref {first second : String} (plain : Url.Plain first)
    (other : Url.Plain second) (same : SameHref first second) : first = second := by
  obtain ⟨one, two, made, made', href⟩ := same
  obtain ⟨_, read, text⟩ := Request.get_of_plain plain
  obtain ⟨_, read', text'⟩ := Request.get_of_plain other
  cases made.symm.trans read
  cases made'.symm.trans read'
  rw [text, text'] at href
  have chars := congrArg String.toList href
  rw [String.toList_append, String.toList_append] at chars
  exact String.toList_inj.mp (List.append_cancel_left chars)

/-- What a build that succeeds stores ahead, where the names of all files are text.  No URL is
listed twice as a text, neither among the files found nor among the URLs that the options and the
pages name, and no file has a URL that is named.  So two entries that are the same URL for a
browser are not both plain. -/
theorem precached_once {before : Files} {dir : Path} {options : Options}
    {routes : Option (List String)} {report : BuildReport} (named : before.Named)
    (written : before.InText)
    (built : ((Site.build dir options routes : StateM Files _) before).1 = .ok report) :
    ∃ cleared, Cleared before (Site.workerPath dir options.swName) cleared ∧
      ∃ stages : Site.Stages cleared dir options routes, report = stages.report ∧
        (stages.precached.map (·.url)).Nodup ∧
        stages.precached.Pairwise fun first second =>
          SameHref first.url second.url → ¬(Url.Plain first.url ∧ Url.Plain second.url) := by
  have ends := Site.buildEnds before dir options routes
  have removal := removalEnds before (Site.workerPath dir options.swName)
  generalize (Site.build dir options routes : StateM Files _) before = result at ends built
  cases ends with
  | built removed stages replaced =>
      cases built
      rw [removed] at removal
      have nodup := stages.nodup_precached
        (fun _ listed => named _ (mem_keys_of_removal removal listed))
        fun _ listed => written _ (mem_keys_of_removal removal listed)
      refine ⟨_, removal.cleared, stages, rfl, nodup, ?_⟩
      refine (List.pairwise_map.mp nodup).imp fun differs same plain => ?_
      exact differs (eq_of_sameHref plain.1 plain.2 same)
  | kept refused => cases built
  | unmade removed unmade moved => cases built
  | unwritten removed stages refused => cases built

/-! ## A page in two spellings -/

/-- A site with two pages. -/
def Files.pages : Files where
  entries := SortedMap.empty.insertAll [(["dist"], .directory),
    (["dist", "index.html"], .file "<html></html>".toUTF8),
    (["dist", "offline.html"], .file "<html></html>".toUTF8)]
  working := []

/-- Options that name a page and find the others. -/
def Options.naming (page : String) : Options where
  preset := .disabled
  globPatterns := ["*.html"]
  precacheFiles := [page]

/-- The glob for pages. -/
def Glob.pages : Glob :=
  ⟨"*.html", [.star, .literal '.', .literal 'h', .literal 't', .literal 'm', .literal 'l']⟩

/-- A build of this site succeeds, whichever page is named. -/
theorem exists_build_naming (page : String) (found : List Location)
    {entries : List PrecacheEntry}
    (planned : (Options.naming page).plan [] = .ok (.library page))
    (selected : ([["index.html"], ["offline.html"]] : List Location).filter
      (selects [.pages] "service-worker.js" (RuleSet.library page).precache) = found)
    (read : ((entriesOf ⟨["dist"]⟩ found : StateM Files _) .pages).1 = .ok entries) :
    ∃ stages : Site.Stages .pages ⟨["dist"]⟩ (.naming page) (some []),
      stages.assets.entries = entries ∧
        stages.compilation.ruleSet.precache = ⟨[.unversioned page]⟩ ∧
        ((Site.build ⟨["dist"]⟩ (.naming page) (some []) : StateM Files _) .pages).1 =
          .ok stages.report := by
  have compiled : (Options.naming page).compile [] =
      .ok ((Options.naming page).compilationOf (.library page)) :=
    Options.compile_eq_ok_iff.mpr ⟨_, planned, rfl⟩
  obtain ⟨before, after, -, -, filled⟩ :=
    (⟨entries⟩ : AssetManifest).substitute_eq_ok (Options.holdsPlaceholder_of_compile compiled)
  have globs : AssetManifest.globs ["*.html"] = .ok [.pages] := rfl
  have walked : Files.pages.walk ⟨["dist"]⟩ = .ok [["index.html"], ["offline.html"]] := rfl
  have scanned : ((scan ⟨["dist"]⟩ ["*.html"] "service-worker.js" (RuleSet.library page).precache :
      StateM Files _) .pages).1 = .ok ⟨entries⟩ := by
    subst selected
    exact scan_eq_ok_iff.mpr ⟨_, globs, _, walked, read⟩
  let stages : Site.Stages .pages ⟨["dist"]⟩ (.naming page) (some []) :=
    ⟨[], _, ⟨entries⟩, _, none, rfl, compiled, scanned, filled, rfl⟩
  have output : Site.workerPath ⟨["dist"]⟩ (Options.naming page).swName =
    ⟨["dist", "service-worker.js"]⟩ := show Site.workerPath ⟨["dist"]⟩ "service-worker.js" = _ by
      decide
  have spare : FileStore.temporary ⟨["dist", "service-worker.js"]⟩ =
    ⟨["dist", ".service-worker.js.tmp"]⟩ := by decide
  have missing : (FileStore.removeIfThere ⟨["dist", "service-worker.js"]⟩ : StateM Files _)
      .pages = (.ok (), .pages) := by
    rw [FileStore.removeIfThere, bind_apply, remove_apply]
    rfl
  have writes : Files.pages.write ⟨["dist", ".service-worker.js.tmp"]⟩ stages.text.toUTF8 =
    .ok (Files.pages.insert ["dist", ".service-worker.js.tmp"] (.file stages.text.toUTF8)) := rfl
  have plain : isPlainName (Options.naming page).swName = true :=
    show isPlainName "service-worker.js" = true by decide
  have ends := Site.buildEnds .pages ⟨["dist"]⟩ (.naming page) (some [])
  rw [← output] at missing spare
  rw [← spare] at writes
  exact ⟨stages, rfl, rfl, ends.of_stages plain missing stages writes⟩

/-- A page that is named as it is found is stored ahead once, beside the other page. -/
theorem precached_once_samePage :
    Files.pages.Named ∧ Files.pages.InText ∧ ∃ report,
      ((Site.build ⟨["dist"]⟩ (.naming "/offline.html") (some []) : StateM Files _) .pages).1 =
        .ok report ∧
      ∃ cleared, Cleared .pages (Site.workerPath ⟨["dist"]⟩ "service-worker.js") cleared ∧
        ∃ stages : Site.Stages cleared ⟨["dist"]⟩ (.naming "/offline.html") (some []),
          report = stages.report ∧ (stages.precached.map (·.url)).Nodup ∧
          stages.precached.Pairwise fun first second =>
            SameHref first.url second.url → ¬(Url.Plain first.url ∧ Url.Plain second.url) := by
  have named : Files.pages.Named := by decide
  have written : Files.pages.InText := by decide
  obtain ⟨stages, -, -, built⟩ := exists_build_naming "/offline.html" [["index.html"]]
    (by decide +kernel) (by decide +kernel) rfl
  exact ⟨named, written, _, built, precached_once named written built⟩

/-- A page that is named without the slash in front is stored ahead twice, once under the
revision that is taken from its content and once under none. -/
theorem page_precached_twice :
    ∃ report,
      ((Site.build ⟨["dist"]⟩ (.naming "offline.html") (some []) : StateM Files _) .pages).1 =
        .ok report ∧
      ∃ stages : Site.Stages .pages ⟨["dist"]⟩ (.naming "offline.html") (some []),
        report = stages.report ∧ ∃ found ∈ stages.assets.entries,
          ∃ named ∈ stages.compilation.ruleSet.precache.entries,
            SameHref found.url named.url ∧ found.revision ≠ named.revision := by
  obtain ⟨stages, found, named, built⟩ := exists_build_naming "offline.html"
    [["index.html"], ["offline.html"]] (by decide +kernel) (by decide +kernel) rfl
  have same : SameHref "/offline.html" "offline.html" := by
    refine ⟨_, ⟨⟨"http", some (.ofHost Request.site), "/offline.html", none, none⟩, "GET", .none⟩,
      rfl, ?_, ?_⟩
    all_goals decide +kernel
  refine ⟨_, built, stages, rfl, ⟨"/offline.html", some (revision "<html></html>".toUTF8)⟩, ?_,
    .unversioned "offline.html", ?_, same, nofun⟩
  · rw [found]
    exact List.mem_cons_of_mem _ List.mem_cons_self
  · rw [named]
    exact List.mem_cons_self

end CachePolicy
