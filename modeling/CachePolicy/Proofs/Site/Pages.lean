import CachePolicy.Proofs.Data.SortedMap
import CachePolicy.Proofs.Files.Confinement
import CachePolicy.Proofs.Site.Assets
import CachePolicy.Site.Routes
import Mathlib.Data.List.Infix

/-!
# The pages that are found

A page is found by the path of its file from the top of the site.  The path, as it is shown, says
which pathname the page has, and a pathname leads back to one path, so long as no file has the
extension as its whole name.  It leads back to one file if all names are text: files with other
names may be shown alike.

The pathnames of all pages are listed in order, each of them once.  Nothing but the files that are
there decides the list.
-/

namespace CachePolicy

open Files AssetManifest

namespace Routes

/-! ## Texts in order -/

theorem get?_insertAll_unit (texts : List String) (text : String) :
    ((SortedMap.empty : SortedMap String Unit).insertAll (texts.map (·, ()))).get? text =
      if text ∈ texts then some () else none := by
  have grows : ∀ map : SortedMap String Unit, (map.insertAll (texts.map (·, ()))).get? text =
      if text ∈ texts then some () else map.get? text := by
    induction texts with
    | nil => simp
    | cons first rest ih =>
        intro map
        rw [List.map_cons, SortedMap.insertAll_cons, ih, SortedMap.get?_insert]
        by_cases same : text = first
        · simp [same]
        · simp [same]
  rw [grows, SortedMap.get?_empty]

@[simp] theorem mem_ordered {texts : List String} {text : String} :
    text ∈ ordered texts ↔ text ∈ texts := by
  rw [ordered, SortedMap.mem_keys_iff, SortedMap.contains, get?_insertAll_unit]
  split
  · next listed => simp [listed]
  · next absent => simp [absent]

theorem pairwise_ordered (texts : List String) : (ordered texts).Pairwise (· < ·) :=
  SortedMap.pairwise_keys _

/-- Only which texts are given decides their list. -/
theorem ordered_congr {texts others : List String} (same : ∀ text, text ∈ texts ↔ text ∈ others) :
    ordered texts = ordered others := by
  have maps : (SortedMap.empty : SortedMap String Unit).insertAll (texts.map (·, ())) =
      SortedMap.empty.insertAll (others.map (·, ())) := by
    refine SortedMap.ext_get? fun text => ?_
    simp only [get?_insertAll_unit, same]
  rw [ordered, ordered, maps]

/-- Texts that differ are all listed. -/
theorem perm_ordered {texts : List String} (nodup : texts.Nodup) : (ordered texts).Perm texts :=
  (List.perm_ext_iff_of_nodup (SortedMap.nodup_keys _) nodup).mpr fun _ => mem_ordered

/-! ## The pathname of a page -/

/-- The pathname of the page at a path from the top of a site, if that is the path of a page: the
directory for an `index.html`, and the path without its extension for any other page. -/
def pathnameOf? (path : String) : Option String :=
  if path = "index.html" then some "/"
  else
    match before? "/index.html".toList path.toList with
    | some dir => some ("/" ++ String.ofList dir ++ "/")
    | none => (before? extension path.toList).map fun page => "/" ++ String.ofList page

theorem before?_eq_some_iff {ending text front : List Char} :
    before? ending text = some front ↔ text = front ++ ending := by
  rw [before?]
  constructor
  · intro found
    split at found
    · next ends =>
        cases found
        exact (List.suffix_iff_eq_append.mp (List.isSuffixOf_iff_suffix.mp ends)).symm
    · cases found
  · rintro rfl
    simp

theorem before?_eq_none_iff {ending text : List Char} :
    before? ending text = none ↔ ¬ ending <:+ text := by
  rw [before?]
  split
  · next ends => simpa using List.isSuffixOf_iff_suffix.mp ends
  · next apart => simpa [← List.isSuffixOf_iff_suffix] using apart

/-- What stands before the names of the files in a directory. -/
def inside (dir : List String) : List Char := dir.flatMap fun name => name.toList ++ ['/']

theorem toList_intercalate_concat (dir : List String) (name : String) :
    ("/".intercalate (dir ++ [name])).toList = inside dir ++ name.toList := by
  rw [String.toList_intercalate, List.map_append, List.map_cons, List.map_nil]
  change List.intercalate ['/'] _ = _
  rw [Text.intercalate_append_cons, List.flatMap_nil, List.append_nil, List.flatMap_map]
  rfl

theorem toList_rooted_concat (dir : List String) (page : String) :
    (rooted (dir ++ [page])).toList = '/' :: (inside dir ++ page.toList) := by
  rw [← toList_intercalate_concat, rooted, String.toList_append]
  rfl

theorem eq_slash_of_inside {dir : List String} {front : List Char} {last : Char}
    (same : inside dir = front ++ [last]) : last = '/' := by
  obtain rfl | ⟨above, name, rfl⟩ := List.eq_nil_or_concat' dir
  · cases (List.append_eq_nil_iff.mp same.symm).2
  · rw [inside, List.flatMap_append, List.flatMap_singleton, ← List.append_assoc] at same
    exact (List.cons.inj (List.append_inj' same rfl).2).1.symm

/-- An ending without a slash is one of the last name. -/
theorem suffix_inside_iff {ending name : List Char} {dir : List String} (free : '/' ∉ ending) :
    ending <:+ inside dir ++ name ↔ ending <:+ name := by
  refine ⟨fun ends => ?_, fun ends => ends.trans (List.suffix_append _ _)⟩
  obtain shorter | ⟨front, rfl⟩ := List.suffix_or_suffix_of_suffix ends (List.suffix_append _ name)
  · exact shorter
  · obtain ⟨before, whole⟩ := ends
    rw [← List.append_assoc] at whole
    have fronts := List.append_cancel_right whole
    -- What a longer ending has before the name would end in a slash.
    obtain rfl | ⟨rest, last, rfl⟩ := List.eq_nil_or_concat' front
    · exact List.suffix_rfl
    · rw [← List.append_assoc] at fronts
      cases eq_slash_of_inside fronts.symm
      exact absurd (by simp) free

/-- A slash and a name end a path just when the name is the last one, below the top. -/
theorem suffix_slash_inside_iff {ending name : List Char} {dir : List String} (free : '/' ∉ ending)
    (whole : '/' ∉ name) : '/' :: ending <:+ inside dir ++ name ↔ dir ≠ [] ∧ name = ending := by
  constructor
  · intro ends
    obtain ⟨front, rfl⟩ := (suffix_inside_iff free).mp ((List.suffix_cons _ _).trans ends)
    obtain ⟨before, same⟩ := ends
    rw [← List.append_assoc, List.append_cons] at same
    have fronts := List.append_cancel_right same
    obtain rfl | ⟨rest, last, rfl⟩ := List.eq_nil_or_concat' front
    · rw [List.append_nil] at fronts
      refine ⟨?_, rfl⟩
      rintro rfl
      cases (List.append_eq_nil_iff.mp fronts).2
    · rw [← List.append_assoc] at fronts
      cases (List.cons.inj (List.append_inj' fronts rfl).2).1
      exact absurd (by simp) whole
  · rintro ⟨below, rfl⟩
    obtain rfl | ⟨above, last, rfl⟩ := List.eq_nil_or_concat' dir
    · exact absurd rfl below
    · exact ⟨inside above ++ last.toList, by simp [inside]⟩

theorem ofNames?_concat (dir : List String) (name : String) :
    ofNames? (dir ++ [name]) =
      if name = "index.html" then some (rooted (dir ++ [""]))
      else (before? extension name.toList).map fun page =>
        rooted (dir ++ [String.ofList page]) := by
  rw [ofNames?, List.getLast?_concat, List.dropLast_concat]
  by_cases index : name = "index.html"
  · subst index
    rfl
  · rw [if_neg index]
    split
    · next absent => cases absent
    · next same => exact absurd (Option.some.inj same) index
    · next same =>
        cases same
        rfl

theorem before?_extension_inside (dir : List String) (name : List Char) :
    before? extension (inside dir ++ name) = (before? extension name).map (inside dir ++ ·) := by
  cases found : before? extension name with
  | none =>
      refine before?_eq_none_iff.mpr fun ends => before?_eq_none_iff.mp found ?_
      exact (suffix_inside_iff (by decide)).mp ends
  | some front =>
      rw [Option.map_some, before?_eq_some_iff, before?_eq_some_iff.mp found, List.append_assoc]

theorem concat_eq_index {dir : List String} {name : String}
    (same : "/".intercalate (dir ++ [name]) = "index.html") : dir = [] ∧ name = "index.html" := by
  have path := congrArg String.toList same
  rw [toList_intercalate_concat] at path
  have ends : "index.html".toList <:+ inside dir ++ name.toList := by rw [path]
  have inner := (suffix_inside_iff (by decide)).mp ends
  have outer : name.toList <:+ "index.html".toList := path ▸ List.suffix_append _ _
  have names := outer.eq_of_length_le inner.length_le
  rw [names] at path
  have top : inside dir = [] := List.append_left_eq_self.mp path
  refine ⟨?_, String.toList_inj.mp names⟩
  obtain rfl | ⟨above, last, rfl⟩ := List.eq_nil_or_concat' dir
  · rfl
  · simp [inside] at top

theorem pathnameOf?_index (dir : List String) :
    pathnameOf? ("/".intercalate (dir ++ ["index.html"])) = some (rooted (dir ++ [""])) := by
  rw [pathnameOf?, toList_intercalate_concat]
  split
  · next same =>
      obtain ⟨rfl, -⟩ := concat_eq_index same
      rfl
  · next below =>
      obtain rfl | ⟨above, last, rfl⟩ := List.eq_nil_or_concat' dir
      · exact absurd rfl below
      · have page : before? "/index.html".toList
            (inside (above ++ [last]) ++ "index.html".toList) =
              some (inside above ++ last.toList) :=
          before?_eq_some_iff.mpr (by simp [inside])
        rw [page]
        refine congrArg some (String.toList_inj.mp ?_)
        rw [toList_rooted_concat]
        simp [inside]

theorem pathnameOf?_concat (dir : List String) {name : String} (whole : '/' ∉ name.toList)
    (other : name ≠ "index.html") :
    pathnameOf? ("/".intercalate (dir ++ [name])) =
      (before? extension name.toList).map fun page => rooted (dir ++ [String.ofList page]) := by
  have below : "/".intercalate (dir ++ [name]) ≠ "index.html" := fun same =>
    other (concat_eq_index same).2
  have page : before? "/index.html".toList (inside dir ++ name.toList) = none := by
    refine before?_eq_none_iff.mpr fun ends => other (String.toList_inj.mp ?_)
    exact ((suffix_slash_inside_iff (by decide) whole).mp ends).2
  rw [pathnameOf?, if_neg below, toList_intercalate_concat, page, before?_extension_inside,
    Option.map_map]
  refine congrArg (Option.map · _) (funext fun front => String.toList_inj.mp ?_)
  rw [toList_rooted_concat]
  simp

/-- The pathname that names give a page is that of the path that they are joined to. -/
theorem ofNames?_eq_pathnameOf? {names : List String} (named : NamedWay names) :
    ofNames? names = pathnameOf? ("/".intercalate names) := by
  obtain rfl | ⟨dir, name, rfl⟩ := List.eq_nil_or_concat' names
  · decide
  · rw [ofNames?_concat]
    split
    · next index => rw [index, pathnameOf?_index]
    · next other => rw [pathnameOf?_concat dir (named name (by simp)).2 other]

/-- The paths of pages are those that end in the extension. -/
theorem isSome_pathnameOf?_iff {path : String} :
    (pathnameOf? path).isSome = true ↔ extension <:+ path.toList := by
  rw [pathnameOf?]
  split
  · next index =>
      subst index
      decide
  · split
    · next dir found =>
        rw [before?_eq_some_iff.mp found]
        simpa using List.suffix_append_of_suffix (show extension <:+ "/index.html".toList by decide)
    · rw [Option.isSome_map]
      cases found : before? extension path.toList with
      | none => simpa using before?_eq_none_iff.mp found
      | some front => simp [before?_eq_some_iff.mp found]

example : pathnameOf? "index.html" = some "/" ∧ pathnameOf? "d/index.html" = some "/d/" ∧
    pathnameOf? "p.html" = some "/p" ∧ pathnameOf? "app.js" = none := by decide

/-! ## The file of a pathname -/

/-- The name of the file that is a page. -/
def fileName (page : String) : String := if page = "" then "index.html" else page ++ ".html"

/-- A page has the name of its directory or its own, and its file is named after it. -/
theorem exists_of_ofNames?_concat {dir : List String} {name pathname : String}
    (whole : '/' ∉ name.toList) (other : name ≠ ".html")
    (found : ofNames? (dir ++ [name]) = some pathname) :
    ∃ page, '/' ∉ page.toList ∧ name = fileName page ∧ pathname = rooted (dir ++ [page]) := by
  rw [ofNames?_concat] at found
  split at found
  · next index =>
      subst index
      exact ⟨"", by simp, rfl, (Option.some.inj found).symm⟩
  · obtain ⟨front, ends, rfl⟩ := Option.map_eq_some_iff.mp found
    have chars := before?_eq_some_iff.mp ends
    refine ⟨String.ofList front, ?_, ?_, rfl⟩
    · rw [String.toList_ofList]
      exact fun slash => whole (chars ▸ List.mem_append_left _ slash)
    · have named : String.ofList front ≠ "" := by
        intro none
        apply other
        have empty : front = [] := by simpa using none
        rw [empty, List.nil_append] at chars
        exact String.toList_inj.mp chars
      rw [fileName, if_neg named]
      refine String.toList_inj.mp ?_
      rw [chars, String.toList_append, String.toList_ofList]
      rfl

theorem rooted_inj {first second : List String} (some : first ≠ []) (more : second ≠ [])
    (free : ∀ name ∈ first, '/' ∉ name.toList) (whole : ∀ name ∈ second, '/' ∉ name.toList)
    (same : rooted first = rooted second) : first = second := by
  refine Text.eq_of_intercalate_slash some more free whole (String.toList_inj.mp ?_)
  have texts := congrArg String.toList same
  rw [rooted, rooted, String.toList_append, String.toList_append] at texts
  exact List.append_cancel_left texts

theorem slash_notMem_concat {dir : List String} {name page : String}
    (named : NamedWay (dir ++ [name])) (free : '/' ∉ page.toList) :
    ∀ other ∈ dir ++ [page], '/' ∉ other.toList := by
  intro other listed
  cases List.mem_append.mp listed with
  | inl above => exact (named other (List.mem_append_left _ above)).2
  | inr last => exact List.mem_singleton.mp last ▸ free

/-- Names with the same pathname are the same, but for those that end in the extension alone. -/
theorem ofNames?_injOn {first second : List String} {pathname : String} (named : NamedWay first)
    (other : NamedWay second) (page : first.getLast? ≠ some ".html")
    (page' : second.getLast? ≠ some ".html") (found : ofNames? first = some pathname)
    (found' : ofNames? second = some pathname) : first = second := by
  obtain rfl | ⟨dir, name, rfl⟩ := List.eq_nil_or_concat' first
  · cases found
  obtain rfl | ⟨dir', name', rfl⟩ := List.eq_nil_or_concat' second
  · cases found'
  rw [List.getLast?_concat] at page page'
  obtain ⟨last, free, rfl, rfl⟩ := exists_of_ofNames?_concat (named name (by simp)).2
    (page ∘ congrArg some) found
  obtain ⟨last', free', rfl, same⟩ := exists_of_ofNames?_concat (other name' (by simp)).2
    (page' ∘ congrArg some) found'
  -- Names without separators can be read off the path that they are put together to.
  have ways : dir ++ [last] = dir' ++ [last'] :=
    rooted_inj (by simp) (by simp) (slash_notMem_concat named free)
      (slash_notMem_concat other free') same
  obtain ⟨rfl, lasts⟩ := List.append_inj' ways rfl
  cases lasts
  rfl

/-! ## The pages of files -/

theorem getLast?_shown_ne {way : Location} (page : way.getLast? ≠ some (.ofText ".html")) :
    (FileName.shown way).getLast? ≠ some ".html" := by
  rw [FileName.shown, List.getLast?_map]
  intro last
  obtain ⟨name, ends, shown⟩ := Option.map_eq_some_iff.mp last
  -- The extension is shown of no other name, since it has no replacement in it.
  have whole : .ofText name.text = name := FileName.ofText_text (by rw [shown]; decide)
  rw [ends, ← whole, shown] at page
  exact page rfl

/-- A path ends in the extension just when it is shown so. -/
theorem suffix_nameOf_iff {way : Location} :
    extension <:+ (nameOf way).toList ↔ Utf8.encode extension <:+ Path.bytes ⟨way⟩ :=
  (Path.reads_text ⟨way⟩).suffix_iff (by decide)

/-- The pathname that a file has as a page is the one that its path gives. -/
theorem ofFile?_eq_pathnameOf? {way : Location} (named : ∀ name ∈ way, name.IsProper) :
    ofFile? way = pathnameOf? (nameOf way) :=
  ofNames?_eq_pathnameOf? (namedWay_shown named)

/-- Files with the same pathname are shown alike, but for those with the extension as their
name. -/
theorem shown_eq_of_ofFile?_eq {first second : Location} {pathname : String}
    (named : ∀ name ∈ first, name.IsProper) (other : ∀ name ∈ second, name.IsProper)
    (page : first.getLast? ≠ some (.ofText ".html"))
    (page' : second.getLast? ≠ some (.ofText ".html")) (found : ofFile? first = some pathname)
    (found' : ofFile? second = some pathname) : FileName.shown first = FileName.shown second :=
  ofNames?_injOn (namedWay_shown named) (namedWay_shown other) (getLast?_shown_ne page)
    (getLast?_shown_ne page') found found'

/-- Different pages whose names are text have different pathnames, so nothing is lost when these
are put in order. -/
theorem nodup_filterMap_ofFile? {ways : List Location} (nodup : ways.Nodup)
    (named : ∀ way ∈ ways, ∀ name ∈ way, name.IsProper)
    (pages : ∀ way ∈ ways, way.getLast? ≠ some (.ofText ".html"))
    (written : ∀ way ∈ ways, (ofFile? way).isSome = true → FileName.AllText way) :
    (ways.filterMap ofFile?).Nodup := by
  refine List.pairwise_filterMap.mpr (nodup.imp_of_mem ?_)
  rintro first second listed listed' differs pathname found _ found' rfl
  have alike := shown_eq_of_ofFile?_eq (named first listed) (named second listed')
    (pages first listed) (pages second listed') found found'
  exact differs (FileName.eq_of_shown_eq (written first listed (found ▸ rfl))
    (written second listed' (found' ▸ rfl)) alike)

end Routes

/-! ## Files that are there -/

/-- A file is at a place. -/
def Files.IsFile (files : Files) (place : Location) : Prop :=
  ∃ content, files.at? place = some (.file content)

theorem Files.mem_of_walk {files : Files} {path : Path} {top : Location} {entry : Entry}
    (found : files.find path = .ok (top, entry)) {ways : List Location}
    (walked : files.walk path = .ok ways) {way : Location} (below : way ≠ []) :
    way ∈ ways ↔ files.IsFile (top ++ way) := by
  rw [walk, found] at walked
  cases walked
  have place : top ++ way ≠ [] := fun none => below (List.append_eq_nil_iff.mp none).2
  rw [IsFile, at?_ne_nil files place]
  simp only [← SortedMap.mem_pairs_iff, List.mem_filterMap, Prod.exists, wayTo_eq_some_iff]
  constructor
  · rintro ⟨_, _, listed, ⟨content, rfl⟩, rfl⟩
    exact ⟨content, listed⟩
  · rintro ⟨content, listed⟩
    exact ⟨_, _, listed, ⟨content, rfl⟩, rfl⟩

namespace Routes

variable {files : Files} {dir : Path} {top : Location} {entry : Entry}

/-- The files below a place, in any order and any number of times. -/
def Visits (files : Files) (top : Location) (visited : List Location) : Prop :=
  ∀ way, way ≠ [] → (way ∈ visited ↔ files.IsFile (top ++ way))

/-- What is found is decided by the files that are visited. -/
theorem mem_filterMap_ofFile? {visited : List Location} (visits : Visits files top visited)
    {pathname : String} : pathname ∈ visited.filterMap ofFile? ↔
      ∃ way, files.IsFile (top ++ way) ∧ ofFile? way = some pathname := by
  rw [List.mem_filterMap]
  refine exists_congr fun way => and_congr_left fun page => visits way ?_
  rintro rfl
  cases page

theorem enumerate_eq_of_find (found : files.find dir = .ok (top, entry)) :
    ∃ ways, files.walk dir = .ok ways ∧ Visits files top ways ∧
      (enumerate dir : StateM Files _) files = (.ok (ordered (ways.filterMap ofFile?)), files) := by
  have walked : files.walk dir = .ok (files.entries.pairs.filterMap (wayTo top)) := by
    rw [walk, found]
    rfl
  refine ⟨_, walked, fun way below => mem_of_walk found walked below, ?_⟩
  have run : (FileStore.walk dir : StateM Files _) files =
      (.ok (files.entries.pairs.filterMap (wayTo top)), files) := congrArg (·, files) walked
  rw [enumerate, bind_apply, run]
  rfl

/-- Where the directory cannot be found, the pages are not known. -/
theorem enumerate_of_find_error {reason : FileError} (refused : files.find dir = .error reason) :
    (enumerate dir : StateM Files _) files = (.error (.notWalked dir.text reason), files) := by
  have run : (FileStore.walk dir : StateM Files _) files = (.error reason, files) := by
    have walked : files.walk dir = .error reason := by
      rw [walk, refused]
      rfl
    exact congrArg (·, files) walked
  rw [enumerate, bind_apply, run]
  rfl

/-- The pages of a directory that is there.  Their pathnames are listed in strict order: those of
the files below the directory whose path ends in the extension, whichever way the files are come
by.  Leaving aside files with the extension as their whole name, two files have different pathnames
if their paths are shown differently.  Different paths of names that are text are, so where all
pages have such names each of them is listed for itself. -/
theorem enumerate_exact (named : files.Named) (found : files.find dir = .ok (top, entry)) :
    ∃ pathnames, (enumerate dir : StateM Files _) files = (.ok pathnames, files) ∧
      pathnames.Pairwise (· < ·) ∧
      (∀ pathname, pathname ∈ pathnames ↔ ∃ way, files.IsFile (top ++ way) ∧
        Utf8.encode extension <:+ Path.bytes ⟨way⟩ ∧
        pathnameOf? (nameOf way) = some pathname) ∧
      (∀ visited, Visits files top visited →
        ordered (visited.filterMap ofFile?) = pathnames ∧
        (visited.Nodup → (∀ way ∈ visited, way.getLast? ≠ some (.ofText ".html")) →
          (∀ way ∈ visited, (ofFile? way).isSome = true → FileName.AllText way) →
          pathnames.Perm (visited.filterMap ofFile?))) ∧
      ∀ first second, files.IsFile (top ++ first) → files.IsFile (top ++ second) →
        first.getLast? ≠ some (.ofText ".html") → second.getLast? ≠ some (.ofText ".html") →
        ∀ pathname other, pathnameOf? (nameOf first) = some pathname →
          pathnameOf? (nameOf second) = some other →
          (nameOf first ≠ nameOf second → pathname ≠ other) ∧
          (first ≠ second → FileName.AllText first → FileName.AllText second →
            pathname ≠ other) := by
  obtain ⟨ways, walked, visits, enumerated⟩ := enumerate_eq_of_find found
  have proper {way : Location} (there : files.IsFile (top ++ way)) :
      ∀ name ∈ way, name.IsProper := by
    by_cases below : way = []
    · exact below ▸ nofun
    · exact forall_of_walk named walked way ((visits way below).mpr there)
  refine ⟨_, enumerated, pairwise_ordered _, ?_, ?_, ?_⟩
  · intro pathname
    rw [mem_ordered, mem_filterMap_ofFile? visits]
    refine exists_congr fun way => and_congr_right fun there => ?_
    rw [ofFile?_eq_pathnameOf? (proper there), ← suffix_nameOf_iff, ← isSome_pathnameOf?_iff]
    exact ⟨fun page => ⟨page ▸ rfl, page⟩, And.right⟩
  · intro visited all
    have same : ordered (visited.filterMap ofFile?) = ordered (ways.filterMap ofFile?) :=
      ordered_congr fun _ => by rw [mem_filterMap_ofFile? all, mem_filterMap_ofFile? visits]
    refine ⟨same, fun nodup others written => ?_⟩
    rw [← same]
    refine perm_ordered (nodup_filterMap_ofFile? nodup (fun way listed => ?_) others written)
    by_cases below : way = []
    · exact below ▸ nofun
    · exact proper ((all way below).mp listed)
  · intro first second there there' page page' pathname other path path'
    rw [← ofFile?_eq_pathnameOf? (proper there)] at path
    rw [← ofFile?_eq_pathnameOf? (proper there')] at path'
    have alike : pathname = other → FileName.shown first = FileName.shown second := by
      rintro rfl
      exact shown_eq_of_ofFile?_eq (proper there) (proper there') page page' path path'
    refine ⟨fun differs same => differs ?_, fun differs written written' same => differs ?_⟩
    · rw [nameOf, nameOf, alike same]
    · exact FileName.eq_of_shown_eq written written' (alike same)

end Routes

/-- A site with pages beside directories of the same names, one of which looks like a page. -/
def Files.lookalikes : Files where
  entries := SortedMap.empty.insertAll [(["dist"], .directory),
    (["dist", "index.html"], .file .empty), (["dist", "app.js"], .file .empty),
    (["dist", "docs.html"], .file .empty), (["dist", "docs"], .directory),
    (["dist", "docs", "index.html"], .file .empty),
    (["dist", "p.html"], .directory), (["dist", "p.html", "p.html.html"], .file .empty),
    (["index.html"], .file .empty)]
  working := []

/-- A directory is no page, whatever it is called, and a page is none of the directory beside it. -/
theorem Routes.enumerate_exact_lookalikes :
    Files.lookalikes.Named ∧ Files.lookalikes.find ⟨["dist"]⟩ = .ok (["dist"], .directory) ∧
      ∃ pathnames, (Routes.enumerate ⟨["dist"]⟩ : StateM Files _) .lookalikes =
          (.ok pathnames, .lookalikes) ∧
        pathnames = ["/", "/docs", "/docs/", "/p.html/p.html"] ∧
        pathnames.Pairwise (· < ·) ∧
        ∀ visited, Routes.Visits .lookalikes ["dist"] visited →
          Routes.ordered (visited.filterMap Routes.ofFile?) = pathnames := by
  have named : Files.lookalikes.Named := by decide
  have found : Files.lookalikes.find ⟨["dist"]⟩ = .ok (["dist"], .directory) := rfl
  obtain ⟨pathnames, enumerated, increasing, -, visits, -⟩ := Routes.enumerate_exact named found
  refine ⟨named, found, pathnames, enumerated, ?_, increasing, fun _ all => (visits _ all).1⟩
  have listed : (Routes.enumerate ⟨["dist"]⟩ : StateM Files _) .lookalikes =
      (.ok ["/", "/docs", "/docs/", "/p.html/p.html"], .lookalikes) := rfl
  exact Except.ok.inj (congrArg Prod.fst (enumerated.symm.trans listed))

/-- A site with two pages whose names are not text, and are shown alike. -/
def Files.alike : Files where
  entries := SortedMap.empty.insertAll [(["dist"], .directory),
    ([.ofText "dist", ⟨0xFF :: Utf8.encode Routes.extension⟩], .file .empty),
    ([.ofText "dist", ⟨0xFE :: Utf8.encode Routes.extension⟩], .file .empty)]
  working := []

/-- A path that stays in place a number of times before it comes to a name. -/
def Path.lingering (count : Nat) (name : FileName) : Path :=
  ⟨List.replicate count (.ofText ".") ++ [name]⟩

/-- Staying in place makes a path longer, until it cannot be followed. -/
theorem Files.checkPath_lingering {count : Nat} (long : longestPath < 2 * count)
    {name : FileName} (clean : 0 ∉ name.bytes) :
    checkPath (.lingering count name) = .error .nameTooLong := by
  have written : (Path.lingering count name).bytes =
      (List.replicate count [46, Path.slash]).flatten ++ name.bytes := by
    rw [Path.lingering, Path.bytes, List.map_append, List.map_cons, List.map_nil,
      Text.intercalate_append_cons, List.flatMap_nil, List.append_nil, List.map_replicate,
      List.flatMap_replicate]
    rfl
  have length : (Path.lingering count name).bytes.length = 2 * count + name.bytes.length := by
    simp [written, Nat.mul_comm]
  have unmarked : (Path.lingering count name).bytes.contains 0 = false := by
    simp [written, clean, Path.slash]
  have full : (Path.lingering count name).isEmpty = false := by
    cases count with
    | zero => cases long
    | succ count => rfl
  have tooLong : longestPath < 2 * count + name.bytes.length := by omega
  simp only [checkPath, unmarked, full, length, tooLong, Bool.false_eq_true, if_false, if_true]

/-- Staying in place leads nowhere else. -/
theorem Files.leads_lingering {files : Files} {goal : Location} {name : FileName} (count : Nat)
    (leads : files.Leads ⟨[name]⟩ goal) (directory : files.at? goal = some .directory) :
    files.Leads (.lingering count name) goal := by
  have relative : (Path.lingering count name).isRooted = false := by
    match count with
    | 0 | 1 | _ + 2 => rfl
  have steps : Path.moving (Path.lingering count name).steps =
      Path.moving (Path.steps ⟨[name]⟩) := by
    simp [Path.lingering, Path.steps, Path.moving, List.filter_append]
  rw [Leads, start, relative]
  refine follow_of_moving ?_ directory
  rw [steps]
  exact follow_moving leads

/-- Two pages whose names are not text may be listed as one.  Nothing is listed if the path of the
site, though it leads there, is too long to be followed. -/
theorem Routes.enumerate_alike :
    Files.alike.Named ∧
      (∃ first second : FileName, first ≠ second ∧ Files.alike.IsFile ["dist", first] ∧
        Files.alike.IsFile ["dist", second] ∧ first ≠ ".html" ∧ second ≠ ".html" ∧
        Routes.pathnameOf? (nameOf [first]) = some "/\uFFFD" ∧
        Routes.pathnameOf? (nameOf [second]) = some "/\uFFFD" ∧
        ((Routes.enumerate ⟨["dist"]⟩ : StateM Files _) .alike).1 = .ok ["/\uFFFD"]) ∧
      Files.alike.at? ["dist"] = some .directory ∧
      ∃ path, Files.alike.Leads path ["dist"] ∧
        ((Routes.enumerate path : StateM Files _) .alike).1 =
          .error (.notWalked path.text .nameTooLong) := by
  have leads : Files.alike.Leads ⟨["dist"]⟩ ["dist"] := rfl
  refine ⟨by decide, ⟨⟨0xFF :: Utf8.encode Routes.extension⟩,
    ⟨0xFE :: Utf8.encode Routes.extension⟩, by decide, ⟨_, rfl⟩, ⟨_, rfl⟩, by decide, by decide,
    by decide, by decide, rfl⟩, rfl, .lingering 2050 "dist", leads_lingering _ leads rfl, ?_⟩
  have refused : Files.alike.find (.lingering 2050 "dist") = .error .nameTooLong := by
    rw [find, checkPath_lingering (by decide) (by decide)]
    rfl
  rw [Routes.enumerate_of_find_error refused]

end CachePolicy
