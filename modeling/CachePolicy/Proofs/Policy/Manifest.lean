import CachePolicy.Policy.Plan
import CachePolicy.Proofs.Text.Split
import Mathlib.Data.List.Induction

/-!
# What a policy stores ahead

The manifest of a policy lists the files that the options name and then the pages, each where it
is named first.  Only those are left out that could be the worker: the last segment of their path
has the stem of the worker's name, which is all of the name before its first dot.
-/

namespace CachePolicy

/-! ## Segments and stems -/

/-- A text is the last segment of a URL's path that is not empty.  Slashes stand between the
segments, and the path ends before the first question mark or hash. -/
def LastSegment (url segment : String) : Prop :=
  ∃ before slashes rest, url = before ++ segment ++ slashes ++ rest ∧
    segment ≠ "" ∧ '/' ∉ segment.toList ∧
    (before = "" ∨ ∃ front, before = front ++ "/") ∧ (∀ c ∈ slashes.toList, c = '/') ∧
    (∀ c ∈ (before ++ segment ++ slashes).toList, c ≠ '?' ∧ c ≠ '#') ∧
    ∀ c ∈ rest.toList.head?, c = '?' ∨ c = '#'

/-- A text is all of a name before its first dot, or the whole name if it has none. -/
def StemOf (name stem : String) : Prop :=
  ∃ rest, name = stem ++ rest ∧ '.' ∉ stem.toList ∧ ∀ c ∈ rest.toList.head?, c = '.'

/-- The last segment of a URL has the stem of a file's name. -/
def SharesStem (url name : String) : Prop :=
  ∃ segment stem, LastSegment url segment ∧ StemOf segment stem ∧ StemOf name stem

namespace Text

/-- Separators after a piece cut off nothing but empty pieces. -/
theorem exists_split_append_separators {separator : Char} {piece behind : List Char}
    (free : separator ∉ piece) (separators : ∀ c ∈ behind, c = separator) :
    ∃ empty, split (· == separator) (piece ++ behind) = piece :: empty ∧
      ∀ other ∈ empty, other = [] := by
  have whole : ∀ c ∈ piece, (c == separator) = false := by
    intro c inside
    refine beq_false_of_ne ?_
    rintro rfl
    exact free inside
  cases behind with
  | nil => exact ⟨[], by rw [List.append_nil, split_eq_singleton whole], nofun⟩
  | cons c behind =>
      obtain rfl := separators c List.mem_cons_self
      refine ⟨_, split_append_cons whole (beq_self_eq_true c) behind, ?_⟩
      intro other listed
      apply List.eq_nil_iff_forall_not_mem.mpr
      intro d inside
      obtain rfl := separators d (List.mem_cons_of_mem _ (mem_of_mem_split listed inside))
      exact separator_notMem_of_mem_split listed inside

theorem exists_split_append {separator : Char} {before : List Char}
    (starts : before = [] ∨ ∃ front, before = front ++ [separator]) (rest : List Char) :
    ∃ earlier, split (· == separator) (before ++ rest) =
      earlier ++ split (· == separator) rest := by
  rcases starts with rfl | ⟨front, rfl⟩
  · exact ⟨[], rfl⟩
  · have behindFront : split (· == separator) (front ++ separator :: rest) =
        split (· == separator) front ++ split (· == separator) rest :=
      @split_append (· == separator) separator (beq_self_eq_true separator) front _
    rw [List.append_assoc, List.singleton_append, behindFront]
    exact ⟨_, rfl⟩

/-- The last piece that is not empty ends the text up to separators. -/
theorem find?_reverse_split_eq_some_iff {separator : Char} {text piece : List Char} :
    (split (· == separator) text).reverse.find? (!·.isEmpty) = some piece ↔
      ∃ before behind, text = before ++ piece ++ behind ∧ piece ≠ [] ∧ separator ∉ piece ∧
        (before = [] ∨ ∃ front, before = front ++ [separator]) ∧ ∀ c ∈ behind, c = separator := by
  constructor
  · intro found
    obtain ⟨visible, behind, before, pieces, empty⟩ := List.find?_eq_some_iff_append.mp found
    have whole : split (· == separator) text = before.reverse ++ piece :: behind.reverse := by
      rw [← List.reverse_reverse (split _ text), pieces, List.reverse_append, List.reverse_cons,
        List.append_assoc, List.singleton_append]
    have joined := intercalate_split separator text
    rw [whole, intercalate_append_cons] at joined
    have free : separator ∉ piece := by
      apply separator_notMem_of_mem_split
      rw [whole]
      exact List.mem_append_right _ List.mem_cons_self
    refine ⟨_, _, joined.symm, by simpa using visible, free, ?_, ?_⟩
    · cases before with
      | nil => exact .inl rfl
      | cons last before =>
          refine .inr ⟨before.reverse.flatMap (· ++ [separator]) ++ last, ?_⟩
          rw [List.reverse_cons, List.flatMap_append, List.flatMap_singleton, List.append_assoc]
    · intro c inside
      obtain ⟨other, listed, inside⟩ := List.mem_flatMap.mp inside
      have nothing : other = [] := by simpa using empty other (List.mem_reverse.mp listed)
      rw [nothing, List.mem_singleton] at inside
      exact inside
  · rintro ⟨before, behind, rfl, visible, free, starts, slashes⟩
    obtain ⟨empty, pieces, nothing⟩ := exists_split_append_separators free slashes
    obtain ⟨earlier, all⟩ := exists_split_append starts (piece ++ behind)
    rw [← List.append_assoc, pieces] at all
    refine List.find?_eq_some_iff_append.mpr ⟨by simpa using visible, empty.reverse,
      earlier.reverse, ?_, ?_⟩
    · rw [all, List.reverse_append, List.reverse_cons, List.append_assoc, List.singleton_append]
    · intro other listed
      rw [nothing other (List.mem_reverse.mp listed)]
      rfl

end Text

/-- The last segment of a URL is found. -/
theorem lastSegment?_eq_some_iff {url : String} {chars : List Char} :
    lastSegment? url = some chars ↔ LastSegment url (String.ofList chars) := by
  rw [lastSegment?, Text.find?_reverse_split_eq_some_iff]
  constructor
  · rintro ⟨before, slashes, path, visible, free, starts, only⟩
    obtain ⟨rest, parts⟩ : ∃ rest, Text.cut (fun c => c == '?' || c == '#') url.toList =
        (before ++ chars ++ slashes, rest) := ⟨_, Prod.ext path rfl⟩
    obtain ⟨whole, goes, ends⟩ := Text.cut_eq_iff.mp parts
    refine ⟨.ofList before, .ofList slashes, .ofList rest, ?_, ?_, ?_, ?_, ?_, ?_, ?_⟩
    · rw [← String.toList_inj]
      simpa using whole
    · simpa using visible
    · simpa using free
    · rcases starts with rfl | ⟨front, rfl⟩
      · exact .inl rfl
      · exact .inr ⟨.ofList front, by rw [String.ofList_append]⟩
    · simpa using only
    · simpa using goes
    · simpa using ends
  · rintro ⟨before, slashes, rest, rfl, visible, free, starts, only, goes, ends⟩
    have path : Text.cut (fun c => c == '?' || c == '#')
        (before ++ String.ofList chars ++ slashes ++ rest).toList =
          (before.toList ++ chars ++ slashes.toList, rest.toList) := by
      refine Text.cut_eq_iff.mpr ⟨?_, ?_, ?_⟩
      · simp
      · simpa using goes
      · simpa using ends
    refine ⟨before.toList, slashes.toList, congrArg Prod.fst path, ?_, ?_, ?_, only⟩
    · simpa using visible
    · simpa using free
    · rcases starts with rfl | ⟨front, rfl⟩
      · exact .inl rfl
      · exact .inr ⟨front.toList, String.toList_append⟩

/-- What stands before the first dot of a name is its only stem. -/
theorem stemOf_iff {name stem : String} :
    StemOf name stem ↔ String.ofList (Text.cut (· == '.') name.toList).1 = stem := by
  constructor
  · rintro ⟨rest, rfl, free, ends⟩
    have cut : Text.cut (· == '.') (stem ++ rest).toList = (stem.toList, rest.toList) := by
      refine Text.cut_eq_iff.mpr ⟨String.toList_append, ?_, ?_⟩
      · intro c inside
        refine beq_false_of_ne ?_
        rintro rfl
        exact free inside
      · simpa using ends
    rw [cut, String.ofList_toList]
  · rintro rfl
    obtain ⟨front, back, parts⟩ : ∃ front back, Text.cut (· == '.') name.toList = (front, back) :=
      ⟨_, _, rfl⟩
    obtain ⟨whole, goes, ends⟩ := Text.cut_eq_iff.mp parts
    rw [parts]
    refine ⟨.ofList back, ?_, ?_, ?_⟩
    · rw [← String.toList_inj]
      simpa using whole
    · rw [String.toList_ofList]
      intro inside
      exact absurd (goes '.' inside) (by decide)
    · simpa using ends

/-- A URL names the worker when its last segment has the stem of the worker's name. -/
theorem namesWorker_iff {options : Options} {url : String} :
    namesWorker options.swStem url = true ↔ SharesStem url options.swName := by
  have worker {stem : String} : StemOf options.swName stem ↔ options.swStem = stem := stemOf_iff
  rw [namesWorker]
  constructor
  · intro names
    cases found : lastSegment? url with
    | none => simp [found] at names
    | some chars =>
        simp only [found, beq_iff_eq] at names
        refine ⟨_, _, lastSegment?_eq_some_iff.mp found, stemOf_iff.mpr ?_, worker.mpr rfl⟩
        rw [String.toList_ofList, names]
  · rintro ⟨segment, stem, last, ofSegment, ofName⟩
    rw [← @String.ofList_toList segment] at last
    rw [lastSegment?_eq_some_iff.mpr last, worker.mp ofName]
    exact beq_iff_eq.mpr (stemOf_iff.mp ofSegment)

/-- Every name has a stem. -/
theorem exists_stemOf (name : String) : ∃ stem, StemOf name stem := ⟨_, stemOf_iff.mpr rfl⟩

/-! ## Listing each URL once -/

namespace PrecacheManifest

variable {entries : List PrecacheEntry} {listed : List String} {url : String}

theorem ofList_append_singleton (entries : List PrecacheEntry) (entry : PrecacheEntry) :
    ofList (entries ++ [entry]) = (ofList entries).push entry := by
  rw [ofList, List.foldl_append]
  rfl

/-- The entries of a manifest are among those it is made of. -/
theorem mem_of_mem_ofList {entry : PrecacheEntry} (member : entry ∈ (ofList entries).entries) :
    entry ∈ entries := by
  induction entries using List.reverseRecOn with
  | nil => exact member
  | append_singleton entries last ih =>
      rw [ofList_append_singleton, push] at member
      split at member
      · exact List.mem_append_left _ (ih member)
      · rcases List.mem_append.mp member with earlier | new
        · exact List.mem_append_left _ (ih earlier)
        · exact List.mem_append_right _ new

/-- A manifest has every URL of what it is made of. -/
theorem mem_urls_ofList_iff : url ∈ (ofList entries).urls ↔ url ∈ entries.map (·.url) := by
  induction entries using List.reverseRecOn with
  | nil => rfl
  | append_singleton entries last ih =>
      rw [ofList_append_singleton, urls_push, List.map_append, List.mem_append, ← ih]
      by_cases known : last.url ∈ (ofList entries).urls
      · rw [if_pos known, List.map_singleton, List.mem_singleton]
        exact ⟨.inl, fun known' => known'.elim id fun same => same ▸ known⟩
      · rw [if_neg known, List.mem_append]
        rfl

/-- The manifest of the URLs of a list that are kept. -/
def keeping (keep : String → Bool) (listed : List String) : PrecacheManifest :=
  ofList ((listed.filter keep).map .unversioned)

variable {keep : String → Bool}

theorem mem_urls_keeping_iff :
    url ∈ (keeping keep listed).urls ↔ url ∈ listed ∧ keep url = true := by
  rw [keeping, mem_urls_ofList_iff, List.map_map, ← List.mem_filter]
  exact iff_of_eq (congrArg (url ∈ ·) (List.map_id _))

/-- The last URL of a list is listed last if it is kept and new. -/
theorem urls_keeping_append_singleton (keep : String → Bool) (listed : List String)
    (last : String) :
    (keeping keep (listed ++ [last])).urls =
      if keep last = true ∧ last ∉ (keeping keep listed).urls then
        (keeping keep listed).urls ++ [last]
      else (keeping keep listed).urls := by
  by_cases kept : keep last = true
  · have pushed : (keeping keep (listed ++ [last])).urls =
        if last ∈ (keeping keep listed).urls then (keeping keep listed).urls
        else (keeping keep listed).urls ++ [last] := by
      rw [keeping, List.filter_append, List.filter_cons_of_pos kept, List.filter_nil,
        List.map_append, List.map_singleton, ofList_append_singleton]
      exact urls_push _ _
    rw [pushed]
    by_cases known : last ∈ (keeping keep listed).urls
    · rw [if_pos known, if_neg fun new => new.2 known]
    · rw [if_neg known, if_pos ⟨kept, known⟩]
  · rw [keeping, List.filter_append, List.filter_cons_of_neg kept, List.filter_nil,
      List.append_nil, if_neg fun new => kept new.1]
    rfl

/-- The URLs stand in the order in which the list has them first.  The induction is from the end
of the list, where a URL is behind all that were seen before it. -/
theorem pairwise_urls_keeping :
    (keeping keep listed).urls.Pairwise fun url later =>
      listed.idxOf url < listed.idxOf later := by
  induction listed using List.reverseRecOn with
  | nil => exact .nil
  | append_singleton listed last ih =>
      have earlier : (keeping keep listed).urls.Pairwise fun url later =>
          (listed ++ [last]).idxOf url < (listed ++ [last]).idxOf later := by
        refine ih.imp_of_mem ?_
        intro url later member laterMember less
        rw [List.idxOf_append, if_pos (mem_urls_keeping_iff.mp member).1, List.idxOf_append,
          if_pos (mem_urls_keeping_iff.mp laterMember).1]
        exact less
      rw [urls_keeping_append_singleton]
      split
      · next new =>
        refine List.pairwise_append.mpr ⟨earlier, List.pairwise_singleton _ _, ?_⟩
        intro url member other isLast
        have absent : last ∉ listed := fun inside =>
          new.2 (mem_urls_keeping_iff.mpr ⟨inside, new.1⟩)
        have inside := (mem_urls_keeping_iff.mp member).1
        rw [List.mem_singleton.mp isLast, List.idxOf_append, if_pos inside, List.idxOf_append,
          if_neg absent]
        exact Nat.lt_add_left _ (List.idxOf_lt_length_of_mem inside)
      · exact earlier

end PrecacheManifest

/-- What options and pages store ahead: of the files that the options name and then the pages,
those whose last segment does not have the worker's stem.  Each URL is listed once, in the order
in which they are first named, and without a revision.  So no URL with the worker's own name as
its last segment is listed. -/
theorem Options.precacheManifest_exact (options : Options) (pathnames : List String) :
    let manifest := options.precacheManifest pathnames
    let listed := options.precacheFiles ++ pathnames
    (∀ url, url ∈ manifest.urls ↔ url ∈ listed ∧ ¬SharesStem url options.swName) ∧
    manifest.urls.Pairwise (fun url later => listed.idxOf url < listed.idxOf later) ∧
    manifest.urls.Nodup ∧
    (∀ entry ∈ manifest.entries, entry.revision = none) ∧
    ∀ url ∈ manifest.urls, ¬LastSegment url options.swName := by
  intro manifest listed
  have exact : ∀ url, url ∈ manifest.urls ↔ url ∈ listed ∧ ¬SharesStem url options.swName := by
    intro url
    refine PrecacheManifest.mem_urls_keeping_iff.trans (and_congr_right fun _ => ?_)
    rw [← namesWorker_iff, Bool.not_eq_true', Bool.not_eq_true]
  have ordered : manifest.urls.Pairwise fun url later => listed.idxOf url < listed.idxOf later :=
    PrecacheManifest.pairwise_urls_keeping
  refine ⟨exact, ordered, ?_, ?_, ?_⟩
  · refine ordered.imp ?_
    rintro url later less rfl
    exact Nat.lt_irrefl _ less
  · intro entry member
    obtain ⟨url, -, rfl⟩ := List.mem_map.mp (PrecacheManifest.mem_of_mem_ofList member)
    rfl
  · intro url member last
    obtain ⟨stem, ofName⟩ := exists_stemOf options.swName
    exact ((exact url).mp member).2 ⟨options.swName, stem, last, ofName, ofName⟩

/-- Options that name a copy of the worker under another version, and a file twice. -/
def Options.versioned : Options where
  swName := "sw.v2.js"
  precacheFiles := ["/b", "/static/sw.min.js/?v=1", "/b"]

theorem Options.precacheManifest_exact_versioned :
    (Options.versioned.precacheManifest ["/a", "/b", "/sw", "/"]).urls = ["/b", "/a", "/"] ∧
      SharesStem "/static/sw.min.js/?v=1" "sw.v2.js" ∧ ¬SharesStem "/a" "sw.v2.js" := by
  have urls : (Options.versioned.precacheManifest ["/a", "/b", "/sw", "/"]).urls =
      ["/b", "/a", "/"] := by decide
  have exact := (Options.precacheManifest_exact .versioned ["/a", "/b", "/sw", "/"]).1
  rw [urls] at exact
  refine ⟨urls, ?_, ((exact "/a").mp (by decide)).2⟩
  by_contra apart
  exact absurd ((exact "/static/sw.min.js/?v=1").mpr ⟨by decide, apart⟩) (by decide)

end CachePolicy
