import CachePolicy.Proofs.Files.Journal
import CachePolicy.Proofs.Files.Name
import CachePolicy.Proofs.Text.Split
import CachePolicy.Site.Assets

/-!
# The files that a scan finds

A scan only reads.  It finds each file of the directory that is to be stored ahead, by its way
from there, and reads its content.

The names on a way are joined by slashes as they are shown.  No name has a slash in it, so files
whose names are shown differently have different URLs, and so have files in different places whose
names are text.
-/

namespace CachePolicy.AssetManifest

open Files

section Tracks

variable {invariant : Journal → Prop}

theorem tracks_entriesOf (dir : Path) (ways : List Location) :
    Tracks invariant (entriesOf dir ways) (entriesOf dir ways) := by
  induction ways with
  | nil => exact .pure _
  | cons way rest ih =>
      refine .bind (.read _) fun outcome => ?_
      cases outcome with
      | error reason => exact .pure _
      | ok content => exact .bind ih fun _ => .pure _

theorem tracks_scan (dir : Path) (patterns : List String) (swName : String)
    (explicit : PrecacheManifest) :
    Tracks invariant (AssetManifest.scan dir patterns swName explicit)
      (AssetManifest.scan dir patterns swName explicit) := by
  unfold scan
  cases globs patterns with
  | error reason => exact .pure _
  | ok globs =>
      refine .bind (.walk dir) fun outcome => ?_
      cases outcome with
      | error reason => exact .pure _
      | ok ways => exact .bind (tracks_entriesOf dir _) fun _ => .pure _

end Tracks

theorem onlyReads_scan (dir : Path) (patterns : List String) (swName : String)
    (explicit : PrecacheManifest) :
    OnlyReads (AssetManifest.scan dir patterns swName explicit : StateM Files _) :=
  Tracks.onlyReads fun _ => tracks_scan dir patterns swName explicit

variable {files : Files} {dir : Path} {patterns : List String} {swName : String}
  {explicit : PrecacheManifest} {manifest : AssetManifest}

/-- What is scanned, without the tree that a scan leaves alone. -/
theorem scan_fst : ((scan dir patterns swName explicit : StateM Files _) files).1 =
    match globs patterns with
    | .error reason => .error (.notGlob reason)
    | .ok globs =>
      match files.walk dir with
      | .error reason => .error (.notWalked dir.text reason)
      | .ok ways =>
        ((entriesOf dir (ways.filter (selects globs swName explicit)) :
          StateM Files _) files).1.map (⟨·⟩) := by
  unfold scan
  cases globs patterns with
  | error reason => rfl
  | ok globs =>
      dsimp only
      rw [bind_apply]
      change ((match files.walk dir with
        | .error reason => _
        | .ok ways => _ : StateM Files _) files).1 = _
      cases files.walk dir with
      | error reason => rfl
      | ok ways => rfl

/-- A scan succeeds with the files of the directory that are to be stored ahead. -/
theorem scan_eq_ok_iff :
    ((scan dir patterns swName explicit : StateM Files _) files).1 = .ok manifest ↔
      ∃ globs, AssetManifest.globs patterns = .ok globs ∧
        ∃ ways, files.walk dir = .ok ways ∧
          ((entriesOf dir (ways.filter (selects globs swName explicit)) :
            StateM Files _) files).1 = .ok manifest.entries := by
  rw [scan_fst]
  cases globs patterns with
  | error reason => simp
  | ok globs =>
      cases files.walk dir with
      | error reason => simp
      | ok ways =>
          obtain ⟨entries⟩ := manifest
          simp [map_eq_ok_iff]

/-- A scan that succeeds has found the directory. -/
theorem find_of_scan
    (scanned : ((scan dir patterns swName explicit : StateM Files _) files).1 = .ok manifest) :
    ∃ top entry, files.find dir = .ok (top, entry) := by
  obtain ⟨globs, -, ways, walked, -⟩ := scan_eq_ok_iff.mp scanned
  rw [walk, bind_eq_ok_iff] at walked
  obtain ⟨⟨top, entry⟩, found, -⟩ := walked
  exact ⟨top, entry, found⟩

/-! ## The URLs of files -/

/-- The path of a file, by its way from the directory of the site. -/
def pathOf (dir : Path) (way : Location) : Path := if way.isEmpty then dir else dir.join ⟨way⟩

/-- The URL of a file, by its way from the directory of the site. -/
def urlOf (way : Location) : String := "/" ++ nameOf way

/-- The entry of a file and those of the files after it. -/
theorem entriesOf_cons_fst (way : Location) (rest : List Location) :
    ((entriesOf dir (way :: rest) : StateM Files _) files).1 =
      match files.read (pathOf dir way) with
      | .error reason => .error (.unreadable (pathOf dir way).text reason)
      | .ok content =>
        ((entriesOf dir rest : StateM Files _) files).1.map
          (⟨urlOf way, some (revision content)⟩ :: ·) := by
  rw [entriesOf]
  dsimp only
  rw [bind_apply]
  change ((match files.read (pathOf dir way) with
    | .error reason => _
    | .ok content => _ : StateM Files _) files).1 = _
  cases files.read (pathOf dir way) with
  | error reason => rfl
  | ok content => rfl

theorem urls_of_entriesOf {ways : List Location} {entries : List PrecacheEntry}
    (read : ((entriesOf dir ways : StateM Files _) files).1 = .ok entries) :
    entries.map (·.url) = ways.map urlOf := by
  induction ways generalizing entries with
  | nil =>
      cases read
      rfl
  | cons way rest ih =>
      rw [entriesOf_cons_fst] at read
      cases content : files.read (pathOf dir way) with
      | error reason =>
          rw [content] at read
          cases read
      | ok content' =>
          rw [content] at read
          obtain ⟨others, found, rfl⟩ := map_eq_ok_iff.mp read
          rw [List.map_cons, List.map_cons, ih found]

/-- Names as they are shown of files.  None is empty or has a slash in it, which is all that a disk
asks of a name here: a name may be any row of other bytes, and is shown with U+FFFD for those that
are not text. -/
def NamedWay (names : List String) : Prop := ∀ name ∈ names, name ≠ "" ∧ '/' ∉ name.toList

theorem namedWay_shown {way : Location} (named : ∀ name ∈ way, name.IsProper) :
    NamedWay (FileName.shown way) := by
  intro text listed
  obtain ⟨name, member, rfl⟩ := List.mem_map.mp listed
  exact ⟨(named name member).text_ne_empty, (named name member).slash_notMem⟩

/-- What is joined is empty only where there are no names. -/
theorem eq_nil_of_intercalate_slash {names : List String} (named : NamedWay names)
    (empty : "/".intercalate names = "") : names = [] := by
  cases names with
  | nil => rfl
  | cons name rest =>
      have pieces := Text.split_intercalate_slash (List.cons_ne_nil name rest)
        fun other member => (named other member).2
      rw [empty] at pieces
      have nothing : name.toList = [] := (List.cons.inj pieces).1.symm
      exact absurd (String.toList_eq_nil_iff.mp nothing) (named name List.mem_cons_self).1

/-- Files whose paths are shown alike have names that are shown alike. -/
theorem shown_eq_of_nameOf_eq {first second : Location}
    (named : ∀ name ∈ first, name.IsProper) (other : ∀ name ∈ second, name.IsProper)
    (same : nameOf first = nameOf second) : FileName.shown first = FileName.shown second := by
  rw [nameOf, nameOf] at same
  have named := namedWay_shown named
  have other := namedWay_shown other
  by_cases top : FileName.shown first = []
  · rw [top] at same ⊢
    exact (eq_nil_of_intercalate_slash other same.symm).symm
  · have below : FileName.shown second ≠ [] := by
      intro none
      rw [none] at same
      exact top (eq_nil_of_intercalate_slash named same)
    exact Text.eq_of_intercalate_slash top below (fun name member => (named name member).2)
      (fun name member => (other name member).2) same

/-- Different ways of names that are text have different URLs. -/
theorem urlOf_injOn {first second : Location} (named : ∀ name ∈ first, name.IsProper)
    (other : ∀ name ∈ second, name.IsProper) (written : FileName.AllText first)
    (written' : FileName.AllText second) (same : urlOf first = urlOf second) :
    first = second := by
  have paths : nameOf first = nameOf second := by
    have chars := congrArg String.toList same
    rw [urlOf, urlOf, String.toList_append, String.toList_append] at chars
    exact String.toList_inj.mp (List.append_cancel_left chars)
  exact FileName.eq_of_shown_eq written written' (shown_eq_of_nameOf_eq named other paths)

end CachePolicy.AssetManifest

namespace CachePolicy.Files

open AssetManifest

variable {files : Files} {path : Path} {ways : List Location}

/-- Every name in a tree is one that a disk takes. -/
def Named (files : Files) : Prop := ∀ place ∈ files.entries.keys, ∀ name ∈ place, name.IsProper

instance (files : Files) : Decidable files.Named :=
  inferInstanceAs (Decidable (∀ place ∈ files.entries.keys, ∀ name ∈ place, name.IsProper))

/-- Every name in a tree is that of a text. -/
def InText (files : Files) : Prop := ∀ place ∈ files.entries.keys, FileName.AllText place

instance (files : Files) : Decidable files.InText :=
  inferInstanceAs (Decidable (∀ place ∈ files.entries.keys, FileName.AllText place))

theorem wayTo_eq_some_iff {top place way : Location} {entry : Entry} :
    wayTo top (place, entry) = some way ↔
      (∃ content, entry = .file content) ∧ place = top ++ way := by
  cases entry with
  | directory => simp [wayTo]
  | file content =>
      by_cases below : top.isPrefixOf place = true
      · obtain ⟨rest, rfl⟩ := List.isPrefixOf_iff_prefix.mp below
        simp [wayTo]
      · have apart : place ≠ top ++ way := by
          rintro rfl
          exact below (List.isPrefixOf_iff_prefix.mpr (List.prefix_append _ _))
        simp [wayTo, below, apart]

/-- A walk comes to each file once. -/
theorem nodup_of_walk (walked : files.walk path = .ok ways) : ways.Nodup := by
  rw [walk, bind_eq_ok_iff] at walked
  obtain ⟨⟨top, entry⟩, found, same⟩ := walked
  cases same
  refine files.entries.ordered.filterMap _ ?_
  rintro ⟨place, entry⟩ ⟨other, otherEntry⟩ before way first way' second rfl
  obtain ⟨-, rfl⟩ := wayTo_eq_some_iff.mp first
  obtain ⟨-, rfl⟩ := wayTo_eq_some_iff.mp second
  exact List.lt_irrefl _ before

/-- The names on the ways of a walk are names in the tree. -/
theorem forall_of_walk {holds : FileName → Prop}
    (all : ∀ place ∈ files.entries.keys, ∀ name ∈ place, holds name)
    (walked : files.walk path = .ok ways) : ∀ way ∈ ways, ∀ name ∈ way, holds name := by
  rw [walk, bind_eq_ok_iff] at walked
  obtain ⟨⟨top, entry⟩, found, same⟩ := walked
  cases same
  intro way member
  obtain ⟨⟨place, entry⟩, listed, comes⟩ := List.mem_filterMap.mp member
  obtain ⟨-, rfl⟩ := wayTo_eq_some_iff.mp comes
  intro name inside
  exact all _ (List.mem_map_of_mem listed) name (List.mem_append_right _ inside)

end CachePolicy.Files
