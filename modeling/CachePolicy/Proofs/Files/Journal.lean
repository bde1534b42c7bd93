import CachePolicy.Proofs.Files.Naming
import CachePolicy.Proofs.Files.Operations
import CachePolicy.Proofs.Files.Running

/-!
# Journals

What a program leaves of a tree does not tell everything that it did on the way: a file may be
written and taken away again.  A journal therefore notes each place at which a file is written,
removed or renamed, and each directory that is made, while the program runs on the tree in the
journal.  The journal changes nothing about the run.
-/

namespace CachePolicy

/-- A tree of files and what was done to it so far. -/
structure Journal where
  files : Files
  /-- The places at which files were written or removed, or from and to which they were renamed. -/
  touched : List Location := []
  /-- The places at which directories were made. -/
  made : List Location := []

namespace Journal

/-- The place of what a path names, whether or not it is there. -/
def named (files : Files) (path : Path) : List Location :=
  match files.approach path with
  | .ok (dir, .name name) => [dir ++ [name]]
  | _ => []

/-- Note that files were touched. -/
def touching (paths : List Path) (journal : Journal) : Journal :=
  { journal with touched := journal.touched ++ paths.flatMap (named journal.files) }

/-- Note that a directory was made. -/
def making (path : Path) (journal : Journal) : Journal :=
  { journal with made := journal.made ++ named journal.files path }

/-- Change the tree and note it, or leave both as they are and say why. -/
def record (note : Journal → Journal) (change : Files → Except FileError Files) :
    StateM Journal (Except FileError Unit) :=
  fun journal =>
    match change journal.files with
    | .ok after => (.ok (), { note journal with files := after })
    | .error e => (.error e, journal)

instance : FileStore (StateM Journal) where
  look path := fun journal => (journal.files.look path, journal)
  read path := fun journal => (journal.files.read path, journal)
  write path content := record (touching [path]) (·.write path content)
  remove path := record (touching [path]) (·.remove path)
  rename source target := record (touching [source, target]) (·.rename source target)
  makeDirectory path := record (making path) (·.makeDirectory path)
  walk path := fun journal => (journal.files.walk path, journal)

end Journal

/-! ## Programs with a journal -/

/-- A program runs with a journal as it runs without one, and keeps an invariant of journals. -/
def Tracks {α : Type} (invariant : Journal → Prop) (plain : StateM Files α)
    (noted : StateM Journal α) : Prop :=
  ∀ journal, invariant journal → ∃ value after, noted journal = (value, after) ∧
    plain journal.files = (value, after.files) ∧ invariant after

namespace Tracks

variable {invariant : Journal → Prop} {α β ε : Type}

theorem pure (value : α) : Tracks invariant (Pure.pure value) (Pure.pure value) :=
  fun journal holds => ⟨value, journal, rfl, rfl, holds⟩

theorem map {plain : StateM Files α} {noted : StateM Journal α}
    (tracks : Tracks invariant plain noted) (change : α → β) :
    Tracks invariant (change <$> plain) (change <$> noted) := by
  intro journal holds
  obtain ⟨value, after, run, same, kept⟩ := tracks journal holds
  refine ⟨change value, after, ?_, ?_, kept⟩
  · change (change (noted journal).1, (noted journal).2) = _
    rw [run]
  · rw [Files.map_apply, same]

/-- A program may go on in a way that keeps the invariant only after what it has come to. -/
theorem bind_of {first : StateM Files α} {first' : StateM Journal α}
    {next : α → StateM Files β} {next' : α → StateM Journal β}
    (tracks : Tracks invariant first first')
    (later : ∀ journal value, invariant journal → (first journal.files).1 = value →
      Tracks invariant (next value) (next' value)) :
    Tracks invariant (first >>= next) (first' >>= next') := by
  intro journal holds
  obtain ⟨value, between, run, same, kept⟩ := tracks journal holds
  obtain ⟨result, after, run', same', kept'⟩ :=
    later journal value holds (by rw [same]) between kept
  refine ⟨result, after, ?_, ?_, kept'⟩
  · change next' (first' journal).1 (first' journal).2 = _
    rw [run, run']
  · rw [Files.bind_apply, same, same']

theorem bind {first : StateM Files α} {first' : StateM Journal α}
    {next : α → StateM Files β} {next' : α → StateM Journal β}
    (tracks : Tracks invariant first first')
    (later : ∀ value, Tracks invariant (next value) (next' value)) :
    Tracks invariant (first >>= next) (first' >>= next') :=
  tracks.bind_of fun _ value _ _ => later value

/-- A program that stops at the first error goes on only after a success. -/
theorem mk_bind_of {first : StateM Files (Except ε α)} {first' : StateM Journal (Except ε α)}
    {next : α → ExceptT ε (StateM Files) β} {next' : α → ExceptT ε (StateM Journal) β}
    (tracks : Tracks invariant first first')
    (later : ∀ journal value, invariant journal → (first journal.files).1 = .ok value →
      Tracks invariant (next value).run (next' value).run) :
    Tracks invariant (ExceptT.mk first >>= next).run (ExceptT.mk first' >>= next').run := by
  rw [ExceptT.run_bind, ExceptT.run_bind, ExceptT.run_mk, ExceptT.run_mk]
  refine tracks.bind_of fun journal outcome holds ran => ?_
  cases outcome with
  | error reason => exact .pure _
  | ok value => exact later journal value holds ran

theorem mk_bind {first : StateM Files (Except ε α)} {first' : StateM Journal (Except ε α)}
    {next : α → ExceptT ε (StateM Files) β} {next' : α → ExceptT ε (StateM Journal) β}
    (tracks : Tracks invariant first first')
    (later : ∀ value, Tracks invariant (next value).run (next' value).run) :
    Tracks invariant (ExceptT.mk first >>= next).run (ExceptT.mk first' >>= next').run :=
  tracks.mk_bind_of fun _ value _ _ => later value

/-- A program that leaves every journal as it is leaves every tree as it is. -/
theorem onlyReads {plain : StateM Files α} {noted : StateM Journal α}
    (tracks : ∀ start, Tracks (· = start) plain noted) : Files.OnlyReads plain := by
  intro files
  obtain ⟨value, after, -, same, unchanged⟩ := tracks { files } { files } rfl
  rw [same, unchanged]

/-! ## Operations -/

theorem record {note : Journal → Journal} {change : Files → Except FileError Files}
    (kept : ∀ journal after, invariant journal → change journal.files = .ok after →
      invariant { note journal with files := after }) :
    Tracks invariant (Files.attempt change) (Journal.record note change) := by
  intro journal holds
  cases changed : change journal.files with
  | ok after =>
      refine ⟨.ok (), { note journal with files := after }, ?_, ?_, ?_⟩
      · simp only [Journal.record, changed]
      · simp only [Files.attempt, changed]
      · exact kept journal after holds changed
  | error reason =>
      refine ⟨.error reason, journal, ?_, ?_, holds⟩
      · simp only [Journal.record, changed]
      · simp only [Files.attempt, changed]

theorem look (path : Path) : Tracks invariant (FileStore.look path) (FileStore.look path) :=
  fun journal holds => ⟨_, journal, rfl, rfl, holds⟩

theorem read (path : Path) : Tracks invariant (FileStore.read path) (FileStore.read path) :=
  fun journal holds => ⟨_, journal, rfl, rfl, holds⟩

theorem walk (path : Path) : Tracks invariant (FileStore.walk path) (FileStore.walk path) :=
  fun journal holds => ⟨_, journal, rfl, rfl, holds⟩

theorem readText (path : Path) :
    Tracks invariant (FileStore.readText path) (FileStore.readText path) := by
  refine .bind (.read path) fun outcome => ?_
  cases outcome with
  | error reason => exact .pure _
  | ok content =>
      cases text : Utf8.text? content with
      | none => simpa only [text] using .pure _
      | some text => simpa only [text] using .pure _

theorem orThere (path : Path) (refused : FileError) :
    Tracks invariant (FileStore.orThere path refused) (FileStore.orThere path refused) :=
  .bind (.bind (.look path) fun _ => .pure _) fun _ => .pure _

/-- Directories are made one by one. -/
theorem makeLineage {paths : List Path}
    (makes : ∀ path ∈ paths,
      Tracks invariant (FileStore.makeDirectory path) (FileStore.makeDirectory path)) :
    Tracks invariant (FileStore.makeLineage paths) (FileStore.makeLineage paths) := by
  induction paths with
  | nil => exact .pure _
  | cons path above ih =>
      have first := makes path List.mem_cons_self
      have rest := ih fun other listed => makes other (List.mem_cons_of_mem _ listed)
      rw [FileStore.makeLineage, FileStore.makeLineage]
      split
      · exact .pure _
      · refine .bind first fun outcome => ?_
        cases outcome with
        | ok => exact .pure _
        | error reason =>
            cases reason with
            -- What is above is made first, and then the directory is tried again.
            | notFound =>
                refine .bind rest fun outcome => ?_
                cases outcome with
                | error reason => exact .pure _
                | ok =>
                    refine .bind first fun outcome => ?_
                    cases outcome with
                    | ok => exact .pure _
                    | error reason => exact .orThere path reason
            | _ => exact .orThere path _

theorem removeIfThere {path : Path}
    (removes : Tracks invariant (FileStore.remove path) (FileStore.remove path)) :
    Tracks invariant (FileStore.removeIfThere path) (FileStore.removeIfThere path) := by
  refine .bind removes fun outcome => ?_
  cases outcome with
  | ok => exact .pure _
  | error reason => cases reason <;> exact .pure _

/-- A file is replaced in four steps. -/
theorem replace {path : Path} {text : String}
    (room : Tracks invariant (FileStore.makeRoom path) (FileStore.makeRoom path))
    (writes : Tracks invariant (FileStore.write (FileStore.temporary path) text.toUTF8)
      (FileStore.write (FileStore.temporary path) text.toUTF8))
    (removes : Tracks invariant (FileStore.remove path) (FileStore.remove path))
    (renames : Tracks invariant (FileStore.rename (FileStore.temporary path) path)
      (FileStore.rename (FileStore.temporary path) path)) :
    Tracks invariant (FileStore.replace path text) (FileStore.replace path text) :=
  .mk_bind room fun _ => .mk_bind writes fun _ => .mk_bind (.removeIfThere removes) fun _ => renames

end Tracks

end CachePolicy
