import CachePolicy.Files.Store
import CachePolicy.Proofs.Files.Name
import CachePolicy.Proofs.Text.Split

/-!
# Naming files in a directory

A name that is joined to the path of a directory is the last step of the joined path, and
all other steps are those of the directory.  The temporary name of a file is a name in the
same directory.
-/

namespace CachePolicy

namespace Path

variable {name : FileName}

@[simp] theorem isRooted_nil : isRooted ⟨[]⟩ = false := rfl

@[simp] theorem isRooted_singleton (only : FileName) : isRooted ⟨[only]⟩ = false := rfl

@[simp] theorem isRooted_cons_cons (first second : FileName) (rest : List FileName) :
    isRooted ⟨first :: second :: rest⟩ = (first == "") := rfl

theorem steps_append_name (segments : List FileName) (named : name ≠ "") :
    steps ⟨segments ++ [name]⟩ = steps ⟨segments⟩ ++ [name] := by
  simp [steps, named]

/-- The segments of a path less what its last slash ends. -/
theorem isClosed_eq_true {path : Path} (closed : path.isClosed = true) :
    ∃ first rest, path.segments = first :: rest ++ [.ofText ""] := by
  cases written : path.segments with
  | nil => simp [isClosed, written] at closed
  | cons first rest =>
      simp only [isClosed, written, beq_iff_eq] at closed
      obtain ⟨before, split⟩ := List.getLast?_eq_some_iff.mp closed
      exact ⟨first, before, by rw [split, List.cons_append]⟩

/-- A name is joined to the segments of a path, less an empty one at the end. -/
theorem join_name (dir : Path) (name : FileName) :
    ∃ segments, dir.join ⟨[name]⟩ = ⟨segments ++ [name]⟩ ∧
      (dir.segments = segments ∧ dir.isEmpty = false ∧ dir.isClosed = false ∨
        dir.segments = segments ++ [.ofText ""]) := by
  have relative : isRooted ⟨[name]⟩ = false := isRooted_singleton name
  by_cases empty : dir.isEmpty = true
  · have nothing : dir.segments = [.ofText ""] := by simpa [isEmpty] using empty
    exact ⟨[], by simp [join, relative, empty, nothing], .inr nothing⟩
  · rw [Bool.not_eq_true] at empty
    by_cases closed : dir.isClosed = true
    · obtain ⟨first, rest, split⟩ := isClosed_eq_true closed
      refine ⟨first :: rest, ?_, .inr split⟩
      rw [join, relative, closed, Bool.or_true, split, List.dropLast_concat]
      rfl
    · rw [Bool.not_eq_true] at closed
      exact ⟨dir.segments, by simp [join, relative, empty, closed], .inl ⟨rfl, empty, closed⟩⟩

theorem steps_join_name (dir : Path) (named : name ≠ "") :
    (dir.join ⟨[name]⟩).steps = dir.steps ++ [name] := by
  obtain ⟨segments, joined, split⟩ := dir.join_name name
  rw [joined, steps_append_name segments named]
  rcases split with ⟨same, -, -⟩ | closed
  · simp [steps, same]
  · simp [steps, closed]

theorem isEmpty_join_name (dir : Path) (named : name ≠ "") :
    (dir.join ⟨[name]⟩).isEmpty = false := by
  obtain ⟨segments, joined, -⟩ := dir.join_name name
  rw [joined]
  cases segments with
  | nil => simp [isEmpty, named]
  | cons first rest => simp [isEmpty]

theorem isClosed_join_name (dir : Path) (named : name ≠ "") :
    (dir.join ⟨[name]⟩).isClosed = false := by
  obtain ⟨segments, joined, -⟩ := dir.join_name name
  rw [joined]
  cases segments with
  | nil => rfl
  | cons first rest => simp [isClosed, named]

theorem isRooted_join_name (dir : Path) (name : FileName) :
    (dir.join ⟨[name]⟩).isRooted = dir.isRooted := by
  obtain ⟨segments, joined, split⟩ := dir.join_name name
  rw [joined]
  obtain ⟨written⟩ := dir
  rcases split with ⟨rfl, empty, -⟩ | rfl
  · match written with
    | [] => simp
    | [only] =>
        have full : only ≠ "" := by simpa [isEmpty] using empty
        simp [full]
    | first :: second :: rest => simp
  · match segments with
    | [] => simp
    | [only] => simp
    | first :: second :: rest => simp

theorem bytes_append_name {segments : List FileName} (written : segments ≠ [])
    (name : FileName) : bytes ⟨segments ++ [name]⟩ = bytes ⟨segments⟩ ++ slash :: name.bytes := by
  obtain ⟨before, last, rfl⟩ := (List.eq_nil_or_concat' segments).resolve_left written
  have joined := Text.intercalate_append_cons slash (before.map (·.bytes)) last.bytes
  calc bytes ⟨before ++ [last] ++ [name]⟩
      = [slash].intercalate (before.map (·.bytes) ++ last.bytes :: [name.bytes]) := by
        simp [bytes]
    _ = [slash].intercalate (before.map (·.bytes) ++ [last.bytes]) ++ slash :: name.bytes := by
        rw [joined, joined]
        simp
    _ = bytes ⟨before ++ [last]⟩ ++ slash :: name.bytes := by simp [bytes]

/-- The bytes of a joined path begin with those of the directory. -/
theorem exists_bytes_join_name (dir : Path) (name : FileName) :
    ∃ more, (dir.join ⟨[name]⟩).bytes = dir.bytes ++ more := by
  obtain ⟨segments, joined, split⟩ := dir.join_name name
  rw [joined]
  obtain ⟨written⟩ := dir
  cases segments with
  | nil =>
      rcases split with ⟨rfl, -, -⟩ | rfl
      · exact ⟨name.bytes, by simp [bytes]⟩
      · exact ⟨name.bytes, by simp [bytes, FileName.ofText]⟩
  | cons first rest =>
      rw [bytes_append_name (List.cons_ne_nil _ _)]
      rcases split with ⟨rfl, -, -⟩ | rfl
      · exact ⟨slash :: name.bytes, rfl⟩
      · refine ⟨name.bytes, ?_⟩
        rw [bytes_append_name (List.cons_ne_nil _ _), List.append_assoc]
        rfl

/-! ## Parts -/

theorem moving_append (first rest : List FileName) :
    moving (first ++ rest) = moving first ++ moving rest := List.filter_append ..

theorem parts_of_rooted {path : Path} (rooted : path.isRooted = true) :
    path.parts = moving path.steps := by
  rw [parts, if_neg]
  rintro ⟨relative, -⟩
  cases rooted.symm.trans relative

theorem parts_of_dotted {path : Path} {rest : List FileName} (relative : path.isRooted = false)
    (dotted : path.steps = .ofText "." :: rest) : path.parts = .ofText "." :: moving rest := by
  rw [parts, dotted, if_pos ⟨relative, rfl⟩, List.tail_cons]

theorem parts_of_undotted {path : Path} (undotted : path.steps.head? ≠ some (.ofText ".")) :
    path.parts = moving path.steps := by
  rw [parts, if_neg fun dotted => undotted dotted.2]

theorem parts_join_name (dir : Path) (named : name ≠ "") (moves : name ≠ ".") :
    (dir.join ⟨[name]⟩).parts = dir.parts ++ [name] := by
  have steps := steps_join_name dir named
  have rooted := isRooted_join_name dir name
  have last : moving [name] = [name] := List.filter_cons_of_pos (by simpa using moves)
  by_cases top : dir.isRooted = true
  · rw [parts_of_rooted (rooted.trans top), parts_of_rooted top, steps, moving_append, last]
  · rw [Bool.not_eq_true] at top
    by_cases dotted : dir.steps.head? = some (.ofText ".")
    · obtain ⟨rest, split⟩ := List.head?_eq_some_iff.mp dotted
      rw [split, List.cons_append] at steps
      rw [parts_of_dotted (rooted.trans top) steps, parts_of_dotted top split, moving_append,
        last, List.cons_append]
    · have undotted : (dir.join ⟨[name]⟩).steps.head? ≠ some (.ofText ".") := by
        rw [steps]
        cases written : dir.steps with
        | nil => simpa using moves
        | cons first rest => simpa [written] using dotted
      rw [parts_of_undotted undotted, parts_of_undotted dotted, steps, moving_append, last]

theorem ne_empty_of_mem_parts {path : Path} {part : FileName} (member : part ∈ path.parts) :
    part ≠ "" := by
  have kept : ∀ steps : List FileName, part ∈ moving steps → part ∈ steps := fun steps found =>
    (List.mem_filter.mp found).1
  have written : part ∈ path.steps := by
    rw [parts] at member
    split at member
    · next dotted =>
        obtain ⟨rest, split⟩ := List.head?_eq_some_iff.mp dotted.2
        rw [split] at member ⊢
        rcases List.mem_cons.mp member with rfl | later
        · exact List.mem_cons_self
        · exact List.mem_cons_of_mem _ (kept _ later)
    · exact kept _ member
  simpa using (List.mem_filter.mp written).2

/-- The path written with nothing but its parts. -/
def tidy (path : Path) : Path := ofParts path.isRooted path.parts

@[simp] theorem steps_tidy (path : Path) : path.tidy.steps = path.parts := by
  have full : path.parts.filter (· != .ofText "") = path.parts :=
    List.filter_eq_self.mpr fun part member => by simpa using ne_empty_of_mem_parts member
  cases parts : path.parts with
  | nil => cases rooted : path.isRooted <;> simp [tidy, ofParts, steps, parts, rooted]
  | cons first rest =>
      rw [parts] at full
      cases rooted : path.isRooted with
      | false => simpa [tidy, ofParts, steps, parts, rooted] using full
      | true => simpa [tidy, ofParts, steps, parts, rooted] using full

@[simp] theorem isRooted_tidy (path : Path) : path.tidy.isRooted = path.isRooted := by
  cases parts : path.parts with
  | nil => cases rooted : path.isRooted <;> simp [tidy, ofParts, parts, rooted]
  | cons first rest =>
      have full : first ≠ "" := ne_empty_of_mem_parts (parts ▸ List.mem_cons_self)
      cases rooted : path.isRooted with
      | true => simp [tidy, ofParts, parts, rooted]
      | false =>
          cases rest with
          | nil => simp [tidy, ofParts, parts, rooted]
          | cons second more => simp [tidy, ofParts, parts, rooted, full]

/-! ## Names of files -/

theorem parent?_join_name (dir : Path) (named : name ≠ "") (moves : name ≠ ".") :
    (dir.join ⟨[name]⟩).parent? = some dir.tidy := by
  rw [parent?, parts_join_name dir named moves, isRooted_join_name]
  simp [tidy]

theorem name?_join_name (dir : Path) (named : name ≠ "") (moves : name ≠ ".")
    (enters : name ≠ "..") : (dir.join ⟨[name]⟩).name? = some name := by
  rw [name?, parts_join_name dir named moves, List.getLast?_concat]
  simp [moves, enters]

end Path

/-- The name under which a file is written first. -/
def FileStore.temporaryName (name : FileName) : FileName := .ofText s!".{name.text}.tmp"

/-- The temporary file is in the same directory. -/
theorem FileStore.temporary_join_name {name : FileName} (dir : Path) (named : name ≠ "")
    (moves : name ≠ ".") (enters : name ≠ "..") :
    temporary (dir.join ⟨[name]⟩) = dir.tidy.join ⟨[temporaryName name]⟩ := by
  rw [temporary, Path.withName, Path.name?_join_name dir named moves enters,
    Path.parent?_join_name dir named moves]
  rfl

theorem FileStore.length_text_temporaryName (name : FileName) :
    (temporaryName name).text.length = name.text.length + 5 := by
  have dot : ".".length = 1 := rfl
  have ending : ".tmp".length = 4 := rfl
  simp only [temporaryName, FileName.text_ofText, toString, String.length_append, dot, ending]
  omega

theorem FileStore.temporaryName_ne {name : FileName} {other : String}
    (shorter : other.length < 5) : temporaryName name ≠ other := by
  intro same
  have := length_text_temporaryName name
  rw [same, FileName.text_ofText] at this
  omega

theorem FileStore.temporaryName_ne_self (name : FileName) : temporaryName name ≠ name := by
  intro same
  have := length_text_temporaryName name
  rw [same] at this
  omega

/-- Where a name may be joined to a path, the path itself may be followed. -/
theorem Files.checkPath_of_join_name {dir : Path} {name : FileName} (full : dir.isEmpty = false)
    (checked : checkPath (dir.join ⟨[name]⟩) = .ok ()) : checkPath dir = .ok () := by
  obtain ⟨more, longer⟩ := dir.exists_bytes_join_name name
  simp only [checkPath, longer, List.length_append] at checked
  split at checked
  · cases checked
  · next clean =>
      split at checked
      · cases checked
      · split at checked
        · cases checked
        · next fits =>
            have shorter : ¬longestPath < dir.bytes.length := by omega
            have unmarked : 0 ∉ dir.bytes := fun member => clean (by simp [member])
            simp [checkPath, unmarked, full, shorter]

end CachePolicy
