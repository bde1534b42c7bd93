import CachePolicy.Files.Store

/-!
# Running programs on a tree

A program on a tree of files runs one operation after the other, each on the tree that the
one before it left.  A program that only reads leaves the tree as it is.
-/

namespace CachePolicy.Files

variable {α β ε : Type}

theorem bind_apply (first : StateM Files α) (next : α → StateM Files β) (files : Files) :
    (first >>= next) files = next (first files).1 (first files).2 := rfl

theorem pure_apply (value : α) (files : Files) :
    (pure value : StateM Files α) files = (value, files) := rfl

theorem map_apply (change : α → β) (program : StateM Files α) (files : Files) :
    (change <$> program) files = (change (program files).1, (program files).2) := rfl

/-- A program that stops at the first error. -/
theorem mk_bind_apply (first : StateM Files (Except ε α)) (next : α → ExceptT ε (StateM Files) β)
    (files : Files) :
    (ExceptT.mk first >>= next).run files =
      match first files with
      | (.ok value, after) => (next value).run after
      | (.error e, after) => (.error e, after) := by
  rw [ExceptT.run_bind, ExceptT.run_mk, bind_apply]
  rcases first files with ⟨_ | _, _⟩ <;> rfl

theorem attempt_ok {change : Files → Except FileError Files} {files after : Files}
    (changed : change files = .ok after) : attempt change files = (.ok (), after) := by
  simp only [attempt, changed]

theorem attempt_error {change : Files → Except FileError Files} {files : Files}
    {reason : FileError} (refused : change files = .error reason) :
    attempt change files = (.error reason, files) := by
  simp only [attempt, refused]

theorem write_apply (path : Path) (content : Bytes) (files : Files) :
    (FileStore.write path content : StateM Files _) files =
      attempt (·.write path content) files := rfl

theorem remove_apply (path : Path) (files : Files) :
    (FileStore.remove path : StateM Files _) files = attempt (·.remove path) files := rfl

theorem rename_apply (source target : Path) (files : Files) :
    (FileStore.rename source target : StateM Files _) files =
      attempt (·.rename source target) files := rfl

theorem makeDirectory_apply (path : Path) (files : Files) :
    (FileStore.makeDirectory path : StateM Files _) files =
      attempt (·.makeDirectory path) files := rfl

/-- A program that leaves every tree as it is. -/
def OnlyReads (program : StateM Files α) : Prop := ∀ files, (program files).2 = files

namespace OnlyReads

theorem pure (value : α) : OnlyReads (Pure.pure value : StateM Files α) := fun _ => rfl

end OnlyReads

end CachePolicy.Files
