import CachePolicy.Proofs.Data.SortedMap
import CachePolicy.Proofs.Files.Replacing

/-!
# Adding a file and taking it away again

A file that is written where nothing was adds one entry to a tree, and leaves nothing else of the
way in which it was written.  To remove it gives the tree back as it was, even if the file was
given another content in between.
-/

namespace CachePolicy.Files

variable {files : Files} {path dir : Path} {place goal top : Location} {name : FileName}

@[simp] theorem erase_insert (files : Files) (place : Location) (entry : Entry) :
    (files.insert place entry).erase place = files.erase place := by
  rw [erase, insert, SortedMap.erase_insert, erase]

theorem erase_eq_self (named : place ≠ []) (absent : files.at? place = none) :
    files.erase place = files := by
  rw [at?_ne_nil files named] at absent
  rw [erase, SortedMap.erase_eq_self absent]

/-- A path addresses one place. -/
theorem Addresses.unique (first : files.Addresses path place)
    (second : files.Addresses path goal) : place = goal :=
  Except.ok.inj (first.leads.symm.trans second.leads)

/-- Where there is neither a file nor a temporary one, replacing the file adds it. -/
theorem replace_of_vacant {spare : Location} {text : String} (leads : files.Leads dir top)
    (directory : files.at? top = some .directory) (named : name ≠ "")
    (addresses : files.Addresses (dir.join ⟨[name]⟩) place) (absent : files.at? place = none)
    (spareAddresses : files.Addresses (FileStore.temporary (dir.join ⟨[name]⟩)) spare)
    (vacant : files.at? spare = none) :
    (FileStore.replace (dir.join ⟨[name]⟩) text : StateM Files _) files =
      (.ok (), files.insert place (.file text.toUTF8)) := by
  obtain ⟨notHere, notUp⟩ := addresses.last_moves (Path.steps_join_name dir named)
  have free : files.at? spare ≠ some .directory := by
    rw [vacant]
    nofun
  have apart := addresses.ne_temporary named spareAddresses
  have same : SameDirectories files (files.insert spare (.file text.toUTF8)) :=
    sameDirectories_insert spareAddresses.ne_nil free
  have untouched : (files.insert spare (.file text.toUTF8)).at? place = none := by
    rw [at?_insert _ _ _ _ spareAddresses.ne_nil, if_neg apart, absent]
  have stored : (files.insert spare (.file text.toUTF8)).at? spare = some (.file text.toUTF8) := by
    rw [at?_insert _ _ _ _ spareAddresses.ne_nil, if_pos rfl]
  rw [replace_of_written leads directory named notHere notUp
      (write_eq_ok_iff.mpr ⟨spare, spareAddresses, free, rfl⟩),
    (addresses.of_sameDirectories same).removeIfThere_eq, untouched]
  dsimp only
  rw [attempt_ok ((spareAddresses.of_sameDirectories same).rename_eq
      (addresses.of_sameDirectories same) stored (by rw [untouched]; nofun)),
    erase_insert, erase_eq_self spareAddresses.ne_nil vacant]

/-- To remove a file that has just been written leaves its place with nothing, and no other trace
of it. -/
theorem removeIfThere_insert {content : Bytes} (addresses : files.Addresses path place)
    (free : files.at? place ≠ some .directory) :
    (FileStore.removeIfThere path : StateM Files _) (files.insert place (.file content)) =
      (.ok (), files.erase place) := by
  have same : SameDirectories files (files.insert place (.file content)) :=
    sameDirectories_insert addresses.ne_nil free
  rw [(addresses.of_sameDirectories same).removeIfThere_eq,
    at?_insert _ _ _ _ addresses.ne_nil, if_pos rfl]
  dsimp only
  rw [erase_insert]

end CachePolicy.Files
