import CachePolicy.Data.SortedMap
import CachePolicy.Worker.Response

/-!
# Stored responses

Responses are stored in named partitions, each a list from the oldest entry to the
newest with at most one entry for a URL.  Storing a response again makes it the
newest.
-/

namespace CachePolicy

/-- A stored response. -/
structure CachedEntry where
  url : String
  response : Response
  storedAt : Moment
  deriving DecidableEq

/-- The stored responses by partition. -/
abbrev Storage := SortedMap String (List CachedEntry)

namespace Storage

/-- Entries less the one for a URL. -/
def without (url : String) (entries : List CachedEntry) : List CachedEntry :=
  entries.filter (·.url != url)

/-- The entries of a partition, oldest first. -/
def entries (storage : Storage) (partition : String) : List CachedEntry :=
  (storage.get? partition).getD []

/-- The entry for a URL. -/
def lookup (storage : Storage) (partition url : String) : Option CachedEntry :=
  (storage.entries partition).find? (·.url == url)

/-- Store a response. -/
def put (storage : Storage) (partition url : String) (response : Response) (now : Moment) :
    Storage :=
  storage.insert partition (without url (storage.entries partition) ++ [⟨url, response, now⟩])

/-- Change the entries of a partition that exists. -/
def modify (storage : Storage) (partition : String)
    (f : List CachedEntry → List CachedEntry) : Storage :=
  match storage.get? partition with
  | some entries => storage.insert partition (f entries)
  | none => storage

/-- Remove the entry for a URL. -/
def delete (storage : Storage) (partition url : String) : Storage :=
  storage.modify partition (without url)

/-- Whether there is an entry for a URL to remove. -/
def deletes (storage : Storage) (partition url : String) : Bool :=
  match storage.get? partition with
  | some entries => (without url entries).length != entries.length
  | none => false

/-- Make a partition without entries, unless it exists. -/
def openPartition (storage : Storage) (partition : String) : Storage :=
  storage.insert partition (storage.entries partition)

/-- Remove a partition. -/
def deletePartition (storage : Storage) (partition : String) : Storage := storage.erase partition

/-- The URLs of a partition, oldest first. -/
def urls (storage : Storage) (partition : String) : List String :=
  (storage.entries partition).map (·.url)

@[simp] theorem entries_empty (partition : String) :
    entries SortedMap.empty partition = [] := rfl

theorem entries_put (storage : Storage) (partition other url : String) (response : Response)
    (now : Moment) :
    (storage.put partition url response now).entries other =
      if other = partition then without url (storage.entries partition) ++ [⟨url, response, now⟩]
      else storage.entries other := by
  unfold put entries
  rw [SortedMap.get?_insert]
  split <;> rfl

theorem entries_modify (storage : Storage) (partition other : String)
    {f : List CachedEntry → List CachedEntry} (keeps : f [] = []) :
    (storage.modify partition f).entries other =
      if other = partition then f (storage.entries partition) else storage.entries other := by
  unfold modify entries
  cases h : storage.get? partition with
  | none =>
    by_cases same : other = partition
    · subst same; simp [h, keeps]
    · simp [same]
  | some entries =>
    by_cases same : other = partition <;> simp [same]

@[simp] theorem entries_openPartition (storage : Storage) (partition other : String) :
    (storage.openPartition partition).entries other = storage.entries other := by
  unfold openPartition entries
  rw [SortedMap.get?_insert]
  by_cases same : other = partition <;> simp [same]

@[simp] theorem entries_deletePartition (storage : Storage) (partition other : String) :
    (storage.deletePartition partition).entries other =
      if other = partition then [] else storage.entries other := by
  unfold deletePartition entries
  rw [SortedMap.get?_erase]
  split <;> rfl

end Storage

end CachePolicy
