import CachePolicy.Json.Decode

/-!
# What is stored ahead

A precache manifest lists the URLs that a worker stores when it is installed, in
the order in which they were first named.  `push` refuses a URL that is already
listed; a manifest that is read is taken as it is.
-/

namespace CachePolicy

/-- A URL to store ahead. -/
structure PrecacheEntry where
  url : String
  /-- A mark that changes with the content; without one the URL itself does. -/
  revision : Option String
  deriving DecidableEq, Repr, Inhabited

namespace PrecacheEntry

/-- An entry without a revision. -/
def unversioned (url : String) : PrecacheEntry := ⟨url, none⟩

/-- An entry as JSON. -/
def toJson (entry : PrecacheEntry) : Json :=
  .obj [("url", .str entry.url),
    ("revision",
      match entry.revision with
      | some revision => .str revision
      | none => .null)]

/-- How an entry is written. -/
def shape : Shape :=
  ⟨"struct PrecacheEntry",
    [⟨"url", Decode.check Decode.string⟩,
      ⟨"revision", Decode.check (Decode.optional Decode.string)⟩], false⟩

/-- The entry of given fields. -/
def build (row : Row) : Except DecodeError PrecacheEntry := do
  let url ← row.required "url" Decode.string
  let revision ← row.nullable "revision" Decode.string
  return { url, revision }

/-- Read an entry. -/
def decode : Decoder PrecacheEntry := shape.read build

end PrecacheEntry

/-- The entries to store ahead. -/
structure PrecacheManifest where
  entries : List PrecacheEntry
  deriving DecidableEq, Repr, Inhabited

namespace PrecacheManifest

/-- A manifest without entries. -/
def empty : PrecacheManifest := ⟨[]⟩

/-- The URLs of a manifest. -/
def urls (manifest : PrecacheManifest) : List String := manifest.entries.map (·.url)

/-- Whether a URL is listed. -/
def contains (manifest : PrecacheManifest) (url : String) : Bool := manifest.urls.contains url

/-- List an entry, unless its URL is listed already. -/
def push (manifest : PrecacheManifest) (entry : PrecacheEntry) : PrecacheManifest :=
  if manifest.contains entry.url then manifest else ⟨manifest.entries ++ [entry]⟩

/-- The manifest of entries of which the first for each URL counts. -/
def ofList (entries : List PrecacheEntry) : PrecacheManifest := entries.foldl push empty

@[simp] theorem urls_empty : empty.urls = [] := rfl

theorem urls_push (manifest : PrecacheManifest) (entry : PrecacheEntry) :
    (manifest.push entry).urls =
      if entry.url ∈ manifest.urls then manifest.urls else manifest.urls ++ [entry.url] := by
  by_cases h : entry.url ∈ manifest.urls
  · simp [push, contains, h]
  · rw [push, if_neg (by simpa [contains] using h), if_neg h]
    simp [urls]

/-- Listing an entry keeps the URLs distinct. -/
theorem nodup_urls_push {manifest : PrecacheManifest} (h : manifest.urls.Nodup)
    (entry : PrecacheEntry) : (manifest.push entry).urls.Nodup := by
  rw [urls_push]
  split
  · exact h
  · next absent =>
    rw [List.nodup_append]
    refine ⟨h, by simp, ?_⟩
    intro url listed other same
    simp only [List.mem_singleton] at same
    rintro rfl
    exact absent (same ▸ listed)

/-- A manifest as JSON. -/
def toJson (manifest : PrecacheManifest) : Json := .arr (manifest.entries.map (·.toJson))

/-- Read a manifest. -/
def decode : Decoder PrecacheManifest := fun value => do
  let entries ← Decode.list PrecacheEntry.decode value
  return ⟨entries⟩

end PrecacheManifest

end CachePolicy
