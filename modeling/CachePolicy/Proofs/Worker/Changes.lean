import CachePolicy.Proofs.Worker.Footprint
import CachePolicy.Proofs.Worker.Precache

/-!
# What is stored after changes

A history of changes says by itself what is stored after it.  A response is found just when it was
put for its URL, and no later change outdates that put.  A partition lists its URLs in the order of
these last puts, and it is there just when it was put to or opened since it was last deleted.

Every change reaches its own partition only, so changes of different partitions may trade places.
-/

namespace CachePolicy

namespace Storage

/-! ## Removals -/

section Removals

variable {storage : Storage} {partition url : String}

/-- There is an entry to remove just when one is found. -/
theorem deletes_eq_isSome_lookup (storage : Storage) (partition url : String) :
    storage.deletes partition url = (storage.lookup partition url).isSome := by
  rw [deletes, lookup, entries]
  cases storage.get? partition with
  | none => rfl
  | some entries =>
      rw [Bool.eq_iff_iff, bne_iff_ne, without, Ne, List.length_filter_eq_length_iff,
        Option.getD_some, List.find?_isSome]
      simp

theorem delete_eq_self_iff : storage.delete partition url = storage ↔
    storage.deletes partition url = false := by
  have kept : storage.deletes partition url = false ↔
      without url (storage.entries partition) = storage.entries partition := by
    rw [deletes_eq_isSome_lookup, lookup, Option.isSome_eq_false_iff, Option.isNone_iff_eq_none,
      List.find?_eq_none, without, List.filter_eq_self]
    simp
  rw [kept]
  constructor
  · intro same
    have left := storage.entries_delete partition partition url
    rw [same, if_pos rfl] at left
    exact left.symm
  · intro same
    exact modify_eq_self same

theorem deletePartition_eq_self_iff : storage.deletePartition partition = storage ↔
    storage.contains partition = false := by
  rw [SortedMap.contains, Option.isSome_eq_false_iff, Option.isNone_iff_eq_none]
  constructor
  · intro same
    rw [← same, Storage.deletePartition, SortedMap.get?_erase, if_pos rfl]
  · intro absent
    exact SortedMap.erase_eq_self absent

end Removals

/-! ## Changes -/

/-- A change of what is stored. -/
inductive Change where
  | put (partition url : String) (response : Response) (moment : Moment)
  | delete (partition url : String)
  | openPartition (partition : String)
  | deletePartition (partition : String)
  deriving DecidableEq

namespace Change

/-- The partition that a change is made to. -/
def partition : Change → String
  | put partition _ _ _ => partition
  | delete partition _ => partition
  | openPartition partition => partition
  | deletePartition partition => partition

/-- What is stored after a change. -/
def apply (storage : Storage) : Change → Storage
  | put partition url response moment => storage.put partition url response moment
  | delete partition url => storage.delete partition url
  | openPartition partition => storage.openPartition partition
  | deletePartition partition => storage.deletePartition partition

/-- What a change answers; only removals do. -/
def answer? (storage : Storage) : Change → Option Bool
  | put _ _ _ _ => none
  | delete partition url => some (storage.deletes partition url)
  | openPartition _ => none
  | deletePartition partition => some (storage.contains partition)

/-! ### What a change says of a partition -/

/-- A change outdates what was put for a URL before. -/
def outdates (partition url : String) : Change → Bool
  | put own named _ _ => own == partition && url == named
  | delete own named => own == partition && url == named
  | openPartition _ => false
  | deletePartition own => own == partition

/-- The entry that a change puts in a partition. -/
def puts? (partition : String) : Change → Option CachedEntry
  | put own url response moment => if own = partition then some ⟨url, response, moment⟩ else none
  | delete _ _ => none
  | openPartition _ => none
  | deletePartition _ => none

/-- A partition is there after a change, whether or not it was there before. -/
def opens (partition : String) : Change → Bool
  | put own _ _ _ => own == partition
  | delete _ _ => false
  | openPartition own => own == partition
  | deletePartition _ => false

/-- What a change makes of its partition. -/
def within : Change → Option (List CachedEntry) → Option (List CachedEntry)
  | put _ url response moment, entries =>
    some (without url (entries.getD []) ++ [⟨url, response, moment⟩])
  | delete _ url, entries => entries.map (without url)
  | openPartition _, entries => some (entries.getD [])
  | deletePartition _, _ => none

variable {storage : Storage} {change : Change} {partition other url : String}

/-- A change reaches its own partition, and no other. -/
theorem get?_apply (storage : Storage) (change : Change) (other : String) :
    (change.apply storage).get? other =
      if other = change.partition then change.within (storage.get? other)
      else storage.get? other := by
  cases change with
  | put own url response moment =>
      rw [apply, get?_put, Change.partition, within]
      by_cases same : other = own
      · rw [same]
      · rw [if_neg same, if_neg same]
  | delete own url =>
      rw [apply, Storage.delete, get?_modify, Change.partition, within]
      by_cases same : other = own
      · rw [same]
      · rw [if_neg same, if_neg same]
  | openPartition own =>
      rw [apply, Storage.openPartition, SortedMap.get?_insert, Change.partition, within, entries]
      by_cases same : other = own
      · rw [same]
      · rw [if_neg same, if_neg same]
  | deletePartition own =>
      rw [apply, Storage.deletePartition, SortedMap.get?_erase]
      rfl

theorem get?_apply_of_ne (storage : Storage) (differs : other ≠ change.partition) :
    (change.apply storage).get? other = storage.get? other := by
  rw [get?_apply, if_neg differs]

/-- A change says nothing of a partition. -/
structure Spares (change : Change) (partition : String) : Prop where
  outdates : ∀ url, change.outdates partition url = false
  puts : change.puts? partition = none
  opens : change.opens partition = false
  keeps : change ≠ .deletePartition partition

/-- A change says nothing of a partition other than its own. -/
theorem spares_of_ne (differs : partition ≠ change.partition) : change.Spares partition := by
  have apart : (change.partition == partition) = false := beq_false_of_ne differs.symm
  cases change with
  | put own url response moment =>
      rw [Change.partition] at apart differs
      exact ⟨fun named => by simp [outdates, apart], if_neg differs.symm, apart, nofun⟩
  | delete own url =>
      rw [Change.partition] at apart
      exact ⟨fun named => by simp [outdates, apart], rfl, rfl, nofun⟩
  | openPartition own => exact ⟨fun _ => rfl, rfl, apart, nofun⟩
  | deletePartition own =>
      refine ⟨fun _ => apart, rfl, rfl, ?_⟩
      intro same
      cases same
      exact differs rfl

/-- The entries of a partition after a change: those that it does not outdate, and then the one
that it puts there. -/
theorem entries_apply (storage : Storage) (change : Change) (partition : String) :
    (change.apply storage).entries partition =
      (storage.entries partition).filter (fun entry => !change.outdates partition entry.url) ++
        (change.puts? partition).toList := by
  rw [entries, get?_apply, entries]
  by_cases own : partition = change.partition
  · subst own
    rw [if_pos rfl]
    cases change with
    | put own url response moment =>
        simp [Change.partition, within, outdates, puts?, without, bne]
    | delete own url =>
        cases storage.get? (delete own url).partition with
        | none => simp [within, puts?]
        | some entries => simp [Change.partition, within, outdates, puts?, without, bne]
    | openPartition own => simp [within, outdates, puts?]
    | deletePartition own => simp [Change.partition, within, outdates, puts?]
  · have spares := spares_of_ne own
    rw [if_neg own, spares.puts]
    simp [spares.outdates]

/-- A partition is there after a change if the change opens it, or else if it was there before and
is not deleted. -/
theorem contains_apply (storage : Storage) (change : Change) (partition : String) :
    (change.apply storage).contains partition = true ↔ change.opens partition = true ∨
      storage.contains partition = true ∧ change ≠ .deletePartition partition := by
  rw [SortedMap.contains, get?_apply, SortedMap.contains]
  by_cases own : partition = change.partition
  · subst own
    rw [if_pos rfl]
    cases change with
    | put own url response moment => simp [Change.partition, within, opens]
    | delete own url => simp [within, opens]
    | openPartition own => simp [Change.partition, within, opens]
    | deletePartition own => simp [Change.partition, within, opens]
  · have spares := spares_of_ne own
    rw [if_neg own, spares.opens]
    simp [spares.keeps]

/-- A change puts an entry just when it is the put of this entry. -/
theorem puts?_eq_some_iff {entry : CachedEntry} :
    change.puts? partition = some entry ↔
      change = .put partition entry.url entry.response entry.storedAt := by
  cases change with
  | put own url response moment =>
      rw [puts?]
      by_cases same : own = partition
      · rw [if_pos same, same]
        cases entry
        simp
      · simp [same]
  | delete own url => simp [puts?]
  | openPartition own => simp [puts?]
  | deletePartition own => simp [puts?]

/-! ### Answers -/

/-- What a change answers is whether it makes a difference. -/
theorem answer?_iff {answered : Bool} (answers : change.answer? storage = some answered) :
    answered = true ↔ change.apply storage ≠ storage := by
  rw [← Bool.not_eq_false]
  cases change with
  | put own url response moment => cases answers
  | delete own url =>
      cases answers
      exact not_congr delete_eq_self_iff.symm
  | openPartition own => cases answers
  | deletePartition own =>
      cases answers
      exact not_congr deletePartition_eq_self_iff.symm

/-- What a change answers depends on its own partition. -/
theorem answer?_congr {after : Storage}
    (same : after.get? change.partition = storage.get? change.partition) :
    change.answer? after = change.answer? storage := by
  cases change with
  | put own url response moment => rfl
  | delete own url =>
      have looked := lookup_congr_get? same url
      rw [answer?, answer?, deletes_eq_isSome_lookup, deletes_eq_isSome_lookup]
      exact congrArg (some ·.isSome) looked
  | openPartition own => rfl
  | deletePartition own => exact congrArg (some ·.isSome) same

/-! ### Changes of different partitions -/

/-- Two changes do the same in either order, and neither makes a difference to what the other one
answers or to what is read of its partition. -/
structure Commute (storage : Storage) (first second : Change) : Prop where
  same : second.apply (first.apply storage) = first.apply (second.apply storage)
  answer : second.answer? (first.apply storage) = second.answer? storage
  lookup : ∀ url, (first.apply storage).lookup second.partition url =
    storage.lookup second.partition url
  urls : (first.apply storage).urls second.partition = storage.urls second.partition
  contains : (first.apply storage).contains second.partition = storage.contains second.partition

theorem commute_of_ne (storage : Storage) {first second : Change}
    (apart : first.partition ≠ second.partition) : Commute storage first second := by
  have elsewhere : (first.apply storage).get? second.partition = storage.get? second.partition :=
    get?_apply_of_ne storage apart.symm
  constructor
  case same =>
    apply SortedMap.ext_get?
    intro other
    rw [get?_apply, get?_apply, get?_apply, get?_apply]
    by_cases here : other = second.partition
    · have there : other ≠ first.partition := fun there => apart (there.symm.trans here)
      rw [if_pos here, if_neg there, if_neg there, if_pos here]
    · rw [if_neg here, if_neg here]
  case answer => exact answer?_congr elsewhere
  case lookup => exact lookup_congr_get? elsewhere
  case urls => rw [Storage.urls, Storage.urls, entries, entries, elsewhere]
  case contains => rw [SortedMap.contains, SortedMap.contains, elsewhere]

end Change

/-! ## Histories of changes -/

/-- What is stored after changes that are made one after the other. -/
def changed (storage : Storage) (changes : List Change) : Storage :=
  changes.foldl Change.apply storage

@[simp] theorem changed_nil (storage : Storage) : storage.changed [] = storage := rfl

@[simp] theorem changed_cons (storage : Storage) (change : Change) (later : List Change) :
    storage.changed (change :: later) = (change.apply storage).changed later := rfl

/-- The entry that a change at an index puts in a partition, where no later change outdates it. -/
structure LastPut (changes : List Change) (partition : String) (index : Nat)
    (entry : CachedEntry) : Prop where
  put : changes[index]? = some (.put partition entry.url entry.response entry.storedAt)
  last : ∀ change ∈ changes.drop (index + 1), change.outdates partition entry.url = false

/-- Of two URLs the first was put last before the second was. -/
def PutBefore (changes : List Change) (partition older newer : String) : Prop :=
  ∃ first second, first < second ∧
    (∃ entry, LastPut changes partition first entry ∧ entry.url = older) ∧
    ∃ entry, LastPut changes partition second entry ∧ entry.url = newer

/-- A change at an index opens a partition, and no later change deletes it. -/
structure OpenSince (changes : List Change) (partition : String) (index : Nat) : Prop where
  opened : ∃ change, changes[index]? = some change ∧ change.opens partition = true
  kept : .deletePartition partition ∉ changes.drop (index + 1)

section Histories

variable {change : Change} {changes later : List Change} {partition : String}
variable {entry older newer : CachedEntry} {first second index : Nat}

theorem lastPut_zero_iff : LastPut (change :: later) partition 0 entry ↔
    change.puts? partition = some entry ∧
      later.all (!·.outdates partition entry.url) = true := by
  rw [Change.puts?_eq_some_iff, List.all_eq_true]
  constructor
  · intro lastPut
    refine ⟨Option.some.inj lastPut.put, ?_⟩
    intro next member
    rw [lastPut.last next member]
    rfl
  · rintro ⟨put, last⟩
    refine ⟨congrArg some put, ?_⟩
    intro next member
    simpa using last next member

theorem lastPut_succ_iff : LastPut (change :: later) partition (index + 1) entry ↔
    LastPut later partition index entry :=
  ⟨fun lastPut => ⟨lastPut.put, lastPut.last⟩, fun lastPut => ⟨lastPut.put, lastPut.last⟩⟩

theorem exists_lastPut_cons_iff : (∃ index, LastPut (change :: later) partition index entry) ↔
    (change.puts? partition = some entry ∧
        later.all (!·.outdates partition entry.url) = true) ∨
      ∃ index, LastPut later partition index entry :=
  Nat.or_exists_add_one.symm.trans
    (or_congr lastPut_zero_iff (exists_congr fun _ => lastPut_succ_iff))

/-- An entry whose URL is put again is not what was put last. -/
theorem LastPut.url_ne (early : LastPut changes partition first older)
    (late : LastPut changes partition second newer) (order : first < second) :
    older.url ≠ newer.url := by
  have there : .put partition newer.url newer.response newer.storedAt ∈
      changes.drop (first + 1) := by
    apply List.mem_of_getElem? (i := second - (first + 1))
    rw [List.getElem?_drop, Nat.add_sub_cancel' order, late.put]
  have kept := early.last _ there
  intro same
  simp [Change.outdates, same] at kept

theorem openSince_zero_iff : OpenSince (change :: later) partition 0 ↔
    change.opens partition = true ∧ .deletePartition partition ∉ later := by
  constructor
  · rintro ⟨⟨opener, first, opens⟩, kept⟩
    cases first
    exact ⟨opens, kept⟩
  · rintro ⟨opens, kept⟩
    exact ⟨⟨change, rfl, opens⟩, kept⟩

theorem openSince_succ_iff : OpenSince (change :: later) partition (index + 1) ↔
    OpenSince later partition index :=
  ⟨fun since => ⟨since.opened, since.kept⟩, fun since => ⟨since.opened, since.kept⟩⟩

theorem exists_openSince_cons_iff : (∃ index, OpenSince (change :: later) partition index) ↔
    (change.opens partition = true ∧ .deletePartition partition ∉ later) ∨
      ∃ index, OpenSince later partition index :=
  Nat.or_exists_add_one.symm.trans
    (or_congr openSince_zero_iff (exists_congr fun _ => openSince_succ_iff))

end Histories

/-- The entries that changes put in a partition and that no later one outdates, in order. -/
def surviving (partition : String) : List Change → List CachedEntry
  | [] => []
  | change :: later =>
    ((change.puts? partition).filter fun entry =>
      later.all (!·.outdates partition entry.url)).toList ++ surviving partition later

section Surviving

variable {partition : String} {changes : List Change} {entry : CachedEntry}

/-- After changes a partition holds what they do not outdate, and then what survives of them. -/
theorem entries_changed (storage : Storage) (changes : List Change) (partition : String) :
    (storage.changed changes).entries partition =
      (storage.entries partition).filter
          (fun entry => changes.all (!·.outdates partition entry.url)) ++
        surviving partition changes := by
  induction changes generalizing storage with
  | nil => simp [surviving]
  | cons change later ih =>
      rw [changed_cons, ih, Change.entries_apply, List.filter_append, List.filter_filter,
        surviving, Option.toList_filter, List.append_assoc]
      simp only [List.all_cons, Bool.and_comm]

/-- What survives are the last puts. -/
theorem mem_surviving_iff :
    entry ∈ surviving partition changes ↔ ∃ index, LastPut changes partition index entry := by
  induction changes with
  | nil =>
      constructor
      · intro member
        cases member
      · rintro ⟨index, put, -⟩
        cases put
  | cons change later ih =>
      rw [surviving, List.mem_append, Option.mem_toList, Option.filter_eq_some_iff, ih,
        exists_lastPut_cons_iff]

/-- What survives stands in the order of the puts. -/
theorem surviving_ordered (partition : String) (changes : List Change) :
    (surviving partition changes).Pairwise fun older newer => ∃ first second, first < second ∧
      LastPut changes partition first older ∧ LastPut changes partition second newer := by
  induction changes with
  | nil => exact .nil
  | cons change later ih =>
      rw [surviving, List.pairwise_append]
      refine ⟨?_, ?_, ?_⟩
      · cases (change.puts? partition).filter _ with
        | none => exact .nil
        | some entry => exact List.pairwise_singleton _ _
      · apply ih.imp
        rintro older newer ⟨first, second, order, early, late⟩
        exact ⟨first + 1, second + 1, Nat.succ_lt_succ order, lastPut_succ_iff.mpr early,
          lastPut_succ_iff.mpr late⟩
      · intro older here newer there
        rw [Option.mem_toList, Option.filter_eq_some_iff] at here
        obtain ⟨second, late⟩ := mem_surviving_iff.mp there
        exact ⟨0, second + 1, Nat.succ_pos second, lastPut_zero_iff.mpr here,
          lastPut_succ_iff.mpr late⟩

theorem nodup_urls_surviving (partition : String) (changes : List Change) :
    ((surviving partition changes).map (·.url)).Nodup := by
  apply List.pairwise_map.mpr
  apply (surviving_ordered partition changes).imp
  rintro older newer ⟨first, second, order, early, late⟩
  exact early.url_ne late order

/-- A partition is there after changes if it was opened and not deleted since, or was there before
and was never deleted. -/
theorem contains_changed (storage : Storage) (changes : List Change) (partition : String) :
    (storage.changed changes).contains partition = true ↔
      (∃ index, OpenSince changes partition index) ∨
        storage.contains partition = true ∧ .deletePartition partition ∉ changes := by
  induction changes generalizing storage with
  | nil =>
      have never : ¬ ∃ index, OpenSince [] partition index := by
        rintro ⟨index, ⟨change, there, -⟩, -⟩
        cases there
      simp [never]
  | cons change later ih =>
      rw [changed_cons, ih, Change.contains_apply, exists_openSince_cons_iff, List.mem_cons, not_or,
        ← Ne, ne_comm]
      grind

end Surviving

/-! ## What a history says -/

/-- What is stored, and what a removal answers, is what a history of changes says.  Here `storage`
is what the changes leave. -/
structure Recalls (changes : List Change) (storage : Storage) : Prop where
  /-- The last put for a URL is found, and nothing else. -/
  lookup : ∀ partition url entry, storage.lookup partition url = some entry ↔
    entry.url = url ∧ ∃ index, LastPut changes partition index entry
  /-- Just the URLs with a last put are listed, once each and in the order of these puts. -/
  listed : ∀ partition url, url ∈ storage.urls partition ↔
    ∃ index entry, LastPut changes partition index entry ∧ entry.url = url
  distinct : ∀ partition, (storage.urls partition).Nodup
  ordered : ∀ partition, (storage.urls partition).Pairwise (PutBefore changes partition)
  present : ∀ partition, storage.contains partition = true ↔
    ∃ index, OpenSince changes partition index
  /-- A removal answers whether there was something to remove. -/
  deletes : ∀ partition url, Change.answer? storage (.delete partition url) = some true ↔
    ∃ index entry, LastPut changes partition index entry ∧ entry.url = url
  deletesPartition : ∀ partition,
    Change.answer? storage (.deletePartition partition) = some true ↔
      ∃ index, OpenSince changes partition index

section Recalls

variable (changes : List Change) (partition url : String)

theorem entries_changed_empty :
    (changed SortedMap.empty changes).entries partition = surviving partition changes := by
  rw [entries_changed, entries_empty, List.filter_nil, List.nil_append]

theorem lookup_changed_empty (entry : CachedEntry) :
    (changed SortedMap.empty changes).lookup partition url = some entry ↔
      entry.url = url ∧ ∃ index, LastPut changes partition index entry := by
  rw [Storage.lookup, entries_changed_empty]
  constructor
  · intro found
    have named := List.find?_some found
    exact ⟨eq_of_beq named,
      mem_surviving_iff.mp (List.mem_of_find?_eq_some found)⟩
  · rintro ⟨rfl, lastPut⟩
    exact find?_eq_some_of_mem (nodup_urls_surviving partition changes)
      (mem_surviving_iff.mpr lastPut)

theorem mem_urls_changed_empty : url ∈ (changed SortedMap.empty changes).urls partition ↔
    ∃ index entry, LastPut changes partition index entry ∧ entry.url = url := by
  rw [urls, entries_changed_empty, List.mem_map]
  simp only [mem_surviving_iff]
  constructor
  · rintro ⟨entry, ⟨index, lastPut⟩, named⟩
    exact ⟨index, entry, lastPut, named⟩
  · rintro ⟨index, entry, lastPut, named⟩
    exact ⟨entry, ⟨index, lastPut⟩, named⟩

theorem urls_changed_empty_ordered :
    ((changed SortedMap.empty changes).urls partition).Pairwise (PutBefore changes partition) := by
  rw [urls, entries_changed_empty]
  apply List.pairwise_map.mpr
  apply (surviving_ordered partition changes).imp
  rintro older newer ⟨first, second, order, early, late⟩
  exact ⟨first, second, order, ⟨older, early, rfl⟩, newer, late, rfl⟩

theorem contains_changed_empty : (changed SortedMap.empty changes).contains partition = true ↔
    ∃ index, OpenSince changes partition index := by
  have absent : SortedMap.contains (SortedMap.empty : Storage) partition = false := rfl
  rw [contains_changed, absent]
  simp

theorem recalls_changed_empty : Recalls changes (changed SortedMap.empty changes) where
  lookup := lookup_changed_empty changes
  listed := mem_urls_changed_empty changes
  distinct partition := by
    rw [urls, entries_changed_empty]
    exact nodup_urls_surviving partition changes
  ordered := urls_changed_empty_ordered changes
  present := contains_changed_empty changes
  deletes partition url := by
    rw [Change.answer?, Option.some.injEq, deletes_eq_isSome_lookup, isSome_lookup]
    exact mem_urls_changed_empty changes partition url
  deletesPartition partition := by
    rw [Change.answer?, Option.some.injEq]
    exact contains_changed_empty changes partition

end Recalls

/-- Whatever is put, removed, opened and deleted, what is stored is what the history says.
Besides, a removal answers whether it makes a difference, and changes of different partitions do
the same and give the same answers in either order. -/
theorem changed_recalls (changes : List Change) :
    let storage := changed SortedMap.empty changes
    Recalls changes storage ∧
      (∀ (change : Change) (answered : Bool), change.answer? storage = some answered →
        (answered = true ↔ change.apply storage ≠ storage)) ∧
      ∀ first second : Change, first.partition ≠ second.partition →
        Change.Commute storage first second := by
  intro storage
  constructor
  · exact recalls_changed_empty changes
  constructor
  · intro change answered answers
    exact Change.answer?_iff answers
  · intro first second apart
    exact Change.commute_of_ne storage apart

/-- Two images, of which the first one is stored again, and a partition without entries. -/
def Change.imageAgain : List Change :=
  [.put "images" "/a" (.ok ByteArray.empty) 0, .put "images" "/b" (.ok ByteArray.empty) 1000,
    .openPartition "pages", .put "images" "/a" (.ok ByteArray.empty) 2000]

/-- The image that was stored again is the newest, with the time of its last put.  Removing the
other one makes a difference, and may trade places with a change of the pages. -/
theorem changed_recalls_imageAgain :
    let storage := changed SortedMap.empty Change.imageAgain
    let removal := Change.delete "images" "/b"
    let opening := Change.openPartition "pages"
    storage.urls "images" = ["/b", "/a"] ∧
      storage.lookup "images" "/a" = some ⟨"/a", .ok ByteArray.empty, 2000⟩ ∧
      Recalls Change.imageAgain storage ∧
      removal.answer? storage = some true ∧ removal.apply storage ≠ storage ∧
      removal.partition ≠ opening.partition ∧ Change.Commute storage removal opening := by
  intro storage removal opening
  obtain ⟨recalls, answers, commute⟩ := changed_recalls Change.imageAgain
  have answered : removal.answer? storage = some true := by decide
  have apart : removal.partition ≠ opening.partition := by decide
  have found : storage.lookup "images" "/a" = some ⟨"/a", .ok ByteArray.empty, 2000⟩ := by decide
  exact ⟨by decide, found, recalls, answered, (answers removal true answered).mp rfl, apart,
    commute removal opening apart⟩

end Storage

end CachePolicy
