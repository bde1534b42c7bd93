import CachePolicy.Json.Decode
import CachePolicy.Proofs.Data.Outcome
import CachePolicy.Proofs.Json.Canonical
import Mathlib.Data.List.Forall2

/-!
# Records that are read back

An object whose keys are distinct is read as a record when every member is taken: its key is that
of a field, and its value passes the field's check.  What the record then is depends on what stands
under each key and not on the order of the members.

A decoder reads a way of writing when it gives back whatever was written that way.  Each form of
data has one law for that: counts, names, lists, objects with free keys, and the fields of a
record, which may be left out when they are null.
-/

namespace CachePolicy

variable {α β : Type} {shape : Shape} {build : Row → Except DecodeError α}
  {fields : List (String × Json)} {key : String} {value : Json}

namespace Shape

/-- A member is one of the record: its key is that of a field, whose check its value passes. -/
def Takes (shape : Shape) (key : String) (value : Json) : Prop :=
  ∃ field, shape.fields.find? (·.key == key) = some field ∧ field.check value = .ok ()

theorem scan_eq_ok {seen : List String} (distinct : (fields.map (·.1)).Nodup)
    (fresh : ∀ key ∈ fields.map (·.1), key ∉ seen)
    (taken : ∀ key value, (key, value) ∈ fields → shape.Takes key value) :
    shape.scan seen fields = .ok () := by
  induction fields generalizing seen with
  | nil => rfl
  | cons member rest ih =>
      obtain ⟨key, value⟩ := member
      rw [List.map_cons, List.nodup_cons] at distinct
      obtain ⟨field, found, passes⟩ := taken key value List.mem_cons_self
      have unseen : key ∉ seen := fresh key List.mem_cons_self
      have later : shape.scan (key :: seen) rest = .ok () := by
        refine ih distinct.2 ?_ fun key value listed => taken key value (.tail _ listed)
        intro other listed
        rw [List.mem_cons, not_or]
        refine ⟨?_, fresh other (.tail _ listed)⟩
        rintro rfl
        exact distinct.1 listed
      rw [scan, found]
      simp only [List.contains_iff_mem, if_neg unseen, passes]
      exact later

theorem takes_of_scan {seen : List String} (closed : shape.closed = true)
    (scanned : shape.scan seen fields = .ok ()) :
    ∀ key value, (key, value) ∈ fields → shape.Takes key value := by
  induction fields generalizing seen with
  | nil => nofun
  | cons member rest ih =>
      obtain ⟨key, value⟩ := member
      rw [scan] at scanned
      split at scanned
      · next field found =>
        split at scanned
        · cases scanned
        · obtain ⟨⟨⟩, passes, later⟩ := bind_eq_ok_iff.mp scanned
          intro other value' listed
          cases listed with
          | head => exact ⟨field, found, passes⟩
          | tail _ listed => exact ih later other value' listed
      · rw [if_pos closed] at scanned
        cases scanned

/-- An object with distinct keys of which every member is taken is read field by field. -/
theorem readFields_eq (distinct : (fields.map (·.1)).Nodup)
    (taken : ∀ key value, (key, value) ∈ fields → shape.Takes key value) :
    shape.readFields build fields = build (.ofFields fields) := by
  rw [readFields, scan_eq_ok distinct (fun _ _ => List.not_mem_nil) taken]
  rfl

/-- A record without other keys is read from an object with distinct keys just when every member
is taken and the fields make a record. -/
theorem readFields_eq_ok_iff (closed : shape.closed = true) (distinct : (fields.map (·.1)).Nodup)
    {a : α} :
    shape.readFields build fields = .ok a ↔
      (∀ key value, fields.lookup key = some value → shape.Takes key value) ∧
        build (.ofFields fields) = .ok a := by
  simp only [← SortedMap.mem_iff_lookup distinct]
  constructor
  · intro read
    obtain ⟨⟨⟩, scanned, built⟩ := bind_eq_ok_iff.mp read
    exact ⟨takes_of_scan closed scanned, built⟩
  · rintro ⟨taken, built⟩
    rw [readFields_eq distinct taken, built]

end Shape

/-! ## Ways of writing -/

namespace Decode

/-- A decoder gives back what is written in some way, which is never null. -/
structure Reads (decode : Decoder α) (write : α → Json) : Prop where
  read : ∀ a, decode (write a) = .ok a
  ne_null : ∀ a, write a ≠ .null

namespace Reads

variable {decode : Decoder α} {write : α → Json}

theorem check (reads : Reads decode write) (a : α) : Decode.check decode (write a) = .ok () := by
  rw [Decode.check, reads.read]
  rfl

theorem optional (reads : Reads decode write) (a : α) :
    Decode.optional decode (write a) = .ok (some a) := by
  have read := reads.read a
  have filled := reads.ne_null a
  cases written : write a with
  | null => exact absurd written filled
  | bool | num | str | arr | obj =>
      rw [written] at read
      rw [Decode.optional, read]
      · rfl
      · nofun

theorem list (reads : Reads decode write) :
    Reads (Decode.list decode) fun items => .arr (items.map write) where
  read items := by
    change listItems decode (items.map write) = .ok items
    induction items with
    | nil => rfl
    | cons item rest ih =>
        rw [List.map_cons, listItems, reads.read, ih]
        rfl
  ne_null _ := nofun

theorem map (reads : Reads decode write) :
    Reads (Decode.map decode) fun members =>
      .obj (members.map fun (key, a) => (key, write a)) where
  read members := by
    change mapFields decode (members.map fun (key, a) => (key, write a)) = .ok members
    induction members with
    | nil => rfl
    | cons member rest ih =>
        rw [List.map_cons, mapFields, reads.read, ih]
        rfl
  ne_null _ := nofun

end Reads

theorem reads_string : Reads string .str := ⟨fun _ => rfl, nofun⟩

theorem reads_path : Reads path .str := ⟨fun _ => rfl, nofun⟩

theorem reads_bool : Reads bool .bool := ⟨fun _ => rfl, nofun⟩

theorem reads_strs : Reads (list string) Json.strs := reads_string.list

theorem natBelow_nat {bound n : Nat} (wanted : String) (below : n < bound) :
    natBelow bound wanted (Json.nat n) = .ok n := by
  rw [Json.nat, natBelow, if_pos ⟨Int.natCast_nonneg n, Int.ofNat_lt.mpr below⟩, Int.toNat_natCast]

theorem reads_uint32 : Reads uint32 fun n => Json.nat n.toNat where
  read n := by
    rw [uint32, natBelow_nat _ n.toNat_lt]
    exact congrArg Except.ok UInt32.ofNat_toNat
  ne_null _ := nofun

theorem reads_uint64 : Reads uint64 fun n => Json.nat n.toNat where
  read n := by
    rw [uint64, natBelow_nat _ n.toNat_lt]
    exact congrArg Except.ok UInt64.ofNat_toNat
  ne_null _ := nofun

/-- Names that are told apart are read back. -/
theorem reads_choiceWhere {saysNothing : Json → Bool} {names : List (String × α)}
    {name : α → String} (named : ∀ a, names.lookup (name a) = some a) :
    Reads (choiceWhere saysNothing names) fun a => .str (name a) where
  read a := by rw [choiceWhere, Decode.named, named]
  ne_null _ := nofun

end Decode

/-! ## Fields -/

namespace Row

/-- The members of an object of which those without a value are left out. -/
def ofMembers (members : List (String × Option Json)) : Row where
  find key := (members.lookup key).join
  missing := .missingField
  positional := false

theorem ofFields_present {members : List (String × Option Json)}
    (distinct : (members.map (·.1)).Nodup) :
    ofFields (Json.present members) = ofMembers members := by
  have found (key : String) : (Json.present members).lookup key = (members.lookup key).join := by
    cases listed : members.lookup key with
    | none =>
        rw [Option.join_none, Option.eq_none_iff_forall_ne_some]
        intro value other
        have inside := Json.mem_present.mp
          ((SortedMap.mem_iff_lookup (Json.nodup_present distinct)).mpr other)
        rw [(SortedMap.mem_iff_lookup distinct).mp inside] at listed
        cases listed
    | some value =>
        exact Json.lookup_present distinct ((SortedMap.mem_iff_lookup distinct).mpr listed)
  simp only [ofFields, ofMembers, found]

variable {row : Row} {decode : Decoder α} {write : α → Json} {a : α}

theorem required_eq (reads : Decode.Reads decode write) (found : row.find key = some (write a)) :
    row.required key decode = .ok a := by
  rw [required, found]
  exact reads.read a

theorem withDefault_eq {default : α} (reads : Decode.Reads decode write)
    (found : row.find key = some (write a)) : row.withDefault key decode default = .ok a := by
  rw [withDefault, found]
  exact reads.read a

theorem optional_eq {a : Option α} (reads : Decode.Reads decode write)
    (found : row.find key = a.map write) :
    row.withDefault key (Decode.optional decode) none = .ok a := by
  rw [withDefault, found]
  cases a with
  | none => rfl
  | some a => exact reads.optional a

end Row

/-- What is written for a field: its key, and a value that passes its check, or none. -/
structure Field.Fits (field : Field) (member : String × Option Json) : Prop where
  key_eq : field.key = member.1
  passes : ∀ value ∈ member.2, field.check value = .ok ()

namespace Field.Fits

variable {decode : Decoder α} {write : α → Json}

theorem required (reads : Decode.Reads decode write) (a : α) :
    Fits ⟨key, Decode.check decode⟩ (key, some (write a)) := by
  refine ⟨rfl, ?_⟩
  rintro _ ⟨⟩
  exact reads.check a

theorem optional (reads : Decode.Reads decode write) (a : Option α) :
    Fits ⟨key, Decode.check (Decode.optional decode)⟩ (key, a.map write) := by
  refine ⟨rfl, ?_⟩
  intro value written
  obtain ⟨a, rfl, rfl⟩ := Option.map_eq_some_iff.mp written
  change Decode.check (Decode.optional decode) (write a) = .ok ()
  rw [Decode.check, reads.optional]
  rfl

variable {fields : List Field} {members : List (String × Option Json)}

theorem keys_eq (fits : List.Forall₂ Fits fields members) :
    fields.map (·.key) = members.map (·.1) := by
  induction fits with
  | nil => rfl
  | cons fit _ ih => rw [List.map_cons, List.map_cons, fit.key_eq, ih]

theorem exists_find? (distinct : (fields.map (·.key)).Nodup)
    (fits : List.Forall₂ Fits fields members) (written : (key, some value) ∈ members) :
    ∃ field, fields.find? (·.key == key) = some field ∧ field.check value = .ok () := by
  induction fits with
  | nil => cases written
  | @cons field member others rest fit later ih =>
      rw [List.map_cons, List.nodup_cons] at distinct
      cases written with
      | head =>
          refine ⟨field, ?_, fit.passes value rfl⟩
          rw [List.find?_cons_of_pos]
          exact beq_iff_eq.mpr fit.key_eq
      | tail _ written =>
          obtain ⟨found, first, passes⟩ := ih distinct.2 written
          have same : found.key = key := by simpa using List.find?_some first
          refine ⟨found, ?_, passes⟩
          rw [List.find?_cons_of_neg, first]
          rw [beq_iff_eq, ← same]
          intro clash
          exact distinct.1 (clash ▸ List.mem_map_of_mem (List.mem_of_find?_eq_some first))

end Field.Fits

namespace Shape

variable {members : List (String × Option Json)}

theorem takes_of_fits (distinct : shape.keys.Nodup)
    (fits : List.Forall₂ Field.Fits shape.fields members) :
    ∀ key value, (key, value) ∈ Json.present members → shape.Takes key value :=
  fun _ _ written => Field.Fits.exists_find? distinct fits (Json.mem_present.mp written)

/-- An object with the members of a record is read field by field. -/
theorem readFields_present (distinct : shape.keys.Nodup)
    (fits : List.Forall₂ Field.Fits shape.fields members) :
    shape.readFields build (Json.present members) = build (.ofMembers members) := by
  have named : (members.map (·.1)).Nodup := Field.Fits.keys_eq fits ▸ distinct
  rw [readFields_eq (Json.nodup_present named) (takes_of_fits distinct fits),
    Row.ofFields_present named]

end Shape

end CachePolicy
