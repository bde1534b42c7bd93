import CachePolicy.Config.Merge
import CachePolicy.Proofs.Config.Format

/-!
# Defaults as a layer

A value that an option has by default is written twice: in the lowest layer of a configuration, and
as what reading takes where nothing is written.  The two are the same.  Merging goes key by key,
and no later value is joined to one of the lowest layer, since there the only object is empty.
Layers over the lowest one therefore have what they have without it, and its values elsewhere.
-/

namespace CachePolicy

namespace Layers

variable {base overlay defaults fields full layer : List (String × Json)} {key : String}

/-- The members of an object with a later object over it. -/
def coveredFields (base overlay : List (String × Json)) : List (String × Json) :=
  base.map (fun member => (member.1, coveredMember member.1 member.2 overlay)) ++
    overlay.filter fun member => (base.lookup member.1).isNone

theorem covered_obj : covered (.obj base) (.obj overlay) = .obj (coveredFields base overlay) := by
  rw [covered]
  rfl

theorem coveredMember_eq (value : Json) :
    coveredMember key value overlay = ((overlay.lookup key).map (covered value)).getD value := by
  induction overlay with
  | nil => rw [coveredMember, List.lookup_nil, Option.map_none, Option.getD_none]
  | cons member rest ih =>
      obtain ⟨other, later⟩ := member
      rw [coveredMember, SortedMap.lookup_cons_eq]
      by_cases same : key = other
      · rw [if_pos (beq_iff_eq.mpr same.symm), if_pos same, Option.map_some, Option.getD_some]
      · rw [if_neg (by simpa using Ne.symm same), if_neg same, ih]

theorem lookup_map_covered (overlay : List (String × Json)) :
    (base.map fun member => (member.1, coveredMember member.1 member.2 overlay)).lookup key =
      (base.lookup key).map fun value => coveredMember key value overlay := by
  induction base with
  | nil => rfl
  | cons member rest ih =>
      obtain ⟨other, value⟩ := member
      rw [List.map_cons, SortedMap.lookup_cons_eq, SortedMap.lookup_cons_eq, ih]
      by_cases same : key = other
      · rw [if_pos same, if_pos same, same, Option.map_some]
      · rw [if_neg same, if_neg same]

theorem lookup_filter_of_pos {keep : String × Json → Bool}
    (kept : ∀ value, keep (key, value) = true) :
    (overlay.filter keep).lookup key = overlay.lookup key := by
  induction overlay with
  | nil => rfl
  | cons member rest ih =>
      obtain ⟨other, value⟩ := member
      rw [SortedMap.lookup_cons_eq]
      by_cases same : key = other
      · rw [← same, if_pos rfl, List.filter_cons_of_pos (kept value), SortedMap.lookup_cons_eq,
          if_pos rfl]
      · rw [if_neg same, List.filter_cons]
        split
        · rw [SortedMap.lookup_cons_eq, if_neg same, ih]
        · exact ih

/-- Objects are merged key by key. -/
theorem lookup_coveredFields :
    (coveredFields base overlay).lookup key =
      (base.lookup key).merge covered (overlay.lookup key) := by
  rw [coveredFields, List.lookup_append, lookup_map_covered]
  cases first : base.lookup key with
  | none =>
      have added (value : Json) : (base.lookup (key, value).1).isNone = true := by
        rw [first, Option.isNone_none]
      rw [Option.map_none, Option.none_or, lookup_filter_of_pos added, Option.merge_none_left]
  | some value =>
      rw [Option.map_some, Option.some_or, coveredMember_eq]
      cases overlay.lookup key with
      | none => rfl
      | some later => rfl

theorem nodup_coveredFields (distinct : (base.map (·.1)).Nodup)
    (later : (overlay.map (·.1)).Nodup) : ((coveredFields base overlay).map (·.1)).Nodup := by
  rw [coveredFields, List.map_append, List.map_map, List.nodup_append]
  refine ⟨distinct, later.sublist (List.filter_sublist.map _), ?_⟩
  intro key listed other added same
  obtain ⟨member, kept, rfl⟩ := List.mem_map.mp added
  obtain ⟨value, found⟩ := SortedMap.mem_map_fst_iff_lookup.mp listed
  have absent := (List.mem_filter.mp kept).2
  rw [← same, found] at absent
  cases absent

/-- Whether later members may be joined to those of a value. -/
def hasMembers : Json → Bool
  | .obj (_ :: _) => true
  | _ => false

/-- A value without members is replaced as a whole. -/
theorem covered_of_not_hasMembers {value : Json} (alone : hasMembers value = false)
    (later : Json) : covered value later = later := by
  cases value with
  | obj members =>
      cases members with
      | cons => cases alone
      | nil =>
          cases later with
          | obj fields =>
              rw [covered_obj, coveredFields, List.map_nil, List.nil_append]
              exact congrArg Json.obj (List.filter_eq_self.mpr fun _ _ => rfl)
          | null | bool | num | str | arr =>
              rw [covered]
              nofun
  | null | bool | num | str | arr =>
      rw [covered]
      nofun

/-- Two objects with distinct keys of which one has what the other has, and defaults elsewhere. -/
structure Underlaid (defaults fields full : List (String × Json)) : Prop where
  distinct : (fields.map (·.1)).Nodup
  full_distinct : (full.map (·.1)).Nodup
  lookup_eq : ∀ key, full.lookup key = (fields.lookup key).or (defaults.lookup key)

theorem Underlaid.covered
    (alone : ∀ key value, defaults.lookup key = some value → hasMembers value = false)
    (later : (layer.map (·.1)).Nodup) (underlaid : Underlaid defaults fields full) :
    Underlaid defaults (coveredFields fields layer) (coveredFields full layer) where
  distinct := nodup_coveredFields underlaid.distinct later
  full_distinct := nodup_coveredFields underlaid.full_distinct later
  lookup_eq key := by
    rw [lookup_coveredFields, lookup_coveredFields, underlaid.lookup_eq]
    cases given : fields.lookup key with
    | some value =>
        cases layer.lookup key with
        | none => rfl
        | some later => rfl
    | none =>
        rw [Option.none_or, Option.merge_none_left]
        cases default : defaults.lookup key with
        | none => rw [Option.merge_none_left, Option.or_none]
        | some value =>
            cases layer.lookup key with
            | none => rfl
            | some later =>
                have replaced := covered_of_not_hasMembers (alone key value default) later
                exact congrArg some replaced

/-- Layers over defaults have what they have over nothing, and the defaults elsewhere. -/
theorem exists_underlaid
    (alone : ∀ key value, defaults.lookup key = some value → hasMembers value = false)
    {layers : List (List (String × Json))}
    (distinct : ∀ fields ∈ layers, (fields.map (·.1)).Nodup)
    (underlaid : Underlaid defaults fields full) :
    ∃ merged whole, (layers.map .obj).foldl Layers.covered (.obj fields) = .obj merged ∧
      (layers.map .obj).foldl Layers.covered (.obj full) = .obj whole ∧
      Underlaid defaults merged whole := by
  induction layers generalizing fields full with
  | nil => exact ⟨fields, full, rfl, rfl, underlaid⟩
  | cons layer rest ih =>
      rw [List.map_cons, List.foldl_cons, List.foldl_cons, covered_obj, covered_obj]
      exact ih (fun fields listed => distinct fields (.tail _ listed))
        (underlaid.covered alone (distinct layer List.mem_cons_self))

namespace Underlaid

variable {α : Type} {decode : Decoder α} {write : α → Json} {default : α}

/-- A field whose default is written is read as without it. -/
theorem withDefault_eq (underlaid : Underlaid defaults fields full)
    (reads : Decode.Reads decode write) (listed : defaults.lookup key = some (write default)) :
    (Row.ofFields full).withDefault key decode default =
      (Row.ofFields fields).withDefault key decode default := by
  simp only [Row.withDefault, Row.ofFields, underlaid.lookup_eq, listed]
  cases fields.lookup key with
  | none => exact reads.read default
  | some value => rfl

/-- A field whose default is not written is read as it is. -/
theorem withDefault_eq_of_unlisted (underlaid : Underlaid defaults fields full)
    (unlisted : defaults.lookup key = none) :
    (Row.ofFields full).withDefault key decode default =
      (Row.ofFields fields).withDefault key decode default := by
  simp only [Row.withDefault, Row.ofFields, underlaid.lookup_eq, unlisted, Option.or_none]

end Underlaid

end Layers

/-! ## The lowest layer -/

namespace Options

variable {fields full : List (String × Json)}

/-- The members of the lowest layer. -/
def builtinFields : List (String × Json) := Json.present ({} : Options).members

theorem builtin_eq : builtin = .obj builtinFields := rfl

theorem nodup_builtinFields : (builtinFields.map (·.1)).Nodup := by decide

theorem not_hasMembers_of_builtin {key : String} {value : Json}
    (listed : builtinFields.lookup key = some value) : Layers.hasMembers value = false := by
  have alone : ∀ member ∈ builtinFields, Layers.hasMembers member.2 = false := by decide
  exact alone _ ((SortedMap.mem_iff_lookup nodup_builtinFields).mpr listed)

theorem takes_of_builtin {key : String} {value : Json}
    (listed : builtinFields.lookup key = some value) : shape.Takes key value :=
  Shape.takes_of_fits (by decide) (fits_members {}) key value
    ((SortedMap.mem_iff_lookup nodup_builtinFields).mpr listed)

/-- Members that are there by default make the options that reading makes without them. -/
theorem build_eq_of_underlaid (underlaid : Layers.Underlaid builtinFields fields full) :
    build (.ofFields full) = build (.ofFields fields) := by
  rw [build, underlaid.withDefault_eq Decode.reads_uint64 rfl,
    underlaid.withDefault_eq Decode.reads_strs rfl,
    underlaid.withDefault_eq Decode.reads_strs rfl,
    underlaid.withDefault_eq Decode.reads_string.map rfl,
    underlaid.withDefault_eq RuntimeEntry.reads.list rfl,
    underlaid.withDefault_eq_of_unlisted rfl,
    underlaid.withDefault_eq Decode.reads_string rfl,
    underlaid.withDefault_eq Decode.reads_strs rfl,
    underlaid.withDefault_eq Decode.reads_string rfl,
    underlaid.withDefault_eq Decode.reads_bool rfl,
    underlaid.withDefault_eq Decode.reads_bool rfl,
    underlaid.withDefault_eq Decode.reads_bool rfl,
    underlaid.withDefault_eq Decode.reads_bool rfl,
    underlaid.withDefault_eq Decode.reads_string rfl,
    underlaid.withDefault_eq Preset.reads rfl,
    underlaid.withDefault_eq Decode.reads_strs rfl,
    underlaid.withDefault_eq_of_unlisted rfl]
  rfl

end Options

/-- What holds by default is the same whether it is written as the lowest layer or taken where
nothing is written.  Layers with distinct keys are read over the lowest layer just when they are
read by themselves, and as the same options, with the strategies in the same order. -/
theorem layered_defaults_agree {layers : List (List (String × Json))}
    (distinct : ∀ fields ∈ layers, (fields.map (·.1)).Nodup) (options : Options) :
    Options.decode (Layers.merge (Options.builtin :: layers.map .obj)) = .ok options ↔
      Options.decode ((layers.map .obj).foldl Layers.covered (.obj [])) = .ok options := by
  have start : Layers.Underlaid Options.builtinFields [] Options.builtinFields :=
    ⟨.nil, Options.nodup_builtinFields, fun _ => rfl⟩
  obtain ⟨fields, full, alone, whole, underlaid⟩ :=
    Layers.exists_underlaid (fun _ _ => Options.not_hasMembers_of_builtin) distinct start
  have merged : Layers.merge (Options.builtin :: layers.map .obj) = .obj full := by
    rw [Layers.merge, List.foldl_cons, ← whole, Options.builtin_eq]
    rfl
  rw [merged, alone, Options.decode, Shape.read, Shape.read,
    Shape.readFields_eq_ok_iff rfl underlaid.full_distinct,
    Shape.readFields_eq_ok_iff rfl underlaid.distinct, Options.build_eq_of_underlaid underlaid]
  refine and_congr_left fun _ => ?_
  constructor
  · intro taken key value listed
    refine taken key value ?_
    rw [underlaid.lookup_eq, listed, Option.some_or]
  · intro taken key value listed
    rw [underlaid.lookup_eq, Option.or_eq_some_iff] at listed
    obtain given | ⟨-, default⟩ := listed
    · exact taken key value given
    · exact Options.takes_of_builtin default

/-- A layer with faults, and one that mends them: strategies over strategies, a queue over a text,
and no code in place of a number. -/
def Layers.mended : List (List (String × Json)) :=
  [[("debug", .str "yes"), ("backgroundSync", .str "outbox"), ("customServiceWorker", Json.nat 1),
      ("cachingStrategies", .obj [("/b", .str "CacheFirst"), ("/a", .str "NetworkOnly")])],
    [("backgroundSync", .obj [("name", .str "outbox")]), ("customServiceWorker", .null),
      ("cachingStrategies", .obj [("/c", .str "CacheOnly"), ("/b", .str "NetworkFirst")]),
      ("debug", .bool true)]]

/-- The layer that mends the other is read the same over the lowest layer and without it. -/
theorem layered_defaults_agree_mended :
    (∀ fields ∈ Layers.mended, (fields.map (·.1)).Nodup) ∧
      ∃ options : Options, options.debug = true ∧
        options.cachingStrategies =
          [("/b", "NetworkFirst"), ("/a", "NetworkOnly"), ("/c", "CacheOnly")] ∧
        Options.decode ((Layers.mended.map .obj).foldl Layers.covered (.obj [])) = .ok options ∧
        Options.decode (Layers.merge (Options.builtin :: Layers.mended.map .obj)) =
          .ok options := by
  have distinct : ∀ fields ∈ Layers.mended, (fields.map (·.1)).Nodup := by decide
  let options : Options :=
    { backgroundSync := some ⟨"outbox", 1440⟩
      cachingStrategies := [("/b", "NetworkFirst"), ("/a", "NetworkOnly"), ("/c", "CacheOnly")]
      debug := true }
  have read :
      Options.decode ((Layers.mended.map .obj).foldl Layers.covered (.obj [])) = .ok options := by
    rfl
  exact ⟨distinct, options, rfl, rfl, read, (layered_defaults_agree distinct options).mpr read⟩

end CachePolicy
