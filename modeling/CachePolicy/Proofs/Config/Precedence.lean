import CachePolicy.Proofs.Config.Layers
import Mathlib.Data.List.Infix

/-!
# Precedence of layers

A later layer decides what a way leads to, as far as it goes there: up to a value that is no
object nothing of the earlier layer is seen, and beside the later layer the earlier one is as it
was.  Only where both layers have an object are their members joined, those of the earlier layer
first.  So to lay a layer over itself, or over what it already lies over, changes nothing.
-/

namespace CachePolicy

namespace Json

variable {value inner : Json} {fields : List (String × Json)} {key : String}
  {way front rest : List String}

/-! ## Objects and ways -/

/-- A value is an object. -/
def IsObject (value : Json) : Prop := ∃ fields, value = .obj fields

theorem get?_of_not_isObject (plain : ¬value.IsObject) (key : String) : value.get? key = none := by
  cases value with
  | obj fields => exact absurd ⟨fields, rfl⟩ plain
  | null | bool | num | str | arr => rfl

theorem at?_append (front rest : List String) (value : Json) :
    value.at? (front ++ rest) = (value.at? front).bind (at? rest) := by
  induction front generalizing value with
  | nil => rfl
  | cons key front ih =>
      rw [List.cons_append, at?_cons, at?_cons, Option.bind_assoc]
      exact congrArg _ (funext ih)

/-- A way of some keys begins at an object. -/
theorem at?_cons_eq_some_iff :
    value.at? (key :: way) = some inner ↔
      ∃ fields middle, value = .obj fields ∧ fields.lookup key = some middle ∧
        middle.at? way = some inner := by
  rw [at?_cons, Option.bind_eq_some_iff]
  constructor
  · rintro ⟨middle, found, leads⟩
    cases value with
    | obj fields => exact ⟨fields, middle, rfl, found, leads⟩
    | null | bool | num | str | arr => cases found
  · rintro ⟨fields, middle, rfl, found, leads⟩
    exact ⟨middle, found, leads⟩

/-- What holds of each value that is no object, and of an object if of its members, holds of
every value. -/
theorem induction_members {motive : Json → Prop}
    (alone : ∀ value, ¬value.IsObject → motive value)
    (object : ∀ fields, (∀ member ∈ fields, motive member.2) → motive (.obj fields)) :
    ∀ value, motive value
  | .obj fields => object fields fun member _ => induction_members alone object member.2
  | .null => alone _ nofun
  | .bool _ => alone _ nofun
  | .num _ => alone _ nofun
  | .str _ => alone _ nofun
  | .arr _ => alone _ nofun
termination_by value => sizeOf value
decreasing_by
  have smaller := List.sizeOf_lt_of_mem ‹_ ∈ fields›
  obtain ⟨key, value⟩ := member
  simp only [Prod.mk.sizeOf_spec, obj.sizeOf_spec] at smaller ⊢
  omega

/-- Every object that a way leads to has distinct keys, as a map has. -/
def Distinct (value : Json) : Prop :=
  ∀ way fields, value.at? way = some (.obj fields) → (fields.map (·.1)).Nodup

namespace Distinct

theorem nodup (distinct : (obj fields).Distinct) : (fields.map (·.1)).Nodup :=
  distinct [] fields rfl

theorem member (distinct : (obj fields).Distinct) (found : fields.lookup key = some value) :
    value.Distinct := by
  intro way inner leads
  exact distinct (key :: way) inner (at?_cons_eq_some_iff.mpr ⟨fields, value, rfl, found, leads⟩)

theorem of_not_isObject (plain : ¬value.IsObject) : value.Distinct := by
  intro way fields leads
  cases way with
  | nil => exact absurd ⟨fields, Option.some.inj leads⟩ plain
  | cons key way =>
      rw [at?_cons, get?_of_not_isObject plain] at leads
      cases leads

theorem obj (nodup : (fields.map (·.1)).Nodup)
    (members : ∀ member ∈ fields, member.2.Distinct) : (Json.obj fields).Distinct := by
  intro way inner leads
  cases way with
  | nil =>
      cases leads
      exact nodup
  | cons key way =>
      obtain ⟨_, middle, same, found, leads⟩ := at?_cons_eq_some_iff.mp leads
      cases same
      exact members _ ((SortedMap.mem_iff_lookup nodup).mpr found) way inner leads

end Distinct

end Json

namespace Layers

variable {base overlay value : Json} {own fields : List (String × Json)}
  {way front : List String}

/-! ## Along a way -/

theorem covered_of_not_isObject (base : Json) (plain : ¬overlay.IsObject) :
    covered base overlay = overlay := by
  rw [covered]
  rintro _ fields rfl rfl
  exact absurd ⟨fields, rfl⟩ plain

theorem covered_of_base_not_isObject (plain : ¬base.IsObject) (overlay : Json) :
    covered base overlay = overlay := by
  rw [covered]
  rintro own _ rfl
  exact absurd ⟨own, rfl⟩ plain

/-- An object over a value is merged with it key by key. -/
theorem get?_covered_obj (base : Json) (fields : List (String × Json)) (key : String) :
    (covered base (.obj fields)).get? key =
      (base.get? key).merge covered (fields.lookup key) := by
  by_cases object : base.IsObject
  · obtain ⟨own, rfl⟩ := object
    rw [covered_obj]
    exact lookup_coveredFields
  · rw [covered_of_base_not_isObject object, Json.get?_of_not_isObject object,
      Option.merge_none_left]
    rfl

/-- Where the later layer has a value, it lies over what the earlier layer has there. -/
theorem at?_covered_of_some (base : Json) (leads : overlay.at? way = some value) :
    (covered base overlay).at? way = (base.at? way).merge covered (some value) := by
  induction way generalizing base overlay with
  | nil =>
      cases leads
      rfl
  | cons key way ih =>
      obtain ⟨fields, middle, rfl, found, leads⟩ := Json.at?_cons_eq_some_iff.mp leads
      rw [Json.at?_cons, Json.at?_cons, get?_covered_obj, found]
      cases base.get? key with
      | none =>
          rw [Option.merge_none_left, Option.bind_some, Option.bind_none, leads,
            Option.merge_none_left]
      | some below => exact ih below leads

/-- Beside the later layer, the earlier one is as it was. -/
theorem at?_covered_of_none (base : Json) (ends : overlay.at? way = none)
    (objects : ∀ front, front <+: way → front ≠ way →
      ∀ value, overlay.at? front = some value → value.IsObject) :
    (covered base overlay).at? way = base.at? way := by
  induction way generalizing base overlay with
  | nil => cases ends
  | cons key way ih =>
      obtain ⟨fields, rfl⟩ := objects [] List.nil_prefix nofun overlay rfl
      rw [Json.at?_cons, Json.at?_cons, get?_covered_obj]
      cases found : fields.lookup key with
      | none => rw [Option.merge_none_right]
      | some middle =>
          have ends : middle.at? way = none := by
            rw [Json.at?_cons, show (Json.obj fields).get? key = some middle from found] at ends
            exact ends
          cases base.get? key with
          | none => rw [Option.merge_none_left, Option.bind_some, Option.bind_none, ends]
          | some below =>
              refine ih below ends ?_
              intro front begins other value leads
              refine objects (key :: front) (List.cons_prefix_cons.mpr ⟨rfl, begins⟩) ?_ value ?_
              · exact fun same => other (List.cons.inj same).2
              · exact Json.at?_cons_eq_some_iff.mpr ⟨fields, middle, rfl, found, leads⟩

/-- A value that is no object is what the later layer has. -/
theorem at?_covered_of_not_isObject (base : Json) (leads : overlay.at? way = some value)
    (plain : ¬value.IsObject) : (covered base overlay).at? way = some value := by
  rw [at?_covered_of_some base leads]
  cases base.at? way with
  | none => rfl
  | some below => exact congrArg some (covered_of_not_isObject below plain)

/-- Nothing lies behind a value that is no object. -/
theorem at?_covered_of_blocked (base : Json) (begins : front <+: way) (shorter : front ≠ way)
    (leads : overlay.at? front = some value) (plain : ¬value.IsObject) :
    (covered base overlay).at? way = none := by
  obtain ⟨rest, rfl⟩ := begins
  rw [Json.at?_append, at?_covered_of_not_isObject base leads plain, Option.bind_some]
  cases rest with
  | nil => exact absurd (List.append_nil front).symm shorter
  | cons key rest => rw [Json.at?_cons, Json.get?_of_not_isObject plain, Option.bind_none]

theorem at?_covered_of_obj (leads : overlay.at? way = some (.obj fields))
    (other : ∀ own, base.at? way ≠ some (.obj own)) :
    (covered base overlay).at? way = some (.obj fields) := by
  rw [at?_covered_of_some base leads]
  cases found : base.at? way with
  | none => rfl
  | some below =>
      refine congrArg some (covered_of_base_not_isObject ?_ _)
      rintro ⟨own, rfl⟩
      exact other own found

theorem at?_covered_of_objs (first : base.at? way = some (.obj own))
    (leads : overlay.at? way = some (.obj fields)) :
    (covered base overlay).at? way = some (.obj (coveredFields own fields)) := by
  rw [at?_covered_of_some base leads, first]
  exact congrArg some covered_obj

/-- The keys of an object with a later one over it: its own, and then those that are new. -/
theorem map_fst_coveredFields (own fields : List (String × Json)) :
    (coveredFields own fields).map (·.1) =
      own.map (·.1) ++ (fields.map (·.1)).filter (· ∉ own.map (·.1)) := by
  have new (key : String) : (own.lookup key).isNone = decide (key ∉ own.map (·.1)) := by
    rw [Bool.eq_iff_iff, Option.isNone_iff_eq_none, decide_eq_true_iff,
      SortedMap.mem_map_fst_iff_lookup, Option.eq_none_iff_forall_ne_some, not_exists]
  rw [coveredFields, List.map_append, List.map_map, List.filter_map]
  refine congrArg₂ _ rfl (congrArg _ (List.filter_congr fun member _ => ?_))
  exact new member.1

/-- Merging keeps keys distinct. -/
theorem distinct_covered (first : base.Distinct) (later : overlay.Distinct) :
    (covered base overlay).Distinct := by
  intro way fields leads
  cases found : overlay.at? way with
  | none =>
      by_cases objects : ∀ front, front <+: way → front ≠ way →
          ∀ value, overlay.at? front = some value → value.IsObject
      · rw [at?_covered_of_none base found objects] at leads
        exact first way fields leads
      · simp only [not_forall] at objects
        obtain ⟨front, begins, shorter, value, stops, plain⟩ := objects
        rw [at?_covered_of_blocked base begins shorter stops plain] at leads
        cases leads
  | some value =>
      by_cases object : value.IsObject
      · obtain ⟨members, rfl⟩ := object
        by_cases joined : ∃ own, base.at? way = some (.obj own)
        · obtain ⟨own, below⟩ := joined
          rw [at?_covered_of_objs below found] at leads
          cases leads
          exact nodup_coveredFields (first way own below) (later way members found)
        · rw [at?_covered_of_obj found (not_exists.mp joined)] at leads
          cases leads
          exact later way _ found
      · rw [at?_covered_of_not_isObject base found object] at leads
        cases leads
        exact absurd ⟨fields, rfl⟩ object

/-! ## A layer twice -/

/-- An object stays as it is when each member stays as it is and no member is new. -/
theorem coveredFields_eq_self
    (same : ∀ member ∈ own, ∀ later, fields.lookup member.1 = some later →
      covered member.2 later = member.2)
    (known : ∀ member ∈ fields, ∃ value, own.lookup member.1 = some value) :
    coveredFields own fields = own := by
  have kept : ∀ member ∈ own,
      (member.1, coveredMember member.1 member.2 fields) = member := by
    intro member listed
    rw [coveredMember_eq]
    cases found : fields.lookup member.1 with
    | none => rfl
    | some later => exact Prod.ext rfl (same member listed later found)
  have added : fields.filter (fun member => (own.lookup member.1).isNone) = [] := by
    apply List.filter_eq_nil_iff.mpr
    intro member listed
    obtain ⟨value, found⟩ := known member listed
    rw [found]
    exact Bool.false_ne_true
  rw [coveredFields, added, List.append_nil, List.map_congr_left kept, List.map_id']

/-- A layer over itself changes nothing. -/
theorem covered_self (distinct : value.Distinct) : covered value value = value := by
  induction value using Json.induction_members with
  | alone value plain => exact covered_of_not_isObject value plain
  | object fields ih =>
      rw [covered_obj]
      refine congrArg Json.obj (coveredFields_eq_self ?_ ?_)
      · rintro ⟨key, value⟩ listed later found
        rw [(SortedMap.mem_iff_lookup distinct.nodup).mp listed] at found
        cases found
        exact ih _ listed (distinct.member ((SortedMap.mem_iff_lookup distinct.nodup).mp listed))
      · rintro ⟨key, value⟩ listed
        exact ⟨value, (SortedMap.mem_iff_lookup distinct.nodup).mp listed⟩

/-- A layer over what it already lies over changes nothing.  The induction is on the layer; its
new members lie over themselves. -/
theorem covered_covered (base : Json) (distinct : overlay.Distinct) :
    covered (covered base overlay) overlay = covered base overlay := by
  induction overlay using Json.induction_members generalizing base with
  | alone overlay plain => rw [covered_of_not_isObject _ plain, covered_of_not_isObject _ plain]
  | object fields ih =>
      by_cases object : base.IsObject
      · obtain ⟨own, rfl⟩ := object
        rw [covered_obj, covered_obj]
        refine congrArg Json.obj (coveredFields_eq_self ?_ ?_)
        · intro member listed later found
          have inside := (SortedMap.mem_iff_lookup distinct.nodup).mpr found
          rcases List.mem_append.mp listed with first | new
          · obtain ⟨⟨key, value⟩, -, rfl⟩ := List.mem_map.mp first
            have merged : coveredMember key value fields = covered value later := by
              rw [coveredMember_eq, found, Option.map_some, Option.getD_some]
            rw [merged]
            exact ih _ inside value (distinct.member found)
          · have mine := (SortedMap.mem_iff_lookup distinct.nodup).mp (List.mem_filter.mp new).1
            rw [mine] at found
            cases found
            exact covered_self (distinct.member mine)
        · intro member listed
          have mine := (SortedMap.mem_iff_lookup distinct.nodup).mp listed
          rw [lookup_coveredFields, mine]
          cases own.lookup member.1 with
          | none => exact ⟨_, rfl⟩
          | some value => exact ⟨_, rfl⟩
      · rw [covered_of_base_not_isObject object, covered_self distinct]

/-- What each way leads to when a later layer lies over an earlier one.  A value of the later
layer that is no object is seen as it is, and nothing behind it; an object too, unless the
earlier layer has one there; and where the later layer ends at an object, the earlier one is seen
as it is.  Two objects are joined: first the keys of the earlier one in its order, then the new
keys in the order of the later one.  To lay a layer over itself, or once more over the same,
changes nothing, and keys that are distinct remain so. -/
theorem later_layer_decides (base overlay : Json) :
    (∀ way value, overlay.at? way = some value → ¬value.IsObject →
      (covered base overlay).at? way = some value) ∧
    (∀ way, overlay.at? way = none →
      (∀ front, front <+: way → front ≠ way →
        ∀ value, overlay.at? front = some value → value.IsObject) →
      (covered base overlay).at? way = base.at? way) ∧
    (∀ front way value, front <+: way → front ≠ way → overlay.at? front = some value →
      ¬value.IsObject → (covered base overlay).at? way = none) ∧
    (∀ way fields, overlay.at? way = some (.obj fields) →
      (∀ own, base.at? way ≠ some (.obj own)) →
      (covered base overlay).at? way = some (.obj fields)) ∧
    (∀ way own fields, base.at? way = some (.obj own) → overlay.at? way = some (.obj fields) →
      ∃ merged, (covered base overlay).at? way = some (.obj merged) ∧
        merged.map (·.1) = own.map (·.1) ++ (fields.map (·.1)).filter (· ∉ own.map (·.1))) ∧
    (overlay.Distinct → covered (covered base overlay) overlay = covered base overlay) ∧
    (base.Distinct → covered base base = base) ∧
    (base.Distinct → overlay.Distinct → (covered base overlay).Distinct) := by
  refine ⟨?_, ?_, ?_, ?_, ?_, covered_covered base, covered_self, distinct_covered⟩
  · intro way value
    exact at?_covered_of_not_isObject base
  · intro way
    exact at?_covered_of_none base
  · intro front way value
    exact at?_covered_of_blocked base
  · intro way fields
    exact at?_covered_of_obj
  · intro way own fields first later
    exact ⟨_, at?_covered_of_objs first later, map_fst_coveredFields own fields⟩

/-- A site's layer, with a queue and strategies. -/
def ofSite : Json :=
  .obj [("backgroundSync", .obj [("name", .str "outbox")]),
    ("cachingStrategies", .obj [("/b", .str "CacheFirst"), ("/a", .str "NetworkOnly")])]

/-- A later layer, without the queue and with other strategies. -/
def ofPage : Json :=
  .obj [("cachingStrategies", .obj [("/b", .str "NetworkFirst"), ("/c", .str "CacheOnly")]),
    ("backgroundSync", .null)]

theorem later_layer_decides_strategies :
    ofSite.Distinct ∧ ofPage.Distinct ∧
      (covered ofSite ofPage).at? ["cachingStrategies", "/b"] = some (.str "NetworkFirst") ∧
      (covered ofSite ofPage).at? ["cachingStrategies", "/a"] = some (.str "NetworkOnly") ∧
      (covered ofSite ofPage).at? ["backgroundSync", "name"] = none ∧
      (∃ merged, (covered ofSite ofPage).at? ["cachingStrategies"] = some (.obj merged) ∧
        merged.map (·.1) = ["/b", "/a", "/c"]) ∧
      covered (covered ofSite ofPage) ofPage = covered ofSite ofPage ∧
      covered ofSite ofSite = ofSite := by
  have texts {fields : List (String × Json)} (nodup : (fields.map (·.1)).Nodup)
      (plain : ∀ member ∈ fields, ¬member.2.IsObject) : (Json.obj fields).Distinct :=
    .obj nodup fun member listed => .of_not_isObject (plain member listed)
  have first : ofSite.Distinct := by
    refine .obj (by decide) (List.forall_mem_cons.mpr ⟨?_, List.forall_mem_singleton.mpr ?_⟩)
    · exact texts (by decide) (by simp [Json.IsObject])
    · exact texts (by decide) (by simp [Json.IsObject])
  have later : ofPage.Distinct := by
    refine .obj (by decide) (List.forall_mem_cons.mpr ⟨?_, List.forall_mem_singleton.mpr ?_⟩)
    · exact texts (by decide) (by simp [Json.IsObject])
    · exact .of_not_isObject nofun
  obtain ⟨seen, kept, hidden, -, joined, again, itself, -⟩ := later_layer_decides ofSite ofPage
  obtain ⟨merged, leads, keys⟩ := joined ["cachingStrategies"] _ _ rfl rfl
  refine ⟨first, later, seen _ _ rfl nofun, ?_, ?_, ⟨merged, leads, keys.trans (by decide)⟩,
    again later, itself first⟩
  · refine kept _ rfl ?_
    intro front begins shorter value leads
    have fronts : front = [] ∨ front = ["cachingStrategies"] := by
      simpa [shorter] using (List.mem_inits _ _).mpr begins
    rcases fronts with rfl | rfl
    · exact ⟨_, (Option.some.inj leads).symm⟩
    · exact ⟨_, (Option.some.inj leads).symm⟩
  · exact hidden ["backgroundSync"] _ .null ⟨["name"], rfl⟩ (by decide) rfl nofun

end Layers

end CachePolicy
