import CachePolicy.Proofs.Json.RoundTrip
import CachePolicy.Rule.Matcher

/-!
# Matchers as JSON

The JSON of a matcher has no numbers and is not nested deeply, so it is read back from where
it was written, and tells the matcher.
-/

namespace CachePolicy

theorem Destination.lookup_name (destination : Destination) :
    Destination.byName.lookup destination.name = some destination := by
  cases destination <;> decide

theorem Destination.name_injective : Function.Injective Destination.name := by
  intro first second same
  have found := lookup_name first
  rw [same, lookup_name second] at found
  exact (Option.some.inj found).symm

theorem PatternTarget.name_injective : Function.Injective PatternTarget.name := by
  intro first second same
  cases first with
  | url =>
      cases second with
      | url => rfl
      | path => exact absurd same (by decide)
  | path =>
      cases second with
      | url => exact absurd same (by decide)
      | path => rfl

namespace Json

theorem numberlessItems_str (texts : List String) :
    numberlessItems (texts.map .str) = true := by
  induction texts with
  | nil => rfl
  | cons text rest ih => exact ih

theorem nestingItems_str (texts : List String) : nestingItems (texts.map .str) = 0 := by
  induction texts with
  | nil => rfl
  | cons text rest ih =>
      rw [List.map_cons, nestingItems, ih]
      rfl

theorem strs_injective : Function.Injective strs := by
  intro texts others same
  exact (List.map_inj_right fun _ _ => Json.str.inj).mp (Json.arr.inj same)

theorem nesting_strs (texts : List String) : (strs texts).nesting = 1 := by
  rw [strs, nesting, nestingItems_str]

theorem strs_compact_injective : Function.Injective fun texts => (strs texts).compact := by
  intro texts others same
  apply strs_injective
  apply compact_inj
  · exact numberlessItems_str texts
  · rw [nesting_strs]
    decide
  · exact numberlessItems_str others
  · rw [nesting_strs]
    decide
  · exact same

end Json

namespace Matcher

theorem destinations_toJson (destinations : List Destination) :
    destinations.map (·.toJson) = (destinations.map (·.name)).map Json.str := by
  rw [List.map_map]
  rfl

/-- There is no number in the JSON of a matcher. -/
theorem numberless_toJson (matcher : Matcher) : matcher.toJson.numberless = true := by
  cases matcher with
  | destination destinations =>
      rw [toJson, destinations_toJson]
      simp [Json.numberless, Json.numberlessFields, Json.numberlessItems_str, -List.map_map]
  | pathPrefix start => rfl
  | method name => rfl
  | extensions ends =>
      rw [toJson, Json.strs]
      simp [Json.numberless, Json.numberlessFields, Json.numberlessItems_str]
  | pattern source target => rfl

theorem nesting_toJson (matcher : Matcher) : matcher.toJson.nesting < Json.Reader.nestingLimit := by
  cases matcher with
  | destination destinations =>
      rw [toJson, destinations_toJson, Json.nesting]
      simp [Json.nestingFields, Json.nesting, Json.nestingItems_str, -List.map_map]
      decide
  | pathPrefix start => exact Nat.lt_of_le_of_lt (Nat.le_refl 1) (by decide)
  | method name => exact Nat.lt_of_le_of_lt (Nat.le_refl 1) (by decide)
  | extensions ends =>
      rw [toJson, Json.strs, Json.nesting]
      simp [Json.nestingFields, Json.nesting, Json.nestingItems_str]
      decide
  | pattern source target => exact Nat.lt_of_le_of_lt (Nat.le_refl 1) (by decide)

/-- The JSON of a matcher is read back from the program. -/
theorem read_toJson (matcher : Matcher) :
    Json.read matcher.toJson.compact = .ok matcher.toJson :=
  Json.read_compact matcher.numberless_toJson matcher.nesting_toJson

/-- Different matchers are written differently: their kinds are, and so is what they say. -/
theorem toJson_injective : Function.Injective toJson := by
  intro first second same
  cases first <;> cases second <;> simp_all [toJson]
  case destination.destination destinations others =>
    rw [destinations_toJson, destinations_toJson] at same
    have names := (List.map_inj_right fun _ _ => Json.str.inj).mp same
    exact (List.map_inj_right Destination.name_injective).mp names
  case extensions.extensions ends others => exact Json.strs_injective same
  case pattern.pattern target _ other => exact PatternTarget.name_injective same.2

end Matcher

end CachePolicy
