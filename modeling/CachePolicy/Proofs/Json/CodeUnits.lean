import CachePolicy.Json.Canonical
import Mathlib.Data.List.Basic

/-!
# Texts as code units

A script sees a text as its UTF-16 code units.  No character begins or ends with the code
units of another one, so a text begins or ends with another just when their code units do.
-/

namespace CachePolicy.Json

/-! ## Codes -/

section Code

variable {α β : Type}

/-- A code in which no word begins with another one. -/
structure PrefixFree (code : α → List β) : Prop where
  ne_nil : ∀ a, code a ≠ []
  head_eq : ∀ a b rest other, code a ++ rest = code b ++ other → a = b

/-- A message begins with another one just when its code does. -/
theorem PrefixFree.prefix_iff {code : α → List β} (free : PrefixFree code) (first second : List α) :
    first.flatMap code <+: second.flatMap code ↔ first <+: second := by
  constructor
  · intro starts
    induction first generalizing second with
    | nil => exact List.nil_prefix
    | cons a first ih =>
        obtain ⟨rest, whole⟩ := starts
        rw [List.flatMap_cons, List.append_assoc] at whole
        cases second with
        | nil =>
            rw [List.flatMap_nil] at whole
            exact absurd (List.append_eq_nil_iff.mp whole).1 (free.ne_nil a)
        | cons b second =>
            rw [List.flatMap_cons] at whole
            obtain rfl := free.head_eq a b _ _ whole
            rw [List.append_cancel_left_eq] at whole
            exact List.cons_prefix_cons.mpr ⟨rfl, ih second ⟨rest, whole⟩⟩
  · rintro ⟨rest, rfl⟩
    rw [List.flatMap_append]
    exact List.prefix_append _ _

theorem PrefixFree.injective {code : α → List β} (free : PrefixFree code) {first second : List α}
    (same : first.flatMap code = second.flatMap code) : first = second := by
  have starts := (free.prefix_iff first second).mp (same ▸ List.prefix_rfl)
  have back := (free.prefix_iff second first).mp (same ▸ List.prefix_rfl)
  exact starts.eq_of_length_le back.length_le

end Code

/-! ## Code units -/

/-- No character is one of the numbers that halves of others are taken from. -/
theorem toNat_lt_or_lt (c : Char) :
    c.toNat < 0xD800 ∨ 0xDFFF < c.toNat ∧ c.toNat < 0x110000 :=
  c.valid

theorem prefixFree_charUnits : PrefixFree charUnits where
  ne_nil c := by
    rw [charUnits]
    split <;> exact List.cons_ne_nil _ _
  head_eq c d rest other same := by
    have validC := toNat_lt_or_lt c
    have validD := toNat_lt_or_lt d
    apply Char.toNat_inj.mp
    simp only [charUnits] at same
    split at same
    · split at same
      · exact (List.cons.inj same).1
      · have head := (List.cons.inj same).1
        omega
    · split at same
      · have head := (List.cons.inj same).1
        omega
      · obtain ⟨high, tail⟩ := List.cons.inj same
        have low := (List.cons.inj tail).1
        omega

/-- Read from the end, no character begins with another one either. -/
theorem prefixFree_reverse_charUnits : PrefixFree fun c => (charUnits c).reverse where
  ne_nil c := by
    rw [Ne, List.reverse_eq_nil_iff]
    exact prefixFree_charUnits.ne_nil c
  head_eq c d rest other same := by
    have validC := toNat_lt_or_lt c
    have validD := toNat_lt_or_lt d
    apply Char.toNat_inj.mp
    simp only [charUnits] at same
    split at same
    · split at same
      · exact (List.cons.inj same).1
      · have head := (List.cons.inj same).1
        omega
    · split at same
      · have head := (List.cons.inj same).1
        omega
      · obtain ⟨low, tail⟩ := List.cons.inj same
        have high := (List.cons.inj tail).1
        omega

theorem reverse_units (text : String) :
    (units text).reverse = text.toList.reverse.flatMap fun c => (charUnits c).reverse := by
  rw [units, List.reverse_flatMap]
  rfl

theorem units_inj {first second : String} : units first = units second ↔ first = second := by
  constructor
  · intro same
    exact String.toList_injective (prefixFree_charUnits.injective same)
  · intro same
    rw [same]

theorem isPrefixOf_units (first second : String) :
    (units first).isPrefixOf (units second) = first.toList.isPrefixOf second.toList := by
  rw [Bool.eq_iff_iff, List.isPrefixOf_iff_prefix, List.isPrefixOf_iff_prefix]
  exact prefixFree_charUnits.prefix_iff _ _

theorem isSuffixOf_units (first second : String) :
    (units first).isSuffixOf (units second) = first.toList.isSuffixOf second.toList := by
  rw [Bool.eq_iff_iff, List.isSuffixOf_iff_suffix, List.isSuffixOf_iff_suffix,
    ← List.reverse_prefix, reverse_units, reverse_units,
    prefixFree_reverse_charUnits.prefix_iff, List.reverse_prefix]

end CachePolicy.Json
