import CachePolicy.Text.Case
import Mathlib

/-!
# Upper case

The upper case of a text has no small letter of ASCII, whatever characters the text is made from.
So a text that has one is the upper case of no text at all.  A text of ASCII that has none is the
upper case of every text that is the same but for the case of letters.
-/

namespace CachePolicy.Text

theorem isLower_iff {c : Char} : c.isLower = true ↔ 97 ≤ c.toNat ∧ c.toNat ≤ 122 := by
  simp only [Char.isLower, Bool.and_eq_true, decide_eq_true_eq, ge_iff_le, UInt32.le_iff_toNat_le]
  rfl

/-! ## Characters beyond ASCII -/

/-- Characters with several characters as their upper-case form have no small letter among them. -/
theorem upperExpansions_apart : ∀ entry ∈ upperExpansions, ∀ code ∈ entry.2,
    code < 97 ∨ 122 < code := by
  decide +kernel

/-- No run leads to small letters. -/
theorem upperRuns_apart : ∀ run ∈ upperRunsLow ++ upperRunsHigh,
    run.last + run.shift < 97 ∨ 122 < run.first + run.shift := by
  decide +kernel

theorem isLower_ofNat {code : Nat} (apart : code < 97 ∨ 122 < code) :
    (Char.ofNat code).isLower = false := by
  rw [← Bool.not_eq_true, isLower_iff, Char.toNat_ofNat]
  split <;> omega

theorem isLower_of_mem_upperChar {c d : Char} (member : d ∈ upperChar c) : d.isLower = false := by
  rw [upperChar] at member
  split at member
  next =>
    rw [List.mem_singleton.mp member]
    exact c.isLower_toUpper_eq_false
  next beyond =>
    split at member
    next forms listed =>
      obtain ⟨code, among, rfl⟩ := List.mem_map.mp member
      obtain ⟨before, after, listed, -⟩ := List.lookup_eq_some_iff.mp listed
      exact isLower_ofNat (upperExpansions_apart (c.toNat, forms) (by simp [listed]) code among)
    next =>
      dsimp only at member
      split at member
      next run found =>
        rw [List.mem_singleton.mp member]
        have listed : run ∈ upperRunsLow ++ upperRunsHigh := by
          have among := List.mem_of_find?_eq_some found
          split at among
          · exact List.mem_append_left _ among
          · exact List.mem_append_right _ among
        have within := List.find?_some found
        simp only [Bool.and_eq_true, decide_eq_true_eq] at within
        have apart := upperRuns_apart run listed
        apply isLower_ofNat
        omega
      next =>
        rw [List.mem_singleton.mp member, ← Bool.not_eq_true, isLower_iff]
        omega

/-! ## Texts -/

/-- A text of ASCII. -/
def IsAscii (text : String) : Prop := ∀ c ∈ text.toList, c.toNat < 128

instance (text : String) : Decidable (IsAscii text) := List.decidableBAll _ _

/-- A text without small letters of ASCII. -/
def IsUpper (text : String) : Prop := ∀ c ∈ text.toList, c.isLower = false

instance (text : String) : Decidable (IsUpper text) := List.decidableBAll _ _

/-- Texts are the same but for the case of letters of ASCII. -/
def SameButCase (first second : String) : Prop :=
  first.toList.map Char.toUpper = second.toList.map Char.toUpper

instance (first second : String) : Decidable (SameButCase first second) :=
  inferInstanceAs (Decidable (_ = _))

theorem isUpper_upper (text : String) : IsUpper (upper text) := by
  intro c member
  rw [upper, String.toList_ofList] at member
  obtain ⟨source, -, made⟩ := List.mem_flatMap.mp member
  exact isLower_of_mem_upperChar made

theorem toNat_lt_of_toUpper {c : Char} (ascii : c.toUpper.toNat < 128) : c.toNat < 128 := by
  by_cases small : c.isLower = true
  · have := isLower_iff.mp small
    omega
  · rwa [Char.toUpper_eq_of_not_isLower small] at ascii

theorem IsUpper.map_toUpper {text : String} (capital : IsUpper text) :
    text.toList.map Char.toUpper = text.toList := by
  refine (List.map_congr_left fun c member => ?_).trans (List.map_id _)
  apply Char.toUpper_eq_of_not_isLower
  simp [capital c member]

/-- The upper case of a text is any text of ASCII that is in upper case, and the same as it but for
the case of letters. -/
theorem upper_eq_of_sameButCase {text name : String} (ascii : IsAscii name)
    (capital : IsUpper name) (same : SameButCase text name) : upper text = name := by
  rw [SameButCase, capital.map_toUpper] at same
  have plain : ∀ c ∈ text.toList, upperChar c = [c.toUpper] := by
    intro c member
    apply upperChar_of_ascii
    apply toNat_lt_of_toUpper
    apply ascii
    rw [← same]
    exact List.mem_map_of_mem member
  rw [← String.toList_inj, upper, String.toList_ofList, ← same, ← List.flatMap_pure_eq_map]
  exact List.flatMap_congr plain

end CachePolicy.Text
