import CachePolicy.Files.Path
import CachePolicy.Proofs.Text.Split
import CachePolicy.Proofs.Text.Utf8

/-!
# Names and how they are shown

A name that is text is shown as that text, so among such names those that look alike are the same.
Any other name is shown with U+FFFD in it.  A name that a disk takes is not empty and has no slash
in it, and neither has what is shown of it.
-/

namespace CachePolicy

namespace FileName

variable {name : FileName}

theorem reads_text (name : FileName) : Utf8.Reads name.bytes name.text.toList := by
  rw [FileName.text, String.toList_ofList]
  exact Utf8.reads_lossyChars (Nat.lt_succ_self _)

theorem text_eq_of_reads {chars : List Char} (reads : Utf8.Reads name.bytes chars) :
    name.text = String.ofList chars := by
  rw [FileName.text, reads.lossyChars_eq (Nat.lt_succ_self _)]

@[simp] theorem text_ofText (text : String) : (ofText text).text = text :=
  (text_eq_of_reads (.encode text.toList)).trans String.ofList_toList

@[simp] theorem ofText_inj {first second : String} :
    ofText first = ofText second ↔ first = second := by
  refine ⟨fun same => ?_, congrArg ofText⟩
  simpa using congrArg FileName.text same

/-- A name that is shown without a replacement is the text that is shown. -/
theorem ofText_text (sound : '\uFFFD' ∉ name.text.toList) : ofText name.text = name :=
  congrArg mk (name.reads_text.encode_eq sound)

/-- What is shown of a name was written there. -/
theorem utf8EncodeChar_subset {c : Char} (shown : c ∈ name.text.toList) (sound : c ≠ '\uFFFD') :
    String.utf8EncodeChar c ⊆ name.bytes :=
  (name.reads_text.infix_of_mem shown sound).subset

/-! ## Names that are text -/

/-- The name is that of a text. -/
def IsText (name : FileName) : Prop := ofText name.text = name

instance (name : FileName) : Decidable name.IsText :=
  inferInstanceAs (Decidable (ofText name.text = name))

theorem isText_iff : name.IsText ↔ ∃ text, ofText text = name := by
  refine ⟨fun written => ⟨_, written⟩, ?_⟩
  rintro ⟨text, rfl⟩
  rw [IsText, text_ofText]

/-- All names are those of texts. -/
def AllText (names : List FileName) : Prop := ∀ name ∈ names, name.IsText

instance (names : List FileName) : Decidable (AllText names) :=
  inferInstanceAs (Decidable (∀ name ∈ names, name.IsText))

/-- Rows of names that are text and look alike are the same. -/
theorem eq_of_shown_eq {names others : List FileName} (written : AllText names)
    (written' : AllText others) (alike : shown names = shown others) : names = others := by
  have restored {names : List FileName} (written : AllText names) :
      (shown names).map ofText = names := by
    rw [shown, List.map_map]
    exact (List.map_congr_left written).trans (List.map_id names)
  rw [← restored written, ← restored written', alike]

/-! ## Names that a disk takes -/

/-- A disk takes the name: it is not empty and has no slash in it. -/
def IsProper (name : FileName) : Prop := name.bytes ≠ [] ∧ Path.slash ∉ name.bytes

instance (name : FileName) : Decidable name.IsProper :=
  inferInstanceAs (Decidable (_ ∧ _))

namespace IsProper

theorem text_ne_empty (proper : name.IsProper) : name.text ≠ "" := by
  intro empty
  have nothing : ofText name.text = name := ofText_text (by simp [empty])
  rw [empty] at nothing
  exact proper.1 (congrArg bytes nothing.symm)

theorem slash_notMem (proper : name.IsProper) : '/' ∉ name.text.toList := fun shown =>
  proper.2 (utf8EncodeChar_subset shown (by decide) (by decide))

end IsProper

end FileName

namespace Path

/-- A path is shown as the row of bytes that it is. -/
theorem reads_text (path : Path) : Utf8.Reads path.bytes path.text.toList := by
  -- Each slash starts a character, so the names are read one by one.
  have starts (rest : List FileName) :
      ∀ b ∈ ((rest.map (·.bytes)).flatMap (slash :: ·)).head?, Utf8.isContinuation b = false := by
    cases rest with
    | nil => exact nofun
    | cons name rest =>
        intro b first
        cases first
        rfl
  have later (rest : List FileName) :
      Utf8.Reads ((rest.map (·.bytes)).flatMap (slash :: ·))
        ((rest.map (·.text.toList)).flatMap ('/' :: ·)) := by
    induction rest with
    | nil => exact .done
    | cons name rest ih => exact .char '/' (name.reads_text.append ih (starts rest))
  rw [bytes, text, String.toList_intercalate, FileName.shown, List.map_map]
  cases path.segments with
  | nil => exact .done
  | cons name rest =>
      rw [List.map_cons, List.map_cons, Text.intercalate_cons]
      change Utf8.Reads _ (List.intercalate ['/'] _)
      rw [Text.intercalate_cons]
      exact name.reads_text.append (later rest) (starts rest)

end Path

end CachePolicy
