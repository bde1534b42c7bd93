/-!
# Cutting text at separators

`split` cuts a text at every separator.  There is one more piece than there are
separators, and a piece may be empty.
-/

namespace CachePolicy.Text

/-- The pieces between the characters that `separates` picks. -/
def split (separates : Char → Bool) : List Char → List (List Char)
  | [] => [[]]
  | c :: rest =>
    match split separates rest with
    | [] => [[]]
    | piece :: more => if separates c then [] :: piece :: more else (c :: piece) :: more

@[simp] theorem split_nil (separates : Char → Bool) : split separates [] = [[]] := rfl

theorem split_ne_nil (separates : Char → Bool) (text : List Char) :
    split separates text ≠ [] := by
  cases text with
  | nil => simp
  | cons c rest =>
    simp only [split]
    split <;> try split
    all_goals simp

/-- A text without separators is its only piece. -/
theorem split_eq_singleton {separates : Char → Bool} {text : List Char}
    (h : ∀ c ∈ text, separates c = false) : split separates text = [text] := by
  induction text with
  | nil => rfl
  | cons c rest ih =>
    rw [split, ih fun d hd => h d (List.mem_cons_of_mem _ hd)]
    simp [h c List.mem_cons_self]

/-- The part before the first character that `stops` picks, and the rest from it
on. -/
def cut (stops : Char → Bool) (text : List Char) : List Char × List Char :=
  (text.takeWhile (!stops ·), text.dropWhile (!stops ·))

@[simp] theorem cut_fst_append_snd (stops : Char → Bool) (text : List Char) :
    (cut stops text).1 ++ (cut stops text).2 = text := by
  simp [cut]

end CachePolicy.Text
