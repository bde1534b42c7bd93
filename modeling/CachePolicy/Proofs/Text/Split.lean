import CachePolicy.Text.Split

/-!
# Pieces of a text

Cutting a text at a separator and joining the pieces with it undo each other, as long as the
pieces themselves are free of it.
-/

namespace CachePolicy.Text

theorem intercalate_split (separator : Char) (text : List Char) :
    List.intercalate [separator] (split (· == separator) text) = text := by
  induction text with
  | nil => rfl
  | cons c rest ih =>
      rw [split]
      cases pieces : split (· == separator) rest with
      | nil => exact absurd pieces (split_ne_nil _ _)
      | cons piece more =>
          rw [pieces] at ih
          by_cases ends : c = separator
          · subst ends
            simp only [beq_self_eq_true, if_true]
            rw [List.intercalate_cons_of_ne_nil (List.cons_ne_nil _ _), ih]
            rfl
          · simp only [beq_iff_eq, ends, if_false]
            rw [← ih]
            cases more with
            | nil => simp
            | cons second others => simp [List.intercalate_cons_cons]

/-- A text is cut at each separator in it, so its pieces are those before the separator and
those behind it. -/
theorem split_append {separates : Char → Bool} {c : Char} (stops : separates c = true)
    (front rest : List Char) :
    split separates (front ++ c :: rest) = split separates front ++ split separates rest := by
  induction front with
  | nil =>
      rw [List.nil_append, split_nil, split]
      cases pieces : split separates rest with
      | nil => exact absurd pieces (split_ne_nil _ _)
      | cons first more => exact if_pos stops
  | cons d front ih =>
      rw [List.cons_append, split, ih, split]
      cases pieces : split separates front with
      | nil => exact absurd pieces (split_ne_nil _ _)
      | cons first more =>
          rw [List.cons_append]
          by_cases ends : separates d = true
          · simp only [ends, if_true, List.cons_append]
          · simp only [ends, Bool.false_eq_true, if_false, List.cons_append]

/-- A piece without separators, a separator and more text are cut there. -/
theorem split_append_cons {separates : Char → Bool} {piece : List Char} {c : Char}
    (whole : ∀ d ∈ piece, separates d = false) (stops : separates c = true)
    (rest : List Char) : split separates (piece ++ c :: rest) = piece :: split separates rest := by
  rw [split_append stops, split_eq_singleton whole, List.singleton_append]

theorem intercalate_cons {α : Type} (separator : α) (text : List α) (more : List (List α)) :
    List.intercalate [separator] (text :: more) = text ++ more.flatMap (separator :: ·) := by
  induction more generalizing text with
  | nil => simp
  | cons next more ih =>
      rw [List.intercalate_cons_cons, ih, List.flatMap_cons, List.append_assoc]
      rfl

/-- Pieces are joined with the separator behind those before a piece, and before those behind
it. -/
theorem intercalate_append_cons {α : Type} (separator : α) (before : List (List α))
    (piece : List α) (behind : List (List α)) :
    List.intercalate [separator] (before ++ piece :: behind) =
      before.flatMap (· ++ [separator]) ++ piece ++ behind.flatMap (separator :: ·) := by
  induction before with
  | nil => exact intercalate_cons separator piece behind
  | cons first before ih =>
      rw [List.cons_append, List.intercalate_cons_of_ne_nil (by simp), ih, List.flatMap_cons]
      simp only [List.append_assoc]

theorem split_intercalate {separator : Char} {pieces : List (List Char)} (some : pieces ≠ [])
    (free : ∀ piece ∈ pieces, separator ∉ piece) :
    split (· == separator) (List.intercalate [separator] pieces) = pieces := by
  have clean : ∀ piece : List Char, separator ∉ piece → ∀ c ∈ piece, (c == separator) = false := by
    intro piece absent c member
    refine beq_false_of_ne ?_
    rintro rfl
    exact absent member
  induction pieces with
  | nil => exact absurd rfl some
  | cons piece more ih =>
      have first := clean piece (free piece List.mem_cons_self)
      cases more with
      | nil => simpa using split_eq_singleton first
      | cons second others =>
          rw [List.intercalate_cons_cons, List.append_assoc, List.singleton_append,
            split_append_cons first (beq_self_eq_true separator),
            ih (List.cons_ne_nil _ _) fun other member =>
              free other (List.mem_cons_of_mem _ member)]

/-- Texts without a slash are the pieces between the slashes of what they are joined to. -/
theorem split_intercalate_slash {names : List String} (some : names ≠ [])
    (free : ∀ name ∈ names, '/' ∉ name.toList) :
    split (· == '/') ("/".intercalate names).toList = names.map String.toList := by
  rw [String.toList_intercalate]
  refine split_intercalate (by simpa using some) fun piece member => ?_
  obtain ⟨name, listed, rfl⟩ := List.mem_map.mp member
  exact free name listed

/-- Texts without a slash are known from what they are joined to. -/
theorem eq_of_intercalate_slash {first second : List String} (some : first ≠ [])
    (more : second ≠ []) (free : ∀ name ∈ first, '/' ∉ name.toList)
    (whole : ∀ name ∈ second, '/' ∉ name.toList)
    (same : "/".intercalate first = "/".intercalate second) : first = second := by
  have pieces := split_intercalate_slash some free
  rw [same, split_intercalate_slash more whole] at pieces
  simpa using congrArg (List.map String.ofList) pieces.symm

/-- Pieces cut by one test are those cut by another that picks the same characters. -/
theorem split_congr {separates other : Char → Bool} {text : List Char}
    (same : ∀ c ∈ text, separates c = other c) : split separates text = split other text := by
  induction text with
  | nil => rfl
  | cons c rest ih =>
      rw [split, split, ih fun d member => same d (List.mem_cons_of_mem _ member),
        same c List.mem_cons_self]

/-- A piece of a text is empty, or a piece of what comes after the first character, or such a piece
with this character before it. -/
theorem cases_of_mem_split_cons {separates : Char → Bool} {d : Char} {rest piece : List Char}
    (member : piece ∈ split separates (d :: rest)) :
    piece = [] ∨ piece ∈ split separates rest ∨
      separates d = false ∧ ∃ later ∈ split separates rest, piece = d :: later := by
  rw [split] at member
  cases pieces : split separates rest with
  | nil => exact absurd pieces (split_ne_nil _ _)
  | cons first more =>
      simp only [pieces] at member
      split at member
      · rcases List.mem_cons.mp member with empty | later
        · exact .inl empty
        · exact .inr (.inl later)
      · next goes =>
        rcases List.mem_cons.mp member with longer | later
        · exact .inr (.inr ⟨Bool.eq_false_iff.mpr goes, first, List.mem_cons_self, longer⟩)
        · exact .inr (.inl (List.mem_cons_of_mem _ later))

/-- Every character of a piece is one of the text. -/
theorem mem_of_mem_split {separates : Char → Bool} {text piece : List Char} {c : Char}
    (member : piece ∈ split separates text) (inside : c ∈ piece) : c ∈ text := by
  induction text generalizing piece with
  | nil =>
      rw [split, List.mem_singleton] at member
      exact absurd inside (member ▸ List.not_mem_nil)
  | cons d rest ih =>
      rcases cases_of_mem_split_cons member with rfl | later | ⟨-, later, listed, rfl⟩
      · cases inside
      · exact List.mem_cons_of_mem _ (ih later inside)
      · rcases List.mem_cons.mp inside with rfl | behind
        · exact List.mem_cons_self
        · exact List.mem_cons_of_mem _ (ih listed behind)

/-- No piece has a separator in it. -/
theorem not_separates_of_mem_split {separates : Char → Bool} {text piece : List Char} {c : Char}
    (member : piece ∈ split separates text) (inside : c ∈ piece) : separates c = false := by
  induction text generalizing piece with
  | nil =>
      rw [split, List.mem_singleton] at member
      exact absurd inside (member ▸ List.not_mem_nil)
  | cons d rest ih =>
      rcases cases_of_mem_split_cons member with rfl | later | ⟨goes, later, listed, rfl⟩
      · cases inside
      · exact ih later inside
      · rcases List.mem_cons.mp inside with rfl | behind
        · exact goes
        · exact ih listed behind

theorem separator_notMem_of_mem_split {separator : Char} {text piece : List Char}
    (member : piece ∈ split (· == separator) text) : separator ∉ piece := by
  intro inside
  have other := @not_separates_of_mem_split (· == separator) text piece separator member inside
  exact beq_eq_false_iff_ne.mp other rfl

/-- A text in which nothing stops is cut at its end. -/
theorem cut_eq_self {stops : Char → Bool} {text : List Char}
    (whole : ∀ c ∈ text, stops c = false) : cut stops text = (text, []) := by
  have goes : ∀ c ∈ text, (!stops c) = true := fun c member => by rw [whole c member]; rfl
  have taken : (text ++ []).takeWhile (!stops ·) = text ++ [] := List.takeWhile_append_of_pos goes
  have dropped : (text ++ []).dropWhile (!stops ·) = [] := List.dropWhile_append_of_pos goes
  rw [List.append_nil] at taken dropped
  rw [cut, taken, dropped]

/-- A text is cut where nothing stops before and something stops behind. -/
theorem cut_eq_iff {stops : Char → Bool} {text front back : List Char} :
    cut stops text = (front, back) ↔
      text = front ++ back ∧ (∀ c ∈ front, stops c = false) ∧
        ∀ c ∈ back.head?, stops c = true := by
  constructor
  · intro same
    cases same
    refine ⟨(cut_fst_append_snd stops text).symm, ?_, ?_⟩
    · intro c member
      simpa using List.all_eq_true.mp List.all_takeWhile c member
    · intro c first
      have stopped := List.head?_dropWhile_not (!stops ·) text
      rw [first] at stopped
      simpa using stopped
  · rintro ⟨rfl, goes, ends⟩
    have front_goes : ∀ c ∈ front, (!stops c) = true := fun c member => by rw [goes c member]; rfl
    rw [cut, List.takeWhile_append_of_pos front_goes, List.dropWhile_append_of_pos front_goes]
    cases back with
    | nil => rw [List.takeWhile_nil, List.dropWhile_nil, List.append_nil]
    | cons c back =>
        rw [List.takeWhile_cons, List.dropWhile_cons, ends c rfl]
        exact congrArg (·, c :: back) (List.append_nil front)

end CachePolicy.Text
