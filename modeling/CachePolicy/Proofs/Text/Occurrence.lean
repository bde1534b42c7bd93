import CachePolicy.Text.Replace

/-!
# Where a text occurs

The first occurrence of a text is found where it stands, whatever follows it.  A character that
the text does not have keeps its occurrences apart: each lies before that character or behind
it.
-/

namespace CachePolicy.Text

variable {needle first second text before after : List Char} {c : Char}

/-! ## Occurrences on one side of a character -/

/-- What begins a text begins it before a character that it does not have. -/
theorem prefix_of_prefix_append_cons (absent : c ∉ needle)
    (starts : needle <+: first ++ c :: second) : needle <+: first := by
  rcases List.prefix_or_prefix_of_prefix starts (List.prefix_append first (c :: second)) with
    short | long
  · exact short
  · obtain ⟨more, rfl⟩ := long
    obtain ⟨rest, whole⟩ := starts
    rw [List.append_assoc] at whole
    cases more with
    | nil => simp
    | cons d more =>
        have same := (List.cons.inj (List.append_cancel_left whole)).1
        exact absurd (List.mem_append_right first (same ▸ List.mem_cons_self)) absent

/-- What occurs in a text occurs on one side of a character that it does not have. -/
theorem infix_append_cons_iff (absent : c ∉ needle) :
    needle <:+: first ++ c :: second ↔ needle <:+: first ∨ needle <:+: second := by
  constructor
  · intro occurs
    induction first with
    | nil =>
        rcases List.infix_cons_iff.mp occurs with starts | later
        · exact .inl (prefix_of_prefix_append_cons absent starts).isInfix
        · exact .inr later
    | cons d first ih =>
        rcases List.infix_cons_iff.mp occurs with starts | later
        · exact .inl (prefix_of_prefix_append_cons absent starts).isInfix
        · rcases ih later with inside | behind
          · exact .inl (List.infix_cons inside)
          · exact .inr behind
  · rintro (inside | behind)
    · exact inside.trans (List.prefix_append _ _).isInfix
    · exact behind.trans ((List.suffix_cons _ _).trans (List.suffix_append _ _)).isInfix

/-! ## The first occurrence -/

/-- What occurs is found. -/
theorem exists_around?_of_infix (occurs : needle <:+: text) :
    ∃ before after, around? needle text = some (before, after) := by
  induction text with
  | nil =>
      obtain rfl := List.infix_nil.mp occurs
      exact ⟨[], [], rfl⟩
  | cons c rest ih =>
      rw [around?]
      split
      next => exact ⟨_, _, rfl⟩
      next differs =>
        rcases List.infix_cons_iff.mp occurs with starts | later
        · exact absurd (List.isPrefixOf_iff_prefix.mpr starts) differs
        · obtain ⟨before, after, found⟩ := ih later
          exact ⟨c :: before, after, by rw [found]; rfl⟩

/-- What is found within a text is found there whatever follows the text. -/
theorem around?_append (found : around? needle text = some (before, after))
    (more : List Char) (visible : needle ≠ []) :
    around? needle (text ++ more) = some (before, after ++ more) := by
  induction text generalizing before with
  | nil =>
      rw [around?, if_neg (by simpa using visible)] at found
      cases found
  | cons c rest ih =>
      rw [around?] at found
      rw [List.cons_append, around?]
      split at found
      next here =>
        have starts := List.isPrefixOf_iff_prefix.mp here
        have again : needle.isPrefixOf (c :: (rest ++ more)) = true :=
          List.isPrefixOf_iff_prefix.mpr (starts.trans (List.prefix_append (c :: rest) more))
        rw [if_pos again]
        cases found
        rw [← List.cons_append, List.drop_append_of_le_length starts.length_le]
      next differs =>
        obtain ⟨⟨front, back⟩, later, same⟩ := Option.map_eq_some_iff.mp found
        cases same
        have room : needle.length ≤ (c :: rest).length := by
          have whole := congrArg List.length (append_of_around? later)
          simp only [List.length_append] at whole
          rw [List.length_cons]
          omega
        have again : ¬needle.isPrefixOf (c :: (rest ++ more)) = true := by
          intro here
          apply differs
          exact List.isPrefixOf_iff_prefix.mpr (List.prefix_of_prefix_length_le
            (List.isPrefixOf_iff_prefix.mp here) (List.prefix_append (c :: rest) more) room)
        rw [if_neg again, ih later]
        rfl

/-- A text is found where it stands, behind a character that it does not have, if it does not
occur before that character. -/
theorem around?_of_notInfix (visible : needle ≠ []) (absent : c ∉ needle)
    (unseen : ¬needle <:+: first) :
    around? needle (first ++ c :: (needle ++ second)) = some (first ++ [c], second) := by
  induction first with
  | nil =>
      have here : around? needle (needle ++ second) = some ([], second) := by
        cases needle with
        | nil => exact absurd rfl visible
        | cons d rest =>
            have starts : (d :: rest).isPrefixOf (d :: (rest ++ second)) = true :=
              List.isPrefixOf_iff_prefix.mpr (List.prefix_append (d :: rest) second)
            rw [List.cons_append, around?, if_pos starts, ← List.cons_append, List.drop_left]
      have differs : ¬needle.isPrefixOf (c :: (needle ++ second)) = true := by
        intro starts
        have short : needle <+: [] :=
          prefix_of_prefix_append_cons absent (List.isPrefixOf_iff_prefix.mp starts)
        exact unseen short.isInfix
      rw [List.nil_append, around?, if_neg differs, here]
      rfl
  | cons d first ih =>
      have later := ih fun occurs => unseen (List.infix_cons occurs)
      have differs : ¬needle.isPrefixOf (d :: (first ++ c :: (needle ++ second))) = true := by
        intro starts
        have short : needle <+: d :: first :=
          prefix_of_prefix_append_cons absent (List.isPrefixOf_iff_prefix.mp starts)
        exact unseen short.isInfix
      rw [List.cons_append, around?, if_neg differs, later]
      rfl

/-- No other occurrence begins before the one that is found. -/
theorem length_le_of_around? {earlier later : List Char}
    (found : around? needle text = some (before, after))
    (whole : text = earlier ++ needle ++ later) : before.length ≤ earlier.length := by
  induction text generalizing before earlier with
  | nil =>
      rw [around?] at found
      split at found
      next =>
        cases found
        exact Nat.zero_le _
      next => cases found
  | cons c rest ih =>
      rw [around?] at found
      split at found
      next =>
        cases found
        exact Nat.zero_le _
      next differs =>
        obtain ⟨⟨front, back⟩, inside, same⟩ := Option.map_eq_some_iff.mp found
        cases same
        cases earlier with
        | nil =>
            rw [List.nil_append] at whole
            exact absurd (List.isPrefixOf_iff_prefix.mpr ⟨later, whole.symm⟩) differs
        | cons d earlier => exact Nat.succ_le_succ (ih inside (List.cons.inj whole).2)

end CachePolicy.Text
