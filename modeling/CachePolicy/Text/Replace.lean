/-!
# Putting one text in place of another

Only the first occurrence of a text is looked for, and only it is replaced.
-/

namespace CachePolicy.Text

/-- What stands before and after the first occurrence of a text. -/
def around? (needle : List Char) : List Char → Option (List Char × List Char)
  | [] => if needle.isEmpty then some ([], []) else none
  | c :: rest =>
    if needle.isPrefixOf (c :: rest) then some ([], (c :: rest).drop needle.length)
    else (around? needle rest).map fun (before, after) => (c :: before, after)

/-- A text with another in place of the first occurrence of a third. -/
def replaceFirst? (needle replacement text : String) : Option String :=
  (around? needle.toList text.toList).map fun (before, after) =>
    String.ofList before ++ replacement ++ String.ofList after

/-- What stands around an occurrence makes up the text together with it. -/
theorem append_of_around? {needle text before after : List Char}
    (found : around? needle text = some (before, after)) : before ++ needle ++ after = text := by
  induction text generalizing before with
  | nil =>
    unfold around? at found
    split at found
    · next empty => simp_all
    · simp at found
  | cons c rest ih =>
    unfold around? at found
    split at found
    · next here =>
      obtain ⟨tail, split⟩ := List.isPrefixOf_iff_prefix.mp here
      simp only [Option.some.injEq, Prod.mk.injEq] at found
      rw [← found.1, ← found.2, ← split]
      simp
    · obtain ⟨⟨front, back⟩, later, same⟩ := Option.map_eq_some_iff.mp found
      simp only [Prod.mk.injEq] at same
      obtain ⟨rfl, rfl⟩ := same
      simpa using ih later

end CachePolicy.Text
