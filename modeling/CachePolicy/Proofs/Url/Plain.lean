import CachePolicy.Proofs.Text.Split
import CachePolicy.Rule.Request

/-!
# Plain paths

A path is plain when it is written the way a URL writes it: from the root of the site, with no
character that is escaped or means something else, and with no segment that stays in place or
goes up.  A plain path is the path of its URL as it stands, so two plain paths lead to the same
URL only if they are the same.
-/

namespace CachePolicy.Url

open Reader

/-- A character stands for itself in a path. -/
def PlainChar (c : Char) : Prop := c.toNat ≤ 0x7F ∧ Percent.path c = false ∧ c ≠ '\\'

instance (c : Char) : Decidable (PlainChar c) := inferInstanceAs (Decidable (_ ∧ _ ∧ _))

/-- A path from the root of a site as a URL writes it. -/
structure Plain (text : String) : Prop where
  rooted : text.toList.head? = some '/'
  /-- Two slashes would begin a host. -/
  single : text.toList.tail.head? ≠ some '/'
  plain : ∀ c ∈ text.toList, PlainChar c
  settled : ∀ segment ∈ Text.split (· == '/') text.toList.tail,
    isHere segment = false ∧ isUp segment = false

instance (text : String) : Decidable (Plain text) :=
  decidable_of_iff (text.toList.head? = some '/' ∧ text.toList.tail.head? ≠ some '/' ∧
      (∀ c ∈ text.toList, PlainChar c) ∧
      ∀ segment ∈ Text.split (· == '/') text.toList.tail,
        isHere segment = false ∧ isUp segment = false)
    ⟨fun ⟨rooted, single, plain, settled⟩ => ⟨rooted, single, plain, settled⟩,
      fun ⟨rooted, single, plain, settled⟩ => ⟨rooted, single, plain, settled⟩⟩

/-! ## Characters -/

namespace PlainChar

variable {c : Char}

theorem not_isBlank (plain : PlainChar c) : isBlank c = false := by
  obtain ⟨-, kept, -⟩ := plain
  rw [isBlank, decide_eq_false_iff_not]
  intro blank
  rcases Nat.lt_or_eq_of_le blank with control | space
  · simp [Percent.path, Percent.fragment, Percent.EscapeSet.with, Percent.controls,
      control] at kept
  · obtain rfl : c = ' ' := Char.toNat_inj.mp space
    exact absurd kept (by decide)

theorem ne_of_path {d : Char} (plain : PlainChar c) (escaped : Percent.path d = true) :
    c ≠ d := by
  rintro rfl
  rw [plain.2.1] at escaped
  cases escaped

theorem encodeChar_eq (plain : PlainChar c) : Percent.encodeChar Percent.path c = [c] := by
  obtain ⟨ascii, kept, -⟩ := plain
  rw [Percent.encodeChar, if_neg]
  rintro (beyond | escaped)
  · omega
  · rw [kept] at escaped
    cases escaped

end PlainChar

theorem encode_eq_self {chars : List Char} (plain : ∀ c ∈ chars, PlainChar c) :
    Percent.encode Percent.path chars = chars := by
  induction chars with
  | nil => rfl
  | cons c rest ih =>
      have later := ih fun d member => plain d (List.mem_cons_of_mem _ member)
      rw [Percent.encode] at later ⊢
      rw [List.flatMap_cons, (plain c List.mem_cons_self).encodeChar_eq, later]
      rfl

/-! ## Reading -/

variable {text : String}

namespace Plain

theorem exists_eq_cons (plain : Plain text) : ∃ rest, text.toList = '/' :: rest :=
  List.head?_eq_some_iff.mp plain.rooted

theorem cleaned_eq (plain : Plain text) : cleaned text = text.toList := by
  have unblank : ∀ chars : List Char, chars ⊆ text.toList →
      chars.dropWhile isBlank = chars := by
    intro chars some
    cases chars with
    | nil => rfl
    | cons c rest =>
        rw [List.dropWhile_cons_of_neg]
        rw [(plain.plain c (some List.mem_cons_self)).not_isBlank]
        nofun
  have kept : ∀ c ∈ text.toList, (!(c == '\t' || c == '\n' || c == '\r')) = true := by
    intro c member
    have := (plain.plain c member).not_isBlank
    simp only [Bool.not_eq_true', Bool.or_eq_false_iff, beq_eq_false_iff_ne]
    refine ⟨⟨?_, ?_⟩, ?_⟩
    all_goals
      rintro rfl
      exact absurd this (by decide)
  rw [cleaned, unblank _ (List.Subset.refl _),
    unblank _ (fun c member => List.mem_reverse.mp member), List.reverse_reverse]
  exact List.filter_eq_self.mpr kept

/-- A plain path has no scheme. -/
theorem read_eq (plain : Plain text) : read text = .error .relativeWithoutBase := by
  obtain ⟨rest, split⟩ := plain.exists_eq_cons
  rw [read, plain.cleaned_eq, split]
  rfl

/-- A plain path ends before no query. -/
theorem cut_eq (plain : Plain text) :
    Text.cut (fun c => c == '?' || c == '#') text.toList = (text.toList, []) := by
  refine Text.cut_eq_self fun c member => ?_
  have kept := plain.plain c member
  simp [kept.ne_of_path (show Percent.path '?' = true by decide),
    kept.ne_of_path (show Percent.path '#' = true by decide)]

/-- The segments of a plain path stand between its slashes. -/
theorem segments_eq (plain : Plain text) :
    segments .special text.toList = Text.split (· == '/') text.toList.tail := by
  obtain ⟨rest, split⟩ := plain.exists_eq_cons
  have chars : ∀ c ∈ rest, PlainChar c := fun c member =>
    plain.plain c (split ▸ List.mem_cons_of_mem _ member)
  have pieces : Text.split SchemeKind.special.separates rest = Text.split (· == '/') rest := by
    refine Text.split_congr fun c member => ?_
    simp [SchemeKind.separates, (chars c member).2.2]
  rw [split, segments]
  simp only [show SchemeKind.special.separates '/' = true from rfl, if_true, List.tail_cons]
  rw [pieces]
  refine (List.map_congr_left fun piece member => ?_).trans (List.map_id _)
  exact encode_eq_self fun c inside => chars c (Text.mem_of_mem_split member inside)

/-- Segments that stay where they are put make up the path. -/
theorem follow_eq {pieces : List (List Char)}
    (settled : ∀ segment ∈ pieces, isHere segment = false ∧ isUp segment = false)
    (reached : List (List Char)) : follow reached pieces = pieces.reverse ++ reached := by
  induction pieces generalizing reached with
  | nil => rfl
  | cons segment rest ih =>
      obtain ⟨moves, enters⟩ := settled segment List.mem_cons_self
      cases rest with
      | nil => simp [follow, moves, enters]
      | cons second more =>
          rw [follow, enters, moves]
          simp only [Bool.false_eq_true, if_false]
          · rw [ih fun other member => settled other (List.mem_cons_of_mem _ member)]
            simp
          · exact List.cons_ne_nil _ _

theorem normalPath_eq (plain : Plain text) : normalPath .special text.toList = text := by
  obtain ⟨rest, split⟩ := plain.exists_eq_cons
  rw [normalPath, plain.segments_eq, follow_eq plain.settled, List.append_nil,
    List.reverse_reverse, pathOf, Text.intercalate_split, split, List.tail_cons, ← split,
    String.ofList_toList]

/-- A plain path is no host. -/
theorem reference_eq (plain : Plain text) (site : Host) :
    reference site text.toList =
      .ok (assemble "http" (some (.ofHost site)) (normalPath .special) text.toList) := by
  obtain ⟨rest, split⟩ := plain.exists_eq_cons
  have single := plain.single
  have chars := plain.plain
  rw [split] at single chars ⊢
  cases rest with
  | nil => rfl
  | cons second more =>
      have other : second ≠ '/' := by simpa using single
      have separates : SchemeKind.special.separates second = false := by
        have kept := chars second (List.mem_cons_of_mem _ List.mem_cons_self)
        simp [SchemeKind.separates, other, kept.2.2]
      have dropped : ('/' :: second :: more).dropWhile SchemeKind.special.separates =
          second :: more := by
        rw [List.dropWhile_cons_of_pos rfl, List.dropWhile_cons_of_neg (by simp [separates])]
      rw [reference]
      · rw [dropped, if_neg (by simp)]
      · rintro tail same
        exact other (List.cons.inj (List.cons.inj same).2).1

/-- A plain path is read as it stands. -/
theorem readOn_eq (plain : Plain text) (site : Host) :
    readOn site text = .ok ⟨"http", some (.ofHost site), text, none, none⟩ := by
  rw [readOn, plain.read_eq]
  dsimp only
  rw [plain.cleaned_eq, plain.reference_eq, assemble, plain.cut_eq]
  dsimp only
  rw [plain.normalPath_eq]
  rfl

end Plain

end CachePolicy.Url

namespace CachePolicy.Request

/-- A request for a plain path has the path itself in its URL. -/
theorem get_of_plain {text : String} (plain : Url.Plain text) :
    ∃ request, get text = .ok request ∧ request.href = "http://localhost" ++ text := by
  refine ⟨⟨⟨"http", some (.ofHost site), text, none, none⟩, Text.upper "GET", .none⟩, ?_, ?_⟩
  · rw [get, read, plain.readOn_eq]
  · have front : "http" ++ ":" ++ ("//" ++ (Authority.ofHost site).text) = "http://localhost" := by
      decide
    simp only [href, Url.href, Url.origin, front, String.append_empty]

end CachePolicy.Request
