import CachePolicy.Json.Canonical
import CachePolicy.Proofs.Data.SortedMap
import CachePolicy.Proofs.Json.RoundTrip
import CachePolicy.Proofs.Text.Split
import Mathlib.Data.List.TakeWhile

/-!
# What a canonical text tells

A canonical text ends before the comma or the bracket behind it, so the texts of the parts of a
value are known from its own: the items of a list in their order, and the members of an object
by their keys.  All that is lost is the order of the members and what doubles do not tell apart.
-/

namespace CachePolicy

/-! ## Numbers -/

namespace Decimal

/-- A character of a number. -/
def numeral (c : Char) : Bool := c.isDigit || c = '.' || c = 'e' || c = '+' || c = '-'

theorem numeral_of_mem_toDigits {n : Nat} {c : Char} (member : c ∈ Nat.toDigits 10 n) :
    numeral c = true := by
  have digit := Nat.isDigit_of_mem_toDigits (by decide) (by decide) member
  rw [numeral, digit]
  rfl

theorem numeral_of_mem_replicate {count : Nat} {c : Char}
    (member : c ∈ List.replicate count '0') : numeral c = true := by
  rw [List.eq_of_mem_replicate member]
  rfl

theorem numeral_of_mem_place (layout : Layout) {digits : List Char} (point : Int)
    (plain : ∀ c ∈ digits, numeral c = true) :
    ∀ c ∈ place layout digits point, numeral c = true := by
  have zeros (count : Nat) : ∀ c ∈ List.replicate count '0', numeral c = true :=
    fun c => numeral_of_mem_replicate
  have power : ∀ c ∈ Nat.toDigits 10 (point - 1).natAbs, numeral c = true :=
    fun c => numeral_of_mem_toDigits
  have taken : ∀ c ∈ digits.take point.toNat, numeral c = true :=
    fun c member => plain c (List.mem_of_mem_take member)
  have dropped : ∀ c ∈ digits.drop point.toNat, numeral c = true :=
    fun c member => plain c (List.mem_of_mem_drop member)
  unfold place
  split
  · simp only
    rw [List.forall_mem_append]
    refine ⟨?_, List.forall_mem_cons.mpr ⟨rfl, List.forall_mem_cons.mpr ⟨?_, power⟩⟩⟩
    · cases digits with
      | nil => exact plain
      | cons d rest =>
          cases rest with
          | nil => exact plain
          | cons next rest =>
              obtain ⟨first, others⟩ := List.forall_mem_cons.mp plain
              exact List.forall_mem_cons.mpr ⟨first, List.forall_mem_cons.mpr ⟨rfl, others⟩⟩
    · split <;> rfl
  · split
    · refine List.forall_mem_cons.mpr ⟨rfl, List.forall_mem_cons.mpr ⟨rfl, ?_⟩⟩
      exact List.forall_mem_append.mpr ⟨zeros _, plain⟩
    · have padded := List.forall_mem_append.mpr
        ⟨taken, zeros (point.toNat - (digits.take point.toNat).length)⟩
      simp only
      split
      · split
        · exact List.forall_mem_append.mpr ⟨padded, List.all_eq_true.mp rfl⟩
        · exact padded
      · exact List.forall_mem_append.mpr ⟨padded, List.forall_mem_cons.mpr ⟨rfl, dropped⟩⟩

theorem place_ne_nil (layout : Layout) (digits : List Char) (point : Int) :
    place layout digits point ≠ [] := by
  unfold place
  split
  · exact List.append_ne_nil_of_right_ne_nil _ (List.cons_ne_nil _ _)
  · split
    · exact List.cons_ne_nil _ _
    · next after =>
      have long : 0 < (digits.take point.toNat ++
          List.replicate (point.toNat - (digits.take point.toNat).length) '0').length := by
        rw [List.length_append, List.length_replicate]
        omega
      simp only
      split
      · split
        · exact List.append_ne_nil_of_right_ne_nil _ (List.cons_ne_nil _ _)
        · exact List.ne_nil_of_length_pos long
      · exact List.append_ne_nil_of_right_ne_nil _ (List.cons_ne_nil _ _)

/-- A number is written with its own characters, at least one of them. -/
theorem numeral_of_mem_write (layout : Layout) (x : Binary64) :
    ∀ c ∈ write layout x, numeral c = true := by
  have digits : ∀ c ∈ (shortest x).significantDigits.1, numeral c = true := by
    intro c member
    rw [significantDigits, List.mem_reverse] at member
    have inside := (List.dropWhile_sublist _).subset member
    exact numeral_of_mem_toDigits (List.mem_reverse.mp inside)
  have placed := numeral_of_mem_place layout (shortest x).significantDigits.2 digits
  unfold write
  split
  · split <;> split <;> exact List.all_eq_true.mp rfl
  · simp only
    split
    · exact List.forall_mem_cons.mpr ⟨rfl, placed⟩
    · exact placed

theorem write_ne_nil (layout : Layout) (x : Binary64) : write layout x ≠ [] := by
  unfold write
  split
  · split <;> split <;> exact List.cons_ne_nil _ _
  · simp only
    split
    · exact List.cons_ne_nil _ _
    · exact place_ne_nil _ _ _

end Decimal

namespace Json

theorem numeral_of_mem_canonicalNumber (n : Number) :
    ∀ c ∈ canonicalNumber n, Decimal.numeral c = true := by
  cases n with
  | int n => exact Decimal.numeral_of_mem_write _ _
  | float x => exact Decimal.numeral_of_mem_write _ _

theorem canonicalNumber_ne_nil (n : Number) : canonicalNumber n ≠ [] := by
  cases n with
  | int n => exact Decimal.write_ne_nil _ _
  | float x => exact Decimal.write_ne_nil _ _

/-! ## Where a text ends -/

/-- A comma or a bracket behind a value. -/
def closes (c : Char) : Bool := c = ',' || c = ']' || c = '\x7d'

/-- What may stand behind a value: nothing, or what begins with a comma or a bracket. -/
def Follows (rest : List Char) : Prop := ∀ c ∈ rest.head?, closes c = true

/-- Two texts of which neither goes on where the other ends. -/
def Apart (text other : List Char) : Prop :=
  ∀ ⦃rest otherRest⦄, Follows rest → Follows otherRest →
    text ++ rest = other ++ otherRest → text = other

/-- A text that begins with something else. -/
def Opens (text : List Char) : Prop := ∃ c tail, text = c :: tail ∧ closes c = false

theorem follows_cons {c : Char} (ends : closes c = true) (rest : List Char) :
    Follows (c :: rest) := by
  rintro d ⟨⟩
  exact ends

theorem not_numeral_of_closes {c : Char} (ends : closes c = true) :
    Decimal.numeral c = false := by
  simp only [closes, Bool.or_eq_true, decide_eq_true_eq] at ends
  rcases ends with (rfl | rfl) | rfl <;> rfl

/-- A number ends where there are other characters. -/
theorem apart_canonicalNumber (n m : Number) : Apart (canonicalNumber n) (canonicalNumber m) := by
  have stops {rest : List Char} (follows : Follows rest) :
      rest.takeWhile Decimal.numeral = [] := by
    cases rest with
    | nil => rfl
    | cons c rest => rw [List.takeWhile_cons, not_numeral_of_closes (follows c rfl)]; rfl
  intro rest otherRest follows otherFollows same
  have whole := congrArg (List.takeWhile Decimal.numeral) same
  rw [List.takeWhile_append_of_pos (numeral_of_mem_canonicalNumber n),
    List.takeWhile_append_of_pos (numeral_of_mem_canonicalNumber m), stops follows,
    stops otherFollows, List.append_nil, List.append_nil] at whole
  exact whole

/-- A quoted text ends at its closing quotation mark. -/
theorem quotedChars_append_inj {chars others rest otherRest : List Char}
    (same : quotedChars chars ++ rest = quotedChars others ++ otherRest) :
    chars = others ∧ rest = otherRest := by
  rw [quotedChars_append, quotedChars_append] at same
  have read := congrArg Reader.text (List.cons.inj same).2
  rw [text_escaped, text_escaped] at read
  obtain ⟨texts, rests⟩ := Prod.mk.inj (Except.ok.inj read)
  exact ⟨String.ofList_injective texts, rests⟩

/-! ## Lists of texts -/

section Lists

variable {texts others : List (List Char)} {last : Char} {rest otherRest : List Char}

theorem follows_flatMap (ends : closes last = true) (texts : List (List Char))
    (rest : List Char) : Follows (texts.flatMap (',' :: ·) ++ last :: rest) := by
  cases texts with
  | nil => exact follows_cons ends rest
  | cons text more => exact follows_cons rfl _

/-- What a list adds to its first text, up to the bracket behind it, tells the other texts. -/
theorem flatMap_inj (ends : closes last = true) (bracket : last ≠ ',')
    (apart : ∀ text ∈ texts, ∀ other ∈ others, Apart text other)
    (same : texts.flatMap (',' :: ·) ++ last :: rest =
      others.flatMap (',' :: ·) ++ last :: otherRest) : texts = others := by
  induction texts generalizing others with
  | nil =>
      cases others with
      | nil => rfl
      | cons other more => exact absurd (List.cons.inj same).1 bracket
  | cons text texts ih =>
      cases others with
      | nil => exact absurd (List.cons.inj same).1.symm bracket
      | cons other others =>
          rw [List.flatMap_cons, List.flatMap_cons, List.cons_append, List.cons_append,
            List.cons_append, List.cons_append, List.append_assoc, List.append_assoc] at same
          have behind := (List.cons.inj same).2
          have first := apart text List.mem_cons_self other List.mem_cons_self
            (follows_flatMap ends texts rest) (follows_flatMap ends others otherRest) behind
          rw [first] at behind ⊢
          rw [ih (fun text member other otherMember => apart text (List.mem_cons_of_mem _ member)
            other (List.mem_cons_of_mem _ otherMember)) (List.append_cancel_left behind)]

/-- A list that is closed at once is empty. -/
theorem eq_nil_of_closed (ends : closes last = true) (opens : ∀ text ∈ texts, Opens text)
    (same : last :: rest = List.intercalate [','] texts ++ last :: otherRest) : texts = [] := by
  cases texts with
  | nil => rfl
  | cons text texts =>
      obtain ⟨c, tail, rfl, goes⟩ := opens text List.mem_cons_self
      rw [Text.intercalate_cons] at same
      rw [(List.cons.inj same).1, goes] at ends
      cases ends

/-- A list of texts with a comma between each two, up to the bracket behind it, tells the
texts. -/
theorem intercalate_inj (ends : closes last = true) (bracket : last ≠ ',')
    (apart : ∀ text ∈ texts, ∀ other ∈ others, Apart text other)
    (opens : ∀ text ∈ texts, Opens text) (otherOpens : ∀ other ∈ others, Opens other)
    (same : List.intercalate [','] texts ++ last :: rest =
      List.intercalate [','] others ++ last :: otherRest) : texts = others := by
  cases texts with
  | nil => exact (eq_nil_of_closed ends otherOpens same).symm
  | cons text texts =>
      cases others with
      | nil => exact eq_nil_of_closed ends opens same.symm
      | cons other others =>
          rw [Text.intercalate_cons, Text.intercalate_cons, List.append_assoc,
            List.append_assoc] at same
          have first := apart text List.mem_cons_self other List.mem_cons_self
            (follows_flatMap ends texts rest) (follows_flatMap ends others otherRest) same
          rw [first] at same ⊢
          rw [flatMap_inj ends bracket (fun text member other otherMember =>
            apart text (List.mem_cons_of_mem _ member) other (List.mem_cons_of_mem _ otherMember))
            (List.append_cancel_left same)]

theorem map_eq_of_closed {α : Type} {chars : α → List Char} {items others : List α}
    (ends : closes last = true) (bracket : last ≠ ',')
    (apart : ∀ item ∈ items, ∀ other, Apart (chars item) (chars other))
    (opens : ∀ item, Opens (chars item))
    (same : List.intercalate [','] (items.map chars) ++ last :: rest =
      List.intercalate [','] (others.map chars) ++ last :: otherRest) :
    items.map chars = others.map chars := by
  have allOpen (items : List α) : ∀ text ∈ items.map chars, Opens text :=
    List.forall_mem_map.mpr fun item _ => opens item
  refine intercalate_inj ends bracket ?_ (allOpen items) (allOpen others) same
  rw [List.forall_mem_map]
  intro item member
  exact List.forall_mem_map.mpr fun other _ => apart item member other

end Lists

/-! ## Values -/

/-- What a value begins with, where `0` stands for the beginning of any number. -/
def mark : Json → Char
  | .null => 'n'
  | .bool true => 't'
  | .bool false => 'f'
  | .num _ => '0'
  | .str _ => '"'
  | .arr _ => '['
  | .obj _ => '\x7b'

/-- The mark of a text that begins with a character. -/
def markOf (c : Char) : Char := if Decimal.numeral c then '0' else c

theorem exists_canonicalChars_eq_cons (value : Json) :
    ∃ c tail, canonicalChars value = c :: tail ∧ markOf c = value.mark := by
  cases value with
  | null => exact ⟨_, _, rfl, rfl⟩
  | bool b => cases b <;> exact ⟨_, _, rfl, rfl⟩
  | num n =>
      obtain ⟨c, tail, chars⟩ := List.exists_cons_of_ne_nil (canonicalNumber_ne_nil n)
      refine ⟨c, tail, chars, if_pos ?_⟩
      exact numeral_of_mem_canonicalNumber n c (chars ▸ List.mem_cons_self)
  | str s => exact ⟨_, _, rfl, rfl⟩
  | arr items => exact ⟨_, _, rfl, rfl⟩
  | obj fields => exact ⟨_, _, rfl, rfl⟩

/-- Texts of one beginning are of values of one kind. -/
theorem mark_eq_of_append {value other : Json} {rest otherRest : List Char}
    (same : canonicalChars value ++ rest = canonicalChars other ++ otherRest) :
    value.mark = other.mark := by
  obtain ⟨c, tail, chars, marked⟩ := exists_canonicalChars_eq_cons value
  obtain ⟨d, otherTail, otherChars, otherMarked⟩ := exists_canonicalChars_eq_cons other
  rw [chars, otherChars] at same
  rw [← marked, ← otherMarked, (List.cons.inj same).1]

theorem closes_mark (value : Json) : closes value.mark = false := by
  cases value with
  | bool b => cases b <;> rfl
  | _ => rfl

theorem opens_canonicalChars (value : Json) : Opens (canonicalChars value) := by
  obtain ⟨c, tail, chars, marked⟩ := exists_canonicalChars_eq_cons value
  refine ⟨c, tail, chars, ?_⟩
  by_contra ends
  rw [Bool.not_eq_false] at ends
  have own : markOf c = c := if_neg (by rw [not_numeral_of_closes ends]; exact Bool.false_ne_true)
  rw [← own, marked, closes_mark] at ends
  cases ends

/-- The characters of a member. -/
def memberChars (field : String × Json) : List Char :=
  quotedChars field.1.toList ++ ':' :: canonicalChars field.2

theorem canonicalItems_eq (items : List Json) :
    canonicalItems items = List.intercalate [','] (items.map canonicalChars) := by
  induction items with
  | nil => rfl
  | cons item more ih =>
      cases more with
      | nil => simp [canonicalItems]
      | cons next more => rw [canonicalItems, ih]; simp [List.intercalate_cons_cons]

theorem canonicalFields_eq (fields : List (String × Json)) :
    canonicalFields fields = List.intercalate [','] (fields.map memberChars) := by
  induction fields with
  | nil => rfl
  | cons field more ih =>
      obtain ⟨key, value⟩ := field
      cases more with
      | nil => simp [canonicalFields, memberChars]
      | cons next more =>
          rw [canonicalFields, ih]
          simp [List.intercalate_cons_cons, memberChars]

theorem opens_memberChars (field : String × Json) : Opens (memberChars field) := ⟨_, _, rfl, rfl⟩

theorem apart_memberChars {field other : String × Json}
    (apart : Apart (canonicalChars field.2) (canonicalChars other.2)) :
    Apart (memberChars field) (memberChars other) := by
  intro rest otherRest follows otherFollows same
  rw [memberChars, memberChars, List.append_assoc, List.append_assoc] at same
  obtain ⟨keys, behind⟩ := quotedChars_append_inj same
  rw [memberChars, memberChars, keys, apart follows otherFollows (List.cons.inj behind).2]

mutual

/-- A canonical text ends where its value does. -/
theorem apart_canonicalChars (value other : Json) :
    Apart (canonicalChars value) (canonicalChars other) := by
  intro rest otherRest follows otherFollows same
  have marks := mark_eq_of_append same
  match value, other with
  | .null, .null => rfl
  | .bool true, .bool true => rfl
  | .bool false, .bool false => rfl
  | .num n, .num m => exact apart_canonicalNumber n m follows otherFollows same
  | .str s, .str t =>
      simp only [canonicalChars, compactChars] at same ⊢
      rw [(quotedChars_append_inj same).1]
  | .arr items, .arr others =>
      simp only [canonicalChars, canonicalItems_eq, List.cons_append, List.append_assoc] at same ⊢
      rw [map_eq_of_closed rfl (by decide) (apart_items items) opens_canonicalChars
        (List.cons.inj same).2]
  | .obj fields, .obj others =>
      simp only [canonicalChars, canonicalFields_eq, List.cons_append, List.append_assoc] at same ⊢
      rw [map_eq_of_closed rfl (by decide) (apart_fields fields) opens_memberChars
        (List.cons.inj same).2]

theorem apart_items (items : List Json) :
    ∀ item ∈ items, ∀ other, Apart (canonicalChars item) (canonicalChars other) := by
  match items with
  | [] => exact fun _ member => absurd member List.not_mem_nil
  | item :: rest =>
      exact List.forall_mem_cons.mpr ⟨apart_canonicalChars item, apart_items rest⟩

theorem apart_fields (fields : List (String × Json)) :
    ∀ field ∈ fields, ∀ other, Apart (memberChars field) (memberChars other) := by
  match fields with
  | [] => exact fun _ member => absurd member List.not_mem_nil
  | (key, value) :: rest =>
      refine List.forall_mem_cons.mpr ⟨fun other => ?_, apart_fields rest⟩
      exact apart_memberChars (apart_canonicalChars value other.2)

end

/-! ## Canonical order -/

theorem map_eq_of_map_eq {α β γ : Type} {f : α → β} {g : α → γ}
    (determines : ∀ a b, f a = f b → g a = g b) {items others : List α}
    (same : items.map f = others.map f) : items.map g = others.map g := by
  induction items generalizing others with
  | nil =>
      cases others with
      | nil => rfl
      | cons other others => cases same
  | cons item items ih =>
      cases others with
      | nil => cases same
      | cons other others =>
          obtain ⟨first, later⟩ := List.cons.inj same
          rw [List.map_cons, List.map_cons, determines item other first, ih later]

theorem sortedItems_eq (items : List Json) : sortedItems items = items.map sorted := by
  induction items with
  | nil => rfl
  | cons item rest ih => rw [sortedItems, ih, List.map_cons]

theorem sortedFields_eq (fields : List (String × Json)) :
    sortedFields fields = fields.map fun field => (field.1, field.2.sorted) := by
  induction fields with
  | nil => rfl
  | cons field rest ih => rw [sortedFields, ih, List.map_cons]

theorem canonical_inj {value other : Json} :
    value.canonical = other.canonical ↔
      canonicalChars value.sorted = canonicalChars other.sorted :=
  String.ofList_inj

theorem mark_sorted (value : Json) : value.sorted.mark = value.mark := by
  cases value <;> rfl

theorem mark_eq_of_canonical {value other : Json} (same : value.canonical = other.canonical) :
    value.mark = other.mark := by
  rw [← mark_sorted value, ← mark_sorted other]
  exact mark_eq_of_append (congrArg (· ++ []) (canonical_inj.mp same))

/-- The canonical text of a list tells those of its items, in order. -/
theorem canonical_arr_inj {items others : List Json} :
    (arr items).canonical = (arr others).canonical ↔
      items.map canonical = others.map canonical := by
  have chars (items : List Json) : canonicalChars (arr items).sorted =
      '[' :: (List.intercalate [','] ((items.map sorted).map canonicalChars) ++ [']']) := by
    rw [sorted, canonicalChars, canonicalItems_eq, sortedItems_eq]
  have texts (items : List Json) : items.map canonical =
      ((items.map sorted).map canonicalChars).map String.ofList := by
    rw [List.map_map, List.map_map]
    rfl
  rw [canonical_inj, chars, chars, texts, texts,
    List.map_inj_right fun _ _ => String.ofList_inj.mp]
  constructor
  · intro same
    exact map_eq_of_closed rfl (by decide) (fun item _ other => apart_canonicalChars item other)
      opens_canonicalChars (List.cons.inj same).2
  · intro same
    rw [same]

/-- A key with the text of the value under it. -/
def memberText (field : String × Json) : String × String :=
  (field.1, String.ofList (canonicalChars field.2))

theorem memberText_inj {field other : String × Json} :
    memberChars field = memberChars other ↔ memberText field = memberText other := by
  constructor
  · intro same
    obtain ⟨keys, behind⟩ := quotedChars_append_inj same
    rw [memberText, memberText, String.toList_inj.mp keys, (List.cons.inj behind).2]
  · intro same
    obtain ⟨keys, values⟩ := Prod.mk.inj same
    rw [memberChars, memberChars, keys, String.ofList_inj.mp values]

/-- The canonical text of an object is that of its members in canonical order. -/
theorem canonical_obj_eq_iff {fields others : List (String × Json)} :
    (obj fields).canonical = (obj others).canonical ↔
      ((fields.map fun field => (field.1, field.2.sorted)).mergeSort keyLe).map memberText =
        ((others.map fun field => (field.1, field.2.sorted)).mergeSort keyLe).map memberText := by
  have chars (fields : List (String × Json)) : canonicalChars (obj fields).sorted =
      '\x7b' :: (List.intercalate [',']
        (((fields.map fun field => (field.1, field.2.sorted)).mergeSort keyLe).map memberChars) ++
          ['\x7d']) := by
    rw [sorted, canonicalChars, canonicalFields_eq, sortedFields_eq]
  rw [canonical_inj, chars, chars]
  constructor
  · intro same
    have texts := map_eq_of_closed rfl (by decide)
      (fun field _ other => apart_memberChars (apart_canonicalChars field.2 other.2))
      opens_memberChars (List.cons.inj same).2
    exact map_eq_of_map_eq (fun _ _ => memberText_inj.mp) texts
  · intro same
    rw [map_eq_of_map_eq (fun _ _ => memberText_inj.mpr) same]

/-- Members in canonical order are those that were given. -/
theorem map_memberText_perm (fields : List (String × Json)) :
    (((fields.map fun field => (field.1, field.2.sorted)).mergeSort keyLe).map memberText).Perm
      (fields.map fun field => (field.1, field.2.canonical)) := by
  have perm := (List.mergeSort_perm (fields.map fun field => (field.1, field.2.sorted)) keyLe).map
    memberText
  rwa [List.map_map] at perm

/-- The canonical text of an object tells its keys with the canonical texts of their values. -/
theorem perm_of_obj {fields others : List (String × Json)}
    (same : (obj fields).canonical = (obj others).canonical) :
    (fields.map fun field => (field.1, field.2.canonical)).Perm
      (others.map fun field => (field.1, field.2.canonical)) := by
  have texts := canonical_obj_eq_iff.mp same
  exact (map_memberText_perm fields).symm.trans (texts ▸ map_memberText_perm others)

/-- Objects of the same keys with values of one canonical text have one canonical text. -/
theorem canonical_obj_congr {fields others : List (String × Json)}
    (same : (fields.map fun field => (field.1, field.2.canonical)) =
      others.map fun field => (field.1, field.2.canonical)) :
    (obj fields).canonical = (obj others).canonical := by
  have ordered (fields : List (String × Json)) :
      ((fields.map fun field => (field.1, field.2.sorted)).mergeSort keyLe).map memberText =
        (fields.map fun field => (field.1, field.2.canonical)).mergeSort
          fun first second => unitsLe (units first.1) (units second.1) := by
    rw [List.map_mergeSort (r := keyLe) (f := memberText)
      (s := fun first second => unitsLe (units first.1) (units second.1)) fun _ _ _ _ => rfl,
      List.map_map]
    rfl
  rw [canonical_obj_eq_iff, ordered, ordered, same]

/-! ## Members -/

variable {members others : List (String × Option Json)}

theorem mem_present {key : String} {value : Json} :
    (key, value) ∈ present members ↔ (key, some value) ∈ members := by
  simp only [present, List.mem_filterMap, Option.map_eq_some_iff, Prod.mk.injEq, Prod.exists]
  constructor
  · rintro ⟨_, _, inside, _, rfl, rfl, rfl⟩
    exact inside
  · intro inside
    exact ⟨_, _, inside, _, rfl, rfl, rfl⟩

theorem nodup_present (distinct : (members.map (·.1)).Nodup) :
    ((present members).map (·.1)).Nodup := by
  refine distinct.sublist ?_
  clear distinct
  induction members with
  | nil => exact .slnil
  | cons member rest ih =>
      obtain ⟨key, value⟩ := member
      cases value with
      | none => exact ih.cons key
      | some value => exact ih.cons_cons key

theorem lookup_present (distinct : (members.map (·.1)).Nodup) {member : String × Option Json}
    (inside : member ∈ members) : (present members).lookup member.1 = member.2 := by
  obtain ⟨key, value⟩ := member
  have found := (SortedMap.mem_iff_lookup distinct).mp inside
  cases other : (present members).lookup key with
  | none =>
      cases value with
      | none => rfl
      | some value =>
          have listed := (SortedMap.mem_iff_lookup (nodup_present distinct)).mp
            (mem_present.mpr inside)
          rw [other] at listed
          cases listed
  | some value' =>
      have listed := mem_present.mp
        ((SortedMap.mem_iff_lookup (nodup_present distinct)).mpr other)
      rw [(SortedMap.mem_iff_lookup distinct).mp listed] at found
      exact Option.some.inj found

theorem lookup_of_obj {fields others : List (String × Json)} (distinct : (fields.map (·.1)).Nodup)
    (otherDistinct : (others.map (·.1)).Nodup)
    (same : (obj fields).canonical = (obj others).canonical) (key : String) :
    (fields.lookup key).map canonical = (others.lookup key).map canonical := by
  have listed {fields : List (String × Json)} (distinct : (fields.map (·.1)).Nodup)
      (text : String) : (fields.lookup key).map canonical = some text ↔
        (key, text) ∈ fields.map fun field => (field.1, field.2.canonical) := by
    simp only [Option.map_eq_some_iff, ← SortedMap.mem_iff_lookup distinct, List.mem_map,
      Prod.mk.injEq, Prod.exists]
    constructor
    · rintro ⟨value, inside, rfl⟩
      exact ⟨key, value, inside, rfl, rfl⟩
    · rintro ⟨_, value, inside, rfl, rfl⟩
      exact ⟨value, inside, rfl⟩
  apply Option.ext
  intro text
  rw [listed distinct, listed otherDistinct, (perm_of_obj same).mem_iff]

/-- The canonical texts of objects with the same possible members tell which of them are there,
and the text of each. -/
theorem members_of_obj {keys : List String} (distinct : keys.Nodup)
    (named : members.map (·.1) = keys) (otherNamed : others.map (·.1) = keys)
    (same : (obj (present members)).canonical = (obj (present others)).canonical) :
    (members.map fun member => member.2.map canonical) =
      others.map fun member => member.2.map canonical := by
  have byKey {members : List (String × Option Json)} (named : members.map (·.1) = keys) :
      (members.map fun member => member.2.map canonical) =
        keys.map fun key => ((present members).lookup key).map canonical := by
    rw [← named, List.map_map]
    apply List.map_congr_left
    intro member inside
    rw [Function.comp_apply, lookup_present (named ▸ distinct) inside]
  rw [byKey named, byKey otherNamed]
  apply List.map_congr_left
  intro key _
  exact lookup_of_obj (nodup_present (named ▸ distinct)) (nodup_present (otherNamed ▸ distinct))
    same key

theorem present_map_some (fields : List (String × Json)) :
    present (fields.map fun field => (field.1, some field.2)) = fields := by
  induction fields with
  | nil => rfl
  | cons field rest ih => rw [List.map_cons, present_some, ih]

/-- The canonical texts of objects with the same members tell the text of each. -/
theorem fields_of_obj {keys : List String} {fields others : List (String × Json)}
    (distinct : keys.Nodup) (named : fields.map (·.1) = keys) (otherNamed : others.map (·.1) = keys)
    (same : (obj fields).canonical = (obj others).canonical) :
    (fields.map fun field => field.2.canonical) = others.map fun field => field.2.canonical := by
  have keep (fields : List (String × Json)) :
      ((fields.map fun field => (field.1, some field.2)).map fun member => member.1) =
        fields.map (·.1) := by
    rw [List.map_map]
    rfl
  rw [← present_map_some fields, ← present_map_some others] at same
  have texts := members_of_obj distinct ((keep fields).trans named) ((keep others).trans otherNamed)
    same
  rw [List.map_map, List.map_map] at texts
  exact map_eq_of_map_eq (fun _ _ => Option.some.inj) texts

end Json

end CachePolicy
