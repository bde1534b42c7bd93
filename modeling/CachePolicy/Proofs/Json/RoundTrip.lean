import CachePolicy.Json.Printer
import CachePolicy.Json.Reader

/-!
# Reading back what was written

A text between quotation marks is read back as it was, and what stands after it is left
alone.  So is every value without numbers, if it is not nested too deeply.  What was written
can therefore be told apart from everything else that was.
-/

namespace CachePolicy.Json

/-! ## Texts -/

namespace Reader

theorem fourDigits_lowerHex (high low : Nat) (rest : List Char) :
    fourDigits ('0' :: '0' :: Text.lowerHex high :: Text.lowerHex low :: rest) =
      .ok (high % 16 * 16 + low % 16, rest) := by
  have long : ¬ (('0' :: '0' :: Text.lowerHex high :: Text.lowerHex low :: rest).map
      Char.utf8Size).sum < 4 := by
    have first := Char.utf8Size_pos (Text.lowerHex high)
    have second := Char.utf8Size_pos (Text.lowerHex low)
    have zero : Char.utf8Size '0' = 1 := rfl
    simp only [List.map_cons, List.sum_cons, zero]
    omega
  have zero : Text.hexValue? '0' = some 0 := rfl
  rw [fourDigits, if_neg long]
  simp only [zero, Text.hexValue?_lowerHex]
  simp

theorem codePoint_control {c : Char} (control : c.toNat < 32) (rest : List Char) :
    codePoint ('0' :: '0' :: Text.lowerHex (c.toNat / 16) :: Text.lowerHex c.toNat :: rest) =
      .ok (c, rest) := by
  have value : c.toNat / 16 % 16 * 16 + c.toNat % 16 = c.toNat := by omega
  rw [codePoint, fourDigits_lowerHex, value]
  have notLow : ¬ (0xDC00 ≤ c.toNat ∧ c.toNat ≤ 0xDFFF) := by omega
  have notHigh : c.toNat < 0xD800 ∨ 0xDBFF < c.toNat := by omega
  simp only [bind, Except.bind]
  rw [if_neg notLow, if_pos notHigh, Char.ofNat_toNat]

/-- Each character is read back from what stands for it. -/
theorem textTail_escapeChar (fuel : Nat) (done : List Char) (c : Char) (rest : List Char) :
    textTail (fuel + 1) done (escapeChar c ++ rest) = textTail fuel (c :: done) rest := by
  have of_code {code : Nat} (same : c.toNat = code) : c = Char.ofNat code := by
    rw [← same, Char.ofNat_toNat]
  rw [escapeChar]
  split
  next same => rw [same]; rfl
  split
  next same => rw [same]; rfl
  split
  next same => rw [same]; rfl
  split
  next same => rw [same]; rfl
  split
  next same => rw [same]; rfl
  split
  next backspace => rw [of_code backspace]; rfl
  split
  next feed => rw [of_code feed]; rfl
  split
  next control =>
    simp only [List.cons_append, List.nil_append, textTail, escaped, codePoint_control control]
    rfl
  next quotation backslash _ _ _ _ _ plain =>
    simp only [List.cons_append, List.nil_append]
    rw [textTail, if_neg plain]
    · simpa using quotation
    · simpa using backslash

theorem textTail_escaped {fuel : Nat} (done chars rest : List Char) (steps : chars.length < fuel) :
    textTail fuel done (chars.flatMap escapeChar ++ '"' :: rest) =
      .ok (String.ofList (done.reverse ++ chars), rest) := by
  induction chars generalizing fuel done with
  | nil =>
      obtain ⟨fuel, rfl⟩ := Nat.exists_eq_add_of_lt steps
      rw [List.append_nil]
      rfl
  | cons c chars ih =>
      cases fuel with
      | zero => cases steps
      | succ fuel =>
          rw [List.flatMap_cons, List.append_assoc, textTail_escapeChar]
          rw [ih (c :: done) (Nat.lt_of_succ_lt_succ steps)]
          simp

end Reader

theorem length_le_flatMap_escapeChar (chars : List Char) :
    chars.length ≤ (chars.flatMap escapeChar).length := by
  induction chars with
  | nil => exact Nat.le_refl 0
  | cons c chars ih =>
      have one : 1 ≤ (escapeChar c).length := by
        simp only [escapeChar]
        repeat' split
        all_goals simp
      rw [List.flatMap_cons, List.length_append, List.length_cons]
      omega

theorem quotedChars_append (chars rest : List Char) :
    quotedChars chars ++ rest = '"' :: (chars.flatMap escapeChar ++ '"' :: rest) := by
  simp [quotedChars]

/-- A quoted text is read back, up to its closing quotation mark. -/
theorem text_escaped (chars rest : List Char) :
    Reader.text (chars.flatMap escapeChar ++ '"' :: rest) = .ok (String.ofList chars, rest) := by
  have steps := length_le_flatMap_escapeChar chars
  rw [Reader.text, Reader.textTail_escaped]
  · rfl
  · rw [List.length_append]
    omega

/-! ## Values -/

mutual

/-- Whether there is no number in a value. -/
def numberless : Json → Bool
  | .num _ => false
  | .arr items => numberlessItems items
  | .obj fields => numberlessFields fields
  | _ => true

/-- Whether there is no number in any item. -/
def numberlessItems : List Json → Bool
  | [] => true
  | item :: rest => numberless item && numberlessItems rest

/-- Whether there is no number in any member. -/
def numberlessFields : List (String × Json) → Bool
  | [] => true
  | (_, value) :: rest => numberless value && numberlessFields rest

end

mutual

/-- How many lists and objects of a value stand in each other. -/
def nesting : Json → Nat
  | .arr items => nestingItems items + 1
  | .obj fields => nestingFields fields + 1
  | _ => 0

/-- The deepest nesting of an item. -/
def nestingItems : List Json → Nat
  | [] => 0
  | item :: rest => max (nesting item) (nestingItems rest)

/-- The deepest nesting of a member. -/
def nestingFields : List (String × Json) → Nat
  | [] => 0
  | (_, value) :: rest => max (nesting value) (nestingFields rest)

end

namespace Reader

/-- A character that begins a value without numbers. -/
def begins (c : Char) : Bool :=
  c = 'n' || c = 't' || c = 'f' || c = '"' || c = '[' || c = '{'

theorem exists_begins {value : Json} (plain : value.numberless = true) :
    ∃ c tail, compactChars value = c :: tail ∧ begins c = true := by
  cases value with
  | null => exact ⟨_, _, rfl, rfl⟩
  | bool b => cases b <;> exact ⟨_, _, rfl, rfl⟩
  | num n => cases plain
  | str s => exact ⟨_, _, rfl, rfl⟩
  | arr items => exact ⟨_, _, rfl, rfl⟩
  | obj fields => exact ⟨_, _, rfl, rfl⟩

theorem skipBlanks_cons {c : Char} (visible : isBlank c = false) (rest : List Char) :
    skipBlanks (c :: rest) = c :: rest := by
  simp [skipBlanks, visible]

theorem isBlank_of_begins {c : Char} (starts : begins c = true) : isBlank c = false := by
  simp only [begins, Bool.or_eq_true, decide_eq_true_eq] at starts
  rcases starts with ((((rfl | rfl) | rfl) | rfl) | rfl) | rfl <;> rfl

theorem value_str (fuel depth : Nat) (chars rest : List Char) :
    Reader.value (fuel + 1) depth (quotedChars chars ++ rest) =
      .ok (.str (String.ofList chars), rest) := by
  rw [Reader.value, quotedChars_append, skipBlanks_cons rfl]
  change (Reader.text _ >>= fun read => Except.ok (Json.str read.1, read.2)) = _
  rw [text_escaped]
  rfl

theorem exists_begins_items {item : Json} (plain : item.numberless = true) (more : List Json) :
    ∃ c tail, compactItems (item :: more) = c :: tail ∧ begins c = true := by
  obtain ⟨c, tail, chars, starts⟩ := exists_begins plain
  cases more with
  | nil => exact ⟨c, tail, chars, starts⟩
  | cons next later =>
      refine ⟨c, tail ++ ',' :: compactItems (next :: later), ?_, starts⟩
      rw [compactItems, chars]
      rfl

theorem exists_quotation_fields (field : String × Json) (more : List (String × Json)) :
    ∃ tail, compactFields (field :: more) = '"' :: tail := by
  cases more with
  | nil => exact ⟨_, rfl⟩
  | cons next later => exact ⟨_, rfl⟩

theorem ne_of_begins {c : Char} (starts : begins c = true) : c ≠ ']' := by
  rintro rfl
  cases starts

/-- What is read back within a number of steps, without taking anything of the rest. -/
structure Reads (fuel : Nat) : Prop where
  value : ∀ value depth rest, value.numberless = true → value.nesting < depth →
    2 * (compactChars value).length ≤ fuel →
    Reader.value fuel depth (compactChars value ++ rest) = .ok (value, rest)
  items : ∀ item more depth rest, numberlessItems (item :: more) = true →
    nestingItems (item :: more) < depth →
    2 * (compactItems (item :: more)).length + 1 ≤ fuel →
    Reader.items fuel depth (compactItems (item :: more) ++ ']' :: rest) =
      .ok (item :: more, rest)
  fields : ∀ field more depth rest, numberlessFields (field :: more) = true →
    nestingFields (field :: more) < depth →
    2 * (compactFields (field :: more)).length + 1 ≤ fuel →
    Reader.fields fuel depth (compactFields (field :: more) ++ '}' :: rest) =
      .ok (field :: more, rest)

section Next

variable {fuel : Nat} (reads : Reads fuel) (depth : Nat) (rest : List Char)

include reads

theorem value_arr (items : List Json) (plain : numberlessItems items = true)
    (shallow : nestingItems items + 1 < depth)
    (steps : 2 * (compactItems items).length + 1 ≤ fuel) :
    Reader.value (fuel + 1) depth (compactChars (.arr items) ++ rest) =
      .ok (.arr items, rest) := by
  have deep : ¬ depth ≤ 1 := by omega
  rw [Reader.value, compactChars, List.cons_append, skipBlanks_cons rfl]
  simp only [if_neg deep]
  cases items with
  | nil => rfl
  | cons item more =>
      have read := reads.items item more (depth - 1) rest plain (by omega) steps
      rw [numberlessItems, Bool.and_eq_true] at plain
      obtain ⟨c, tail, chars, starts⟩ := exists_begins_items plain.1 more
      rw [chars, List.cons_append] at read
      simp only [chars, List.append_assoc, List.cons_append, List.nil_append,
        skipBlanks_cons (isBlank_of_begins starts)]
      split
      next same => exact absurd (List.cons.inj same).1 (ne_of_begins starts)
      next =>
        rw [read]
        rfl

theorem value_obj (fields : List (String × Json)) (plain : numberlessFields fields = true)
    (shallow : nestingFields fields + 1 < depth)
    (steps : 2 * (compactFields fields).length + 1 ≤ fuel) :
    Reader.value (fuel + 1) depth (compactChars (.obj fields) ++ rest) =
      .ok (.obj fields, rest) := by
  have deep : ¬ depth ≤ 1 := by omega
  rw [Reader.value, compactChars, List.cons_append, skipBlanks_cons rfl]
  simp only [if_neg deep]
  cases fields with
  | nil => rfl
  | cons field more =>
      have read := reads.fields field more (depth - 1) rest plain (by omega) steps
      obtain ⟨tail, chars⟩ := exists_quotation_fields field more
      rw [chars] at read
      simp only [chars, List.append_assoc, List.cons_append, List.nil_append,
        skipBlanks_cons (c := '"') rfl]
      change (Reader.fields fuel (depth - 1) ('"' :: tail ++ '}' :: rest) >>= fun read =>
        Except.ok (Json.obj read.1, read.2)) = _
      rw [read]
      rfl

theorem value_next (value : Json) (plain : value.numberless = true)
    (shallow : value.nesting < depth) (steps : 2 * (compactChars value).length ≤ fuel + 1) :
    Reader.value (fuel + 1) depth (compactChars value ++ rest) = .ok (value, rest) := by
  cases value with
  | null => rfl
  | bool b => cases b <;> rfl
  | num n => cases plain
  | str s =>
      rw [compactChars, value_str]
      simp
  | arr items =>
      rw [compactChars, List.length_cons, List.length_append, List.length_singleton] at steps
      rw [nesting] at shallow
      exact value_arr reads depth rest items plain shallow (by omega)
  | obj fields =>
      rw [compactChars, List.length_cons, List.length_append, List.length_singleton] at steps
      rw [nesting] at shallow
      exact value_obj reads depth rest fields plain shallow (by omega)

theorem items_next (item : Json) (more : List Json)
    (plain : numberlessItems (item :: more) = true)
    (shallow : nestingItems (item :: more) < depth)
    (steps : 2 * (compactItems (item :: more)).length + 1 ≤ fuel + 1) :
    Reader.items (fuel + 1) depth (compactItems (item :: more) ++ ']' :: rest) =
      .ok (item :: more, rest) := by
  rw [numberlessItems, Bool.and_eq_true] at plain
  rw [nestingItems, Nat.max_lt] at shallow
  cases more with
  | nil =>
      rw [compactItems] at steps ⊢
      rw [Reader.items, reads.value item depth _ plain.1 shallow.1 (by omega)]
      rfl
  | cons next later =>
      rw [compactItems] at steps ⊢
      rw [List.length_append, List.length_cons] at steps
      rw [Reader.items, List.append_assoc,
        reads.value item depth _ plain.1 shallow.1 (by omega)]
      simp only [bind, Except.bind, List.cons_append, skipBlanks_cons (c := ',') rfl,
        reads.items next later depth rest plain.2 shallow.2 (by omega)]

theorem fields_next (field : String × Json) (more : List (String × Json))
    (plain : numberlessFields (field :: more) = true)
    (shallow : nestingFields (field :: more) < depth)
    (steps : 2 * (compactFields (field :: more)).length + 1 ≤ fuel + 1) :
    Reader.fields (fuel + 1) depth (compactFields (field :: more) ++ '}' :: rest) =
      .ok (field :: more, rest) := by
  obtain ⟨key, value⟩ := field
  rw [numberlessFields, Bool.and_eq_true] at plain
  rw [nestingFields, Nat.max_lt] at shallow
  cases more with
  | nil =>
      rw [compactFields] at steps ⊢
      rw [List.length_append, List.length_cons] at steps
      rw [Reader.fields, List.append_assoc, quotedChars_append, skipBlanks_cons rfl]
      simp only [text_escaped, bind, Except.bind, List.cons_append,
        skipBlanks_cons (c := ':') rfl,
        reads.value value depth ('}' :: rest) plain.1 shallow.1 (by omega)]
      simp only [skipBlanks_cons (c := '}') rfl, String.ofList_toList]
  | cons next later =>
      rw [compactFields] at steps ⊢
      rw [List.length_append, List.length_cons, List.length_append, List.length_cons] at steps
      rw [Reader.fields, List.append_assoc, quotedChars_append, skipBlanks_cons rfl]
      simp only [text_escaped, bind, Except.bind, List.cons_append, List.append_assoc,
        skipBlanks_cons (c := ':') rfl]
      rw [reads.value value depth _ plain.1 shallow.1 (by omega)]
      simp only [skipBlanks_cons (c := ',') rfl, String.ofList_toList,
        reads.fields next later depth rest plain.2 shallow.2 (by omega)]

end Next

/-- What was written is read back within any number of steps that its length allows.  The
induction is on the steps, since reading goes from a value to its items and back. -/
theorem reads (fuel : Nat) : Reads fuel := by
  induction fuel with
  | zero =>
      constructor
      · intro value depth rest plain _ steps
        obtain ⟨c, tail, chars, -⟩ := exists_begins plain
        rw [chars] at steps
        cases steps
      · intro item more depth rest _ _ steps
        cases steps
      · intro field more depth rest _ _ steps
        cases steps
  | succ fuel reads =>
      constructor
      · intro value depth rest plain shallow steps
        exact value_next reads depth rest value plain shallow steps
      · intro item more depth rest plain shallow steps
        exact items_next reads depth rest item more plain shallow steps
      · intro field more depth rest plain shallow steps
        exact fields_next reads depth rest field more plain shallow steps

end Reader

/-- A value without numbers that is not nested too deeply is read back. -/
theorem read_compact {value : Json} (plain : value.numberless = true)
    (shallow : value.nesting < Reader.nestingLimit) : read value.compact = .ok value := by
  have back := (Reader.reads (Reader.steps (compactChars value))).value value
    Reader.nestingLimit [] plain shallow (Nat.le_add_right _ 2)
  rw [List.append_nil] at back
  rw [read, compact, String.toList_ofList]
  simp only [back]
  rfl

/-- A quoted text is read back. -/
theorem read_quoted (text : String) : read (quoted text) = .ok (.str text) := by
  have literal : quoted text = (Json.str text).compact := by
    rw [compact, compactChars, quoted]
  rw [literal]
  exact read_compact rfl (Nat.succ_pos 127)

theorem quoted_injective : Function.Injective quoted := by
  intro first second same
  have back := read_quoted first
  rw [same, read_quoted] at back
  exact (Json.str.inj (Except.ok.inj back)).symm

theorem compact_inj {first second : Json} (plain : first.numberless = true)
    (shallow : first.nesting < Reader.nestingLimit) (otherPlain : second.numberless = true)
    (otherShallow : second.nesting < Reader.nestingLimit)
    (same : first.compact = second.compact) : first = second := by
  have back := read_compact plain shallow
  rw [same, read_compact otherPlain otherShallow] at back
  exact (Except.ok.inj back).symm

/-! ## One line -/

theorem newline_notMem_escapeChar (c : Char) : '\n' ∉ escapeChar c := by
  have hex (n : Nat) : Text.lowerHex n ≠ '\n' := by
    intro same
    have digit := Text.hexValue?_lowerHex n
    rw [same] at digit
    cases digit
  rw [escapeChar]
  repeat' split
  all_goals simp_all [eq_comm]

theorem newline_notMem_quotedChars (chars : List Char) : '\n' ∉ quotedChars chars := by
  rw [quotedChars, List.mem_cons, List.mem_append, List.mem_flatMap, List.mem_singleton]
  rintro (first | ⟨c, -, escaped⟩ | last)
  · cases first
  · exact newline_notMem_escapeChar c escaped
  · cases last

mutual

/-- A value without numbers is written in one line. -/
theorem newline_notMem_compactChars {value : Json} (plain : value.numberless = true) :
    '\n' ∉ compactChars value := by
  cases value with
  | null => decide
  | bool b => cases b <;> decide
  | num n => cases plain
  | str s => exact newline_notMem_quotedChars s.toList
  | arr items =>
      have inner := newline_notMem_compactItems plain
      simp [compactChars, inner]
  | obj fields =>
      have inner := newline_notMem_compactFields plain
      simp [compactChars, inner]

theorem newline_notMem_compactItems {items : List Json} (plain : numberlessItems items = true) :
    '\n' ∉ compactItems items := by
  match items with
  | [] => exact List.not_mem_nil
  | [item] =>
      rw [numberlessItems, Bool.and_eq_true] at plain
      exact newline_notMem_compactChars plain.1
  | item :: next :: rest =>
      rw [numberlessItems, Bool.and_eq_true] at plain
      have first := newline_notMem_compactChars plain.1
      have later := newline_notMem_compactItems plain.2
      simp [compactItems, first, later]

theorem newline_notMem_compactFields {fields : List (String × Json)}
    (plain : numberlessFields fields = true) : '\n' ∉ compactFields fields := by
  match fields with
  | [] => exact List.not_mem_nil
  | [(key, value)] =>
      rw [numberlessFields, Bool.and_eq_true] at plain
      have name := newline_notMem_quotedChars key.toList
      have first := newline_notMem_compactChars plain.1
      simp [compactFields, name, first]
  | (key, value) :: next :: rest =>
      rw [numberlessFields, Bool.and_eq_true] at plain
      have name := newline_notMem_quotedChars key.toList
      have first := newline_notMem_compactChars plain.1
      have later := newline_notMem_compactFields plain.2
      simp [compactFields, name, first, later]

end

end CachePolicy.Json
