import CachePolicy.Pattern.Reader
import CachePolicy.Pattern.Search

/-!
# Anchored patterns

The sign `^` before a pattern binds more tightly than `|`.  Of the alternatives of the pattern it
holds only the first to the start of the text, and the others may match anywhere.

A pattern is read to a depth that its length allows, and the sign makes it longer.  So it is shown
first that to read deeper gives nothing else.
-/

namespace CachePolicy.Pattern

/-! ## Depth -/

namespace Reader

/-- One reading gives what another gives, if that gives something. -/
def Extends {α : Type} (more less : Option α) : Prop :=
  ∀ result, less = some result → more = some result

namespace Extends

variable {α β : Type}

theorem refl (reading : Option α) : Extends reading reading := fun _ same => same

theorem trans {more middle less : Option α} (first : Extends more middle)
    (second : Extends middle less) : Extends more less :=
  fun result read => first result (second result read)

theorem bind {more less : Option α} {after before : α → Option β} (first : Extends more less)
    (next : ∀ value, Extends (after value) (before value)) :
    Extends (more.bind after) (less.bind before) := by
  intro result read
  obtain ⟨value, found, rest⟩ := Option.bind_eq_some_iff.mp read
  rw [first value found]
  exact next value result rest

end Extends

variable {groups : Groups} {fuel : Nat} {flags : Flags} {next : Nat} {c : Char} {text : List Char}

theorem alternatives_succ : alternatives groups (fuel + 1) flags next text =
    (terms groups fuel flags next text).bind fun (first, next, rest) =>
      match rest with
      | '|' :: rest =>
        (alternatives groups fuel flags next rest).bind fun (second, next, rest) =>
          some (.either first second, next, rest)
      | rest => some (first, next, rest) := rfl

theorem terms_cons : terms groups (fuel + 1) flags next (c :: text) =
    if c == '|' || c == ')' then some (.empty, next, c :: text)
    else
      (term groups fuel flags next (c :: text)).bind fun term =>
        (quantified term.node term.quantifiable next term.next term.rest).bind fun (node, rest) =>
          (terms groups fuel flags term.next rest).bind fun (more, next, rest) =>
            some (.seq node more, next, rest) := rfl

theorem term_bracket : term groups (fuel + 1) flags next ('(' :: text) =
    (opening? flags next text).bind fun opening =>
      (alternatives groups fuel opening.flags opening.next opening.body).bind
        fun (body, next, rest) =>
          match rest with
          | ')' :: rest => some ⟨opening.wrap body, opening.quantifiable, next, rest⟩
          | _ => none := rfl

theorem term_plain (other : c ≠ '(') :
    term groups (fuel + 1) flags next (c :: text) = plain groups flags next (c :: text) := by
  rw [term]
  · exact nofun
  · intro _ _ _ bracket
    exact other (List.cons.inj bracket).1

/-- What is read at one depth is also read at another. -/
structure Deepens (groups : Groups) (more less : Nat) : Prop where
  alternatives : ∀ flags next text, Extends (alternatives groups more flags next text)
    (alternatives groups less flags next text)
  terms : ∀ flags next text, Extends (terms groups more flags next text)
    (terms groups less flags next text)
  term : ∀ flags next text, Extends (term groups more flags next text)
    (term groups less flags next text)

theorem deepens_succ (groups : Groups) (fuel : Nat) : Deepens groups (fuel + 1) fuel := by
  -- Each of the three goes on one level less deep, so they go through the induction together.
  induction fuel with
  | zero =>
      have nothing {α : Type} (reading : Option α) : Extends reading none := nofun
      exact ⟨fun _ _ _ => nothing _, fun _ _ _ => nothing _, fun _ _ _ => nothing _⟩
  | succ fuel ih =>
      constructor
      case alternatives =>
        intro flags next text
        rw [alternatives_succ, alternatives_succ]
        refine .bind (ih.terms flags next text) ?_
        rintro ⟨first, after, rest⟩
        dsimp only
        split
        · exact .bind (ih.alternatives flags after _) fun _ => .refl _
        · exact .refl _
      case terms =>
        intro flags next text
        cases text with
        | nil => exact .refl _
        | cons c text =>
            rw [terms_cons, terms_cons]
            split
            · exact .refl _
            · refine .bind (ih.term flags next (c :: text)) fun term => ?_
              refine .bind (.refl _) ?_
              rintro ⟨node, rest⟩
              exact .bind (ih.terms flags term.next rest) fun _ => .refl _
      case term =>
        intro flags next text
        cases text with
        | nil => exact .refl _
        | cons c text =>
            by_cases bracket : c = '('
            · subst bracket
              rw [term_bracket, term_bracket]
              refine .bind (.refl _) fun opening => ?_
              exact .bind (ih.alternatives opening.flags opening.next opening.body) fun _ => .refl _
            · rw [term_plain bracket, term_plain bracket]
              exact .refl _

/-- To read deeper gives nothing else. -/
theorem deepens (groups : Groups) {more less : Nat} (deeper : less ≤ more) :
    Deepens groups more less := by
  obtain ⟨extra, rfl⟩ := Nat.exists_eq_add_of_le deeper
  induction extra with
  | zero => exact ⟨fun _ _ _ => .refl _, fun _ _ _ => .refl _, fun _ _ _ => .refl _⟩
  | succ extra ih =>
      have step := deepens_succ groups (less + extra)
      have ih := ih (Nat.le_add_right less extra)
      exact ⟨fun flags next text => (step.alternatives flags next text).trans
          (ih.alternatives flags next text),
        fun flags next text => (step.terms flags next text).trans (ih.terms flags next text),
        fun flags next text => (step.term flags next text).trans (ih.term flags next text)⟩

/-! ## The sign at the front -/

theorem repeats?_of_plain {term : Term} (done : plain groups flags next text = some term) :
    repeats? text = none := by
  rw [plain.eq_def] at done
  split at done
  case h_7 =>
    split at done
    next => cases done
    next plain => simpa using plain
  all_goals rfl

/-- What can be read does not begin with a quantifier. -/
theorem repeats?_of_terms {read : Node × Nat × List Char}
    (done : terms groups fuel flags next text = some read) : repeats? text = none := by
  cases fuel with
  | zero => cases done
  | succ fuel =>
      cases text with
      | nil => rfl
      | cons c text =>
          rw [terms_cons] at done
          split at done
          next ends =>
            simp only [Bool.or_eq_true, beq_iff_eq] at ends
            rcases ends with rfl | rfl <;> rfl
          next =>
            obtain ⟨term, found, -⟩ := Option.bind_eq_some_iff.mp done
            cases fuel with
            | zero => cases found
            | succ fuel =>
                by_cases bracket : c = '('
                · subst bracket
                  rfl
                · rw [term_plain bracket] at found
                  exact repeats?_of_plain found

/-- The terms after the sign are those without it. -/
theorem terms_anchor {node : Node} {after : Nat} {rest : List Char}
    (done : terms groups fuel .none next text = some (node, after, rest)) :
    terms groups (fuel + 2) .none next ('^' :: text) =
      some (.seq (.atStart false) node, after, rest) := by
  have sign : term groups (fuel + 1) .none next ('^' :: text) =
      some ⟨.atStart false, false, next, text⟩ := rfl
  have deeper := (deepens_succ groups fuel).terms .none next text _ done
  rw [terms_cons, if_neg (by decide), sign, Option.bind_some, quantified, repeats?_of_terms done]
  simp only [Option.bind_some, deeper]

/-- The terms of one alternative are no choice themselves. -/
theorem eq_empty_or_seq_of_terms {node : Node} {after : Nat} {rest : List Char}
    (done : terms groups fuel flags next text = some (node, after, rest)) :
    node = .empty ∨ ∃ first second, node = .seq first second := by
  cases fuel with
  | zero => cases done
  | succ fuel =>
      cases text with
      | nil =>
          cases done
          exact .inl rfl
      | cons c text =>
          rw [terms_cons] at done
          split at done
          next =>
            cases done
            exact .inl rfl
          next =>
            obtain ⟨term, -, done⟩ := Option.bind_eq_some_iff.mp done
            obtain ⟨⟨quantified, _⟩, -, done⟩ := Option.bind_eq_some_iff.mp done
            obtain ⟨⟨more, _⟩, -, done⟩ := Option.bind_eq_some_iff.mp done
            cases done
            exact .inr ⟨quantified, more, rfl⟩

end Reader

namespace Node

/-- The alternatives of a pattern. -/
def alternatives : Node → List Node
  | .either first second => first :: second.alternatives
  | node => [node]

/-- A pattern whose first alternative is held to the start of the text. -/
def anchored : Node → Node
  | .either first second => .either (.seq (.atStart false) first) second
  | node => .seq (.atStart false) node

end Node

theorem read_eq_some_iff {pattern : String} {node : Node} : read pattern = some node ↔
    ∃ groups next, Reader.countGroups ⟨0, []⟩ false pattern.toList = some groups ∧
      Reader.alternatives groups (Reader.depth pattern.toList) .none 1 pattern.toList =
        some (node, next, []) := by
  constructor
  · intro done
    obtain ⟨groups, counted, done⟩ := Option.bind_eq_some_iff.mp done
    obtain ⟨⟨given, next, rest⟩, found, done⟩ := Option.bind_eq_some_iff.mp done
    split at done
    next same =>
      cases same
      cases done
      exact ⟨groups, next, counted, found⟩
    next => cases done
  · rintro ⟨groups, next, counted, found⟩
    simp only [read, counted, found, Option.bind_eq_bind, Option.bind_some]

/-- What is read after the sign `^` is what is read without it, with the first alternative
anchored. -/
theorem read_anchored {pattern : String} {node : Node} (done : read pattern = some node) :
    read ("^" ++ pattern) = some node.anchored := by
  obtain ⟨groups, next, counted, done⟩ := read_eq_some_iff.mp done
  have signed : ("^" ++ pattern).toList = '^' :: pattern.toList := by simp
  rw [read_eq_some_iff, signed]
  refine ⟨groups, next, counted, ?_⟩
  obtain ⟨fuel, depth⟩ : ∃ fuel, Reader.depth pattern.toList = fuel + 1 := ⟨_, rfl⟩
  have deeper : Reader.depth ('^' :: pattern.toList) = fuel + 4 + 1 := by
    rw [Reader.depth] at depth
    rw [Reader.depth, List.length_cons]
    omega
  rw [depth, Reader.alternatives_succ] at done
  obtain ⟨⟨first, after, rest⟩, terms, done⟩ := Option.bind_eq_some_iff.mp done
  -- The sign takes two of the four levels that it adds, so what follows is read deeper than before.
  have anchored := (Reader.deepens groups (Nat.le_add_right (fuel + 2) 2)).terms .none 1 _ _
    (Reader.terms_anchor terms)
  rw [deeper, Reader.alternatives_succ, anchored, Option.bind_some]
  dsimp only at done ⊢
  split at done
  next rest =>
    obtain ⟨⟨second, last, left⟩, others, done⟩ := Option.bind_eq_some_iff.mp done
    cases done
    have others := (Reader.deepens groups (Nat.le_add_right fuel 4)).alternatives _ _ _ _ others
    simp only [others, Option.bind_some, Node.anchored]
  next =>
    cases done
    rcases Reader.eq_empty_or_seq_of_terms terms with rfl | ⟨_, _, rfl⟩ <;> rfl

/-! ## Matches -/

namespace Node

variable (text : Array Char) (position : Nat)

theorem matchesAt_either (first second : Node) :
    (Node.either first second).matchesAt text position =
      (first.matchesAt text position || second.matchesAt text position) := by
  simp [matchesAt, matchFrom, run]

theorem matchesAt_seq_atStart (node : Node) :
    (Node.seq (.atStart false) node).matchesAt text position = true ↔
      position = 0 ∧ node.matchesAt text 0 = true := by
  simp only [matchesAt, matchFrom, run, holds]
  by_cases start : position = 0
  · subst start
    simp [Place.start]
  · simp [Place.start, start]

theorem found_either (first second : Node) : (Node.either first second).found text = true ↔
    first.found text = true ∨ second.found text = true := by
  simp only [found_iff, matchesAt_either, Bool.or_eq_true, and_or_left, exists_or]

theorem found_seq_atStart (node : Node) :
    (Node.seq (.atStart false) node).found text = true ↔ node.matchesAt text 0 = true := by
  simp only [found_iff, matchesAt_seq_atStart]
  exact ⟨fun ⟨_, _, _, starts⟩ => starts, fun starts => ⟨0, Nat.zero_le _, rfl, starts⟩⟩

/-- A pattern has a match just when one of its alternatives has one. -/
theorem found_iff_alternatives (node : Node) : node.found text = true ↔
    ∃ alternative ∈ node.alternatives, alternative.found text = true := by
  induction node with
  | either first second _ ih => simp [found_either, ih, alternatives]
  | _ => simp [alternatives]

/-- An anchored pattern has a match just when the pattern has one at the start, or an alternative
other than the first has one anywhere. -/
theorem found_anchored_iff (node : Node) : node.anchored.found text = true ↔
    node.matchesAt text 0 = true ∨
      ∃ alternative ∈ node.alternatives.tail, alternative.found text = true := by
  cases node with
  | either first second =>
      have anywhere : second.matchesAt text 0 = true → second.found text = true :=
        fun starts => (found_iff _ _).mpr ⟨0, Nat.zero_le _, starts⟩
      rw [anchored, found_either, found_seq_atStart, alternatives, List.tail_cons,
        ← found_iff_alternatives, matchesAt_either, Bool.or_eq_true]
      grind
  | _ => simp [anchored, alternatives, found_seq_atStart]

end Node

end CachePolicy.Pattern
