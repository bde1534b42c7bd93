import CachePolicy.Pattern.Basic

/-!
# Finding patterns in text

A node is run from a place of the text and hands every place at which it can end,
in the order of preference, to what follows it, until that accepts one.  Inside a
look-behind the text is read backwards, so what follows stands before.

A loop stops when a round that is not required has not moved.  Therefore a loop
makes at most as many rounds as are required and as there are characters, and
this bounds the recursion.
-/

namespace CachePolicy.Pattern

/-- How far a run has come. -/
structure Place where
  position : Nat
  /-- What the groups have matched, by number, as the places around it. -/
  groups : List (Nat × Nat × Nat)
  deriving DecidableEq, Repr

namespace Place

/-- The start of a run. -/
def start (position : Nat) : Place := ⟨position, []⟩

/-- Forget the groups from one number up to, but not including, another. -/
def forget (place : Place) (first next : Nat) : Place :=
  { place with groups := place.groups.filter fun entry => !(first ≤ entry.1 && entry.1 < next) }

/-- Remember what a group has matched. -/
def remember (place : Place) (index low high : Nat) : Place :=
  { place with groups := (index, low, high) :: place.groups.filter (·.1 != index) }

end Place

/-- A run from a place; the argument tells whether what follows accepts a
place. -/
abbrev Run := Place → (Place → Option Place) → Option Place

/-- Run a body again and again.  `least` rounds are required, and no more than
`fuel` are made. -/
def rounds (body : Run) (greedy : Bool) (first next : Nat) :
    (fuel least : Nat) → (most : Option Nat) → Run
  | 0, _, _ => fun _ _ => none
  | fuel + 1, least, most => fun place accepts =>
    let again := fun _ : Unit => body (place.forget first next) fun reached =>
      if least = 0 ∧ reached.position = place.position then none
      else rounds body greedy first next fuel (least - 1) (most.map (· - 1)) reached accepts
    if most = some 0 then accepts place
    else if least ≠ 0 then again ()
    else if greedy then (again ()).or (accepts place)
    else (accepts place).or (again ())

/-- The part of a text between two places. -/
def slice (text : Array Char) (low high : Nat) : List Char := (text.extract low high).toList

/-- Whether two texts are the same, up to letter case if that is ignored. -/
def sameText (foldsCase : Bool) (a b : List Char) : Bool :=
  if foldsCase then a.map Char.toLower == b.map Char.toLower else a == b

/-- Whether there is a character of a word at a position. -/
def wordAt (text : Array Char) (position : Nat) : Bool := text[position]?.any isWord

/-- Whether there is a character of a word before a position. -/
def wordBefore (text : Array Char) (position : Nat) : Bool :=
  position != 0 && wordAt text (position - 1)

/-- Whether a line starts at a position. -/
def lineStarts (text : Array Char) (position : Nat) : Bool :=
  position == 0 || text[position - 1]?.any isLineEnd

/-- Whether a line ends at a position. -/
def lineEnds (text : Array Char) (position : Nat) : Bool :=
  position == text.size || text[position]?.any isLineEnd

/-- Stay at a place if a condition holds there. -/
def holds (condition : Nat → Bool) : Run := fun place accepts =>
  if condition place.position then accepts place else none

/-- Run a node on a text, forwards or backwards. -/
def run (text : Array Char) (backwards : Bool) : Node → Run
  | .empty => fun place accepts => accepts place
  | .one set => fun place accepts =>
    if backwards then
      if place.position ≠ 0 ∧ text[place.position - 1]?.any set.contains then
        accepts { place with position := place.position - 1 }
      else none
    else if text[place.position]?.any set.contains then
      accepts { place with position := place.position + 1 }
    else none
  | .seq first second =>
    if backwards then fun place accepts =>
      run text backwards second place fun reached => run text backwards first reached accepts
    else fun place accepts =>
      run text backwards first place fun reached => run text backwards second reached accepts
  | .either first second => fun place accepts =>
    (run text backwards first place accepts).or (run text backwards second place accepts)
  | .group index body => fun place accepts =>
    run text backwards body place fun reached =>
      accepts (reached.remember index (min place.position reached.position)
        (max place.position reached.position))
  | .back index foldsCase => fun place accepts =>
    match place.groups.lookup index with
    | none => accepts place
    | some (low, high) =>
      let size := high - low
      let left := if backwards then place.position - size else place.position
      let right := left + size
      let fits := if backwards then size ≤ place.position else right ≤ text.size
      if fits ∧ sameText foldsCase (slice text low high) (slice text left right) then
        accepts { place with position := if backwards then left else right }
      else none
  | .loop least most greedy first next body =>
    let least := min least (text.size + 1)
    rounds (run text backwards body) greedy first next (least + text.size + 1) least most
  | .atStart lines => holds fun position =>
    if lines then lineStarts text position else position == 0
  | .atEnd lines => holds fun position =>
    if lines then lineEnds text position else position == text.size
  | .wordEdge negated => holds fun position =>
    (wordBefore text position != wordAt text position) != negated
  | .look behind negated body => fun place accepts =>
    match run text behind body place some with
    | some reached => if negated then none else accepts { place with groups := reached.groups }
    | none => if negated then accepts place else none

namespace Node

/-- The place that a match from a position ends at. -/
def matchFrom (node : Node) (text : Array Char) (position : Nat) : Option Place :=
  run text false node (.start position) some

/-- Whether a text has a match that starts at a position. -/
def matchesAt (node : Node) (text : Array Char) (position : Nat) : Bool :=
  (node.matchFrom text position).isSome

/-- Whether a text has a match. -/
def found (node : Node) (text : Array Char) : Bool :=
  (List.range (text.size + 1)).any (node.matchesAt text)

theorem found_iff (node : Node) (text : Array Char) :
    node.found text = true ↔ ∃ position ≤ text.size, node.matchesAt text position = true := by
  simp only [found, List.any_eq_true, List.mem_range, Nat.lt_succ_iff]

end Node

end CachePolicy.Pattern
