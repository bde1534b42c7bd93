/-!
# Patterns

A pattern is a regular expression with groups, back references and look-around,
of the kind that a browser runs.  `Node` is its tree.  Which flags hold at a place
of the pattern is settled when the tree is built, so a node that depends on a
flag carries it.

Groups are numbered from one by their opening brackets.
-/

namespace CachePolicy.Pattern

/-- A part of a character class. -/
inductive ClassItem where
  /-- The code points from one to another. -/
  | range (first last : Nat)
  | digit (negated : Bool)
  | space (negated : Bool)
  | word (negated : Bool)
  deriving DecidableEq, Repr

/-- A code point of a blank. -/
def isSpace (code : Nat) : Bool :=
  (9 ≤ code && code ≤ 13) || code == 0x20 || code == 0xA0 || code == 0x1680 ||
    (0x2000 ≤ code && code ≤ 0x200A) || code == 0x2028 || code == 0x2029 || code == 0x202F ||
    code == 0x205F || code == 0x3000 || code == 0xFEFF

/-- A letter or digit of ASCII, or `_`. -/
def isWord (c : Char) : Bool := c.isAlphanum || c == '_'

/-- A character that ends a line. -/
def isLineEnd (c : Char) : Bool :=
  c == '\n' || c == '\r' || c.toNat == 0x2028 || c.toNat == 0x2029

/-- Whether a part of a class has a character. -/
def ClassItem.contains (c : Char) : ClassItem → Bool
  | .range first last => first ≤ c.toNat && c.toNat ≤ last
  | .digit negated => c.isDigit != negated
  | .space negated => isSpace c.toNat != negated
  | .word negated => isWord c != negated

/-- A set of characters. -/
structure CharSet where
  items : List ClassItem
  negated : Bool
  /-- Whether the letter case of ASCII letters is ignored. -/
  foldsCase : Bool
  deriving DecidableEq, Repr

namespace CharSet

/-- Whether one of the parts has a character. -/
def listed (set : CharSet) (c : Char) : Bool := set.items.any (·.contains c)

/-- Whether a set has a character. -/
def contains (set : CharSet) (c : Char) : Bool :=
  (set.listed c || (set.foldsCase && (set.listed c.toLower || set.listed c.toUpper))) !=
    set.negated

/-- The set of one code point. -/
def single (code : Nat) (foldsCase : Bool) : CharSet := ⟨[.range code code], false, foldsCase⟩

/-- Every character but those that end a line. -/
def withinLine : CharSet :=
  ⟨[.range 10 10, .range 13 13, .range 0x2028 0x2029], true, false⟩

/-- Every character. -/
def all : CharSet := ⟨[], true, false⟩

@[simp] theorem contains_all (c : Char) : all.contains c = true := by
  simp [contains, listed, all]

end CharSet

/-- The tree of a pattern. -/
inductive Node where
  | empty
  | one (set : CharSet)
  | seq (first second : Node)
  | either (first second : Node)
  /-- A group that is remembered under its number. -/
  | group (index : Nat) (body : Node)
  /-- The text that a group has matched, or nothing if it has not. -/
  | back (index : Nat) (foldsCase : Bool)
  /-- A body that is repeated; the groups from `first` up to, but not including,
  `next` lie in it and are forgotten when it starts again. -/
  | loop (least : Nat) (most : Option Nat) (greedy : Bool) (first next : Nat) (body : Node)
  /-- The start of the text, or of a line. -/
  | atStart (lines : Bool)
  /-- The end of the text, or of a line. -/
  | atEnd (lines : Bool)
  /-- A place where a word starts or ends, or where none does. -/
  | wordEdge (negated : Bool)
  /-- A body that has to match, or must not match, ahead of the place or behind
  it, without moving. -/
  | look (behind negated : Bool) (body : Node)
  deriving Repr

end CachePolicy.Pattern
