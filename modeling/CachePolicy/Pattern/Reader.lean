import CachePolicy.Pattern.Basic
import CachePolicy.Text.Hex
import CachePolicy.Text.Split

/-!
# Reading patterns

The grammar is that of browsers without any flag, with the leniency that old
patterns rely on: a bracket or brace that closes nothing stands for itself, an
escape without a meaning stands for the character after it, and a number after a
backslash that names no group is a code in octal.

How many groups a pattern has, and what they are called, is counted before it is
read, since a reference may stand before its group.
-/

namespace CachePolicy.Pattern

/-- The flags that hold at a place of a pattern. -/
structure Flags where
  ignoreCase : Bool
  multiline : Bool
  dotAll : Bool
  deriving DecidableEq, Repr

namespace Flags

/-- No flag. -/
def none : Flags := ⟨false, false, false⟩

/-- Set or clear the flag of a letter. -/
def set (flags : Flags) (value : Bool) : Char → Flags
  | 'i' => { flags with ignoreCase := value }
  | 'm' => { flags with multiline := value }
  | 's' => { flags with dotAll := value }
  | _ => flags

end Flags

/-- What a pattern is known to hold before it is read. -/
structure Groups where
  count : Nat
  names : List (String × Nat)
  deriving Repr

namespace Reader

/-! ## Names and numbers -/

/-- A character of a name. -/
def inName (c : Char) : Bool := isWord c || c == '$' || 0x7F < c.toNat

/-- A name and the text after the `>` that ends it. -/
def name? (text : List Char) : Option (String × List Char) :=
  match Text.cut (!inName ·) text with
  | (first :: more, '>' :: rest) =>
    if first.isDigit then none else some (String.ofList (first :: more), rest)
  | _ => none

/-- The number of the digits at the front, if there are any, and the rest. -/
def number? (text : List Char) : Option (Nat × List Char) :=
  match Text.cut (!Char.isDigit ·) text with
  | ([], _) => none
  | (digits, rest) => (Text.digitsValue? 10 digits).map fun n => (n, rest)

/-! ## Groups -/

/-- Count the groups of a pattern.  `inClass` tells whether the text before ends
within a character class. -/
def countGroups (groups : Groups) (inClass : Bool) : List Char → Option Groups
  | [] => some groups
  | '\\' :: _ :: rest => countGroups groups inClass rest
  | ']' :: rest => countGroups groups false rest
  | '[' :: rest => countGroups groups true rest
  | '(' :: '?' :: '<' :: c :: rest =>
    if inClass ∨ c = '=' ∨ c = '!' then countGroups groups inClass (c :: rest)
    else
      match name? (c :: rest) with
      | some (name, _) =>
        if (groups.names.lookup name).isSome then none
        else
          countGroups ⟨groups.count + 1, groups.names ++ [(name, groups.count + 1)]⟩ inClass
            (c :: rest)
      | none => none
  | '(' :: '?' :: rest => countGroups groups inClass rest
  | '(' :: rest =>
    countGroups (if inClass then groups else { groups with count := groups.count + 1 }) inClass rest
  | _ :: rest => countGroups groups inClass rest

/-! ## Escapes -/

/-- A code in octal of up to `digits` digits that does not exceed 255. -/
def octal (digits value : Nat) : List Char → Nat × List Char
  | [] => (value, [])
  | c :: rest =>
    match digits, Text.hexValue? c with
    | digits + 1, some digit =>
      if digit < 8 ∧ value * 8 + digit < 256 then octal digits (value * 8 + digit) rest
      else (value, c :: rest)
    | _, _ => (value, c :: rest)

/-- Exactly `digits` hexadecimal digits. -/
def hex? (digits : Nat) (text : List Char) : Option (Nat × List Char) :=
  if text.length < digits then none
  else (Text.digitsValue? 16 (text.take digits)).map fun code => (code, text.drop digits)

/-- The code point of an escape without its backslash that stands for one
character in a class and outside. -/
def codeEscape (c : Char) (rest : List Char) : Nat × List Char :=
  match c with
  | 'f' => (12, rest)
  | 'n' => (10, rest)
  | 'r' => (13, rest)
  | 't' => (9, rest)
  | 'v' => (11, rest)
  | 'x' => (hex? 2 rest).getD ('x'.toNat, rest)
  | 'u' => (hex? 4 rest).getD ('u'.toNat, rest)
  | c =>
    if '0' ≤ c ∧ c ≤ '7' then octal 3 0 (c :: rest)
    else (c.toNat, rest)

/-- The class of an escape without its backslash. -/
def classEscape? : Char → Option ClassItem
  | 'd' => some (.digit false)
  | 'D' => some (.digit true)
  | 's' => some (.space false)
  | 'S' => some (.space true)
  | 'w' => some (.word false)
  | 'W' => some (.word true)
  | _ => none

/-- The code point of the control character of a letter. -/
def control (c : Char) : Nat := c.toNat % 32

/-! ## Character classes -/

/-- The next part of a class: a code point or a whole set of them. -/
def classAtom (groups : Groups) : List Char → Option (ClassItem × List Char)
  | [] => none
  | ['\\'] => none
  | '\\' :: 'b' :: rest => some (.range 8 8, rest)
  | '\\' :: 'c' :: c :: rest =>
    if isWord c then some (.range (control c) (control c), rest)
    else some (.range '\\'.toNat '\\'.toNat, 'c' :: c :: rest)
  | ['\\', 'c'] => some (.range '\\'.toNat '\\'.toNat, ['c'])
  | '\\' :: c :: rest =>
    match classEscape? c with
    | some item => some (item, rest)
    | none =>
      if c = 'k' ∧ !groups.names.isEmpty then none
      else
        let (code, rest) := codeEscape c rest
        some (.range code code, rest)
  | c :: rest => some (.range c.toNat c.toNat, rest)

/-- The parts of a range between two parts of a class; a range from or to a set
is both and a hyphen. -/
def classRange : ClassItem → ClassItem → Option (List ClassItem)
  | .range first _, .range _ last => if first ≤ last then some [.range first last] else none
  | first, last => some [first, .range '-'.toNat '-'.toNat, last]

/-- The parts of a class up to its closing bracket. -/
def classItems (groups : Groups) : (fuel : Nat) → List Char → Option (List ClassItem × List Char)
  | 0, _ => none
  | _, [] => none
  | _, ']' :: rest => some ([], rest)
  | fuel + 1, text => do
    let (first, rest) ← classAtom groups text
    let (items, rest) ←
      match rest with
      | '-' :: ']' :: _ => some ([first], rest)
      | '-' :: rest => do
        let (last, rest) ← classAtom groups rest
        let items ← classRange first last
        some (items, rest)
      | _ => some ([first], rest)
    let (more, rest) ← classItems groups fuel rest
    some (items ++ more, rest)

/-- A class after its opening bracket. -/
def charClass (groups : Groups) (flags : Flags) (text : List Char) :
    Option (CharSet × List Char) := do
  let (negated, text) :=
    match text with
    | '^' :: rest => (true, rest)
    | _ => (false, text)
  let (items, rest) ← classItems groups (text.length + 1) text
  some (⟨items, negated, flags.ignoreCase⟩, rest)

/-! ## Quantifiers -/

/-- How often something is repeated, in braces. -/
def braces? : List Char → Option ((Nat × Option Nat) × List Char)
  | '{' :: rest => do
    let (least, rest) ← number? rest
    match rest with
    | '}' :: rest => some ((least, some least), rest)
    | ',' :: '}' :: rest => some ((least, none), rest)
    | ',' :: rest =>
      let (most, rest) ← number? rest
      match rest with
      | '}' :: rest => some ((least, some most), rest)
      | _ => none
    | _ => none
  | _ => none

/-- How often something is repeated. -/
def repeats? : List Char → Option ((Nat × Option Nat) × List Char)
  | '*' :: rest => some ((0, none), rest)
  | '+' :: rest => some ((1, none), rest)
  | '?' :: rest => some ((0, some 1), rest)
  | text => braces? text

/-- A node with the quantifier that follows it, if one does.  The groups of the
node are those from `first` up to, but not including, `next`. -/
def quantified (node : Node) (quantifiable : Bool) (first next : Nat) (text : List Char) :
    Option (Node × List Char) :=
  match repeats? text with
  | none => some (node, text)
  | some ((least, most), rest) =>
    if !quantifiable ∨ most.any (· < least) then none
    else
      match rest with
      | '?' :: rest => some (.loop least most false first next node, rest)
      | rest => some (.loop least most true first next node, rest)

/-! ## Terms -/

/-- What is read next: a node, whether it may be repeated, the number of the next
group, and the rest. -/
structure Term where
  node : Node
  quantifiable : Bool
  next : Nat
  rest : List Char

/-- An escape outside a class, without its backslash. -/
def escape (groups : Groups) (flags : Flags) (next : Nat) : List Char → Option Term
  | [] => none
  | c :: rest =>
    let code := fun (code : Nat) (rest : List Char) =>
      some (Term.mk (.one (.single code flags.ignoreCase)) true next rest)
    match classEscape? c with
    | some item => some ⟨.one ⟨[item], false, flags.ignoreCase⟩, true, next, rest⟩
    | none =>
      match c with
      | 'b' => some ⟨.wordEdge false, false, next, rest⟩
      | 'B' => some ⟨.wordEdge true, false, next, rest⟩
      | 'k' =>
        if groups.names.isEmpty then code c.toNat rest
        else
          match rest with
          | '<' :: rest => do
            let (name, rest) ← name? rest
            let index ← groups.names.lookup name
            some ⟨.back index flags.ignoreCase, true, next, rest⟩
          | _ => none
      | 'c' =>
        match rest with
        | letter :: rest' =>
          if letter.isAlpha then code (control letter) rest' else code '\\'.toNat (c :: rest)
        | [] => code '\\'.toNat [c]
      | c =>
        match (if c = '0' then none else number? (c :: rest)) with
        | some (index, rest') =>
          if index ≤ groups.count then some ⟨.back index flags.ignoreCase, true, next, rest'⟩
          else
            let (value, rest) := codeEscape c rest
            code value rest
        | none =>
          let (value, rest) := codeEscape c rest
          code value rest

/-- The flags before a colon that hold within a group. -/
def modifiers? (flags : Flags) (text : List Char) : Option (Flags × List Char) := do
  let letters := ['i', 'm', 's']
  let (added, rest) := Text.cut (!letters.contains ·) text
  let (removed, rest) ←
    match rest with
    | '-' :: rest =>
      let (removed, rest) := Text.cut (!letters.contains ·) rest
      if added.isEmpty ∧ removed.isEmpty then none else some (removed, rest)
    | rest => some ([], rest)
  match rest with
  | ':' :: rest =>
    if (added ++ removed).eraseDups.length = (added ++ removed).length then
      some (removed.foldl (·.set false ·) (added.foldl (·.set true ·) flags), rest)
    else none
  | _ => none

/-- What an opening bracket opens: what is made of the body, whether it may be repeated, the
flags that hold in it, the number of the next group, and the text of the body. -/
structure Opening where
  wrap : Node → Node
  quantifiable : Bool
  flags : Flags
  next : Nat
  body : List Char

/-- Read what stands between an opening bracket and its body. -/
def opening? (flags : Flags) (next : Nat) : List Char → Option Opening
  | '?' :: ':' :: rest => some ⟨id, true, flags, next, rest⟩
  | '?' :: '=' :: rest => some ⟨.look false false, true, flags, next, rest⟩
  | '?' :: '!' :: rest => some ⟨.look false true, true, flags, next, rest⟩
  | '?' :: '<' :: '=' :: rest => some ⟨.look true false, false, flags, next, rest⟩
  | '?' :: '<' :: '!' :: rest => some ⟨.look true true, false, flags, next, rest⟩
  | '?' :: '<' :: rest => do
    let (_, rest) ← name? rest
    some ⟨.group next, true, flags, next + 1, rest⟩
  | '?' :: rest => do
    let (flags, rest) ← modifiers? flags rest
    some ⟨id, true, flags, next, rest⟩
  | rest => some ⟨.group next, true, flags, next + 1, rest⟩

/-- One term without its quantifier that is not in brackets. -/
def plain (groups : Groups) (flags : Flags) (next : Nat) : List Char → Option Term
  | [] => none
  | '^' :: rest => some ⟨.atStart flags.multiline, false, next, rest⟩
  | '$' :: rest => some ⟨.atEnd flags.multiline, false, next, rest⟩
  | '.' :: rest => some ⟨.one (if flags.dotAll then .all else .withinLine), true, next, rest⟩
  | '\\' :: rest => escape groups flags next rest
  | '[' :: rest => do
    let (set, rest) ← charClass groups flags rest
    some ⟨.one set, true, next, rest⟩
  | c :: rest =>
    if (repeats? (c :: rest)).isSome then none
    else some ⟨.one (.single c.toNat flags.ignoreCase), true, next, rest⟩

mutual

/-- Alternatives up to a closing bracket or the end, with the number of the next
group and the rest. -/
def alternatives (groups : Groups) :
    (fuel : Nat) → Flags → (next : Nat) → List Char → Option (Node × Nat × List Char)
  | 0, _, _, _ => none
  | fuel + 1, flags, next, text => do
    let (first, next, rest) ← terms groups fuel flags next text
    match rest with
    | '|' :: rest =>
      let (second, next, rest) ← alternatives groups fuel flags next rest
      some (.either first second, next, rest)
    | rest => some (first, next, rest)

/-- The terms of one alternative. -/
def terms (groups : Groups) :
    (fuel : Nat) → Flags → (next : Nat) → List Char → Option (Node × Nat × List Char)
  | 0, _, _, _ => none
  | fuel + 1, flags, next, text => do
    let ends :=
      match text with
      | [] => true
      | c :: _ => c == '|' || c == ')'
    if ends then some (.empty, next, text)
    else
      let term ← term groups fuel flags next text
      let (node, rest) ← quantified term.node term.quantifiable next term.next term.rest
      let (more, next, rest) ← terms groups fuel flags term.next rest
      some (.seq node more, next, rest)

/-- One term without its quantifier. -/
def term (groups : Groups) : (fuel : Nat) → Flags → (next : Nat) → List Char → Option Term
  | 0, _, _, _ => none
  | fuel + 1, flags, next, '(' :: text => do
    let opening ← opening? flags next text
    let (body, next, rest) ← alternatives groups fuel opening.flags opening.next opening.body
    match rest with
    | ')' :: rest => some ⟨opening.wrap body, opening.quantifiable, next, rest⟩
    | _ => none
  | _, flags, next, text => plain groups flags next text

end

/-- How deep the reading of a text can go. -/
def depth (text : List Char) : Nat := 4 * (text.length + 1)

end Reader

/-- Read a pattern. -/
def read (pattern : String) : Option Node := do
  let text := pattern.toList
  let groups ← Reader.countGroups ⟨0, []⟩ false text
  match ← Reader.alternatives groups (Reader.depth text) .none 1 text with
  | (node, _, []) => some node
  | _ => none

end CachePolicy.Pattern
