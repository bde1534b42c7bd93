import CachePolicy.Glob.Basic

/-!
# Reading globs

Groups in braces may be nested, a comma separates branches only within a group, and
a backslash takes the next character as it is.  Between brackets nothing is special
but the closing bracket, a dash between two characters, and a mark of negation at
the start.

Two stars take directories only where a slash or an end is on either side of them;
elsewhere they are two single stars.
-/

namespace CachePolicy

/-- Why a text is not a glob. -/
inductive GlobFault where
  | unclosedClass
  | invalidRange (low high : Char)
  | unopenedGroup
  | unclosedGroup
  | danglingEscape
  deriving DecidableEq, Repr

/-- A text that is not a glob. -/
structure GlobError where
  text : String
  fault : GlobFault
  deriving DecidableEq, Repr

namespace GlobError

/-- The wording of a fault. -/
def reason : GlobFault → String
  | .unclosedClass => "unclosed character class; missing ']'"
  | .invalidRange low high => s!"invalid range; '{low}' > '{high}'"
  | .unopenedGroup =>
    "unopened alternate group; missing '\x7b' (maybe escape '\x7d' with '[\x7d]'?)"
  | .unclosedGroup =>
    "unclosed alternate group; missing '\x7d' (maybe escape '\x7b' with '[\x7b]'?)"
  | .danglingEscape => "dangling '\\'"

/-- The wording of an error. -/
def message (error : GlobError) : String :=
  let why := reason error.fault
  s!"error parsing glob '{error.text}': {why}"

end GlobError

namespace Glob

/-- A glob that is read up to some place. -/
structure Draft where
  /-- The tokens of the open branch, the last one first. -/
  branch : List GlobToken
  /-- The closed branches of the open group. -/
  siblings : List (List GlobToken)
  /-- What each group around the open branch goes on with when it is closed, from
  the innermost on. -/
  outer : List (List GlobToken × List (List GlobToken))

namespace Draft

/-- Nothing read. -/
def empty : Draft := ⟨[], [], []⟩

/-- Add a token to the open branch. -/
def push (draft : Draft) (token : GlobToken) : Draft :=
  { draft with branch := token :: draft.branch }

/-- Whether a group is open. -/
def inGroup (draft : Draft) : Bool := !draft.outer.isEmpty

/-- Open a group. -/
def openGroup (draft : Draft) : Draft :=
  ⟨[], [], (draft.branch, draft.siblings) :: draft.outer⟩

/-- Go on with the next branch of the open group. -/
def nextBranch (draft : Draft) : Draft :=
  { draft with branch := [], siblings := draft.siblings ++ [draft.branch.reverse] }

/-- Close the open group. -/
def closeGroup (draft : Draft) : Except GlobFault Draft :=
  match draft.outer with
  | [] => .error .unopenedGroup
  | (branch, siblings) :: outer =>
    .ok ⟨.group (draft.siblings ++ [draft.branch.reverse]) :: branch, siblings, outer⟩

/-- Add the directories that two stars take after a slash.  They take the place of
the slash, and of directories before it. -/
def pushDirectories (draft : Draft) (token : GlobToken) : Draft :=
  match draft.branch with
  | .leadingDirectories :: _ => draft
  | .everythingBelow :: _ => draft
  | _ :: branch => { draft with branch := token :: branch }
  | [] => { draft with branch := [token] }

/-- Read what two stars mean between what is before and what is after them.  The
result tells which character was read last. -/
def pushStars (draft : Draft) (before : Option Char) (text : List Char) :
    Draft × Char × List Char :=
  let single := ((draft.push .star).push .star, '*', text)
  if draft.branch.isEmpty then
    match text with
    | [] => (draft.push .leadingDirectories, '*', [])
    | '/' :: rest => (draft.push .leadingDirectories, '/', rest)
    | _ => single
  else if before == some '/' || draft.inGroup && (before == some ',' || before == some '{') then
    match text with
    | [] => (draft.pushDirectories .everythingBelow, '*', [])
    | '/' :: rest => (draft.pushDirectories .innerDirectories, '/', rest)
    | ',' :: _ | '}' :: _ =>
      if draft.inGroup then (draft.pushDirectories .everythingBelow, '*', text) else single
    | _ => single
  else single

end Draft

/-- The ranges of a class up to its closing bracket; the last one read comes first.
A dash after a range waits for the character that is to end it. -/
def classTail : (pending : Bool) → (ranges : List (Char × Char)) → List Char →
    Except GlobFault (List (Char × Char) × List Char)
  | _, _, [] => .error .unclosedClass
  | pending, ranges, c :: rest =>
    match ranges with
    | [] => classTail false [(c, c)] rest
    | (low, high) :: others =>
      if c = ']' then .ok (if pending then ('-', '-') :: ranges else ranges, rest)
      else if pending then
        if c < low then .error (.invalidRange low c)
        else classTail false ((low, c) :: others) rest
      else if c = '-' then classTail true ((low, high) :: others) rest
      else classTail false ((c, c) :: ranges) rest

/-- A class after its opening bracket. -/
def classToken (text : List Char) : Except GlobFault (GlobToken × List Char) := do
  let (negated, text) := match text with
    | '!' :: rest => (true, rest)
    | '^' :: rest => (true, rest)
    | _ => (false, text)
  let (ranges, rest) ← classTail false [] text
  .ok (.class negated ranges.reverse, rest)

/-- Read a text that follows a character, as far as `fuel` goes. -/
def scan : (fuel : Nat) → (before : Option Char) → Draft → List Char → Except GlobFault Draft
  | 0, _, draft, _ => .ok draft
  | _ + 1, _, draft, [] => .ok draft
  | fuel + 1, before, draft, c :: rest =>
    match c, rest with
    | '?', rest => scan fuel (some c) (draft.push .any) rest
    | '*', '*' :: rest =>
      let (draft, last, rest) := draft.pushStars before rest
      scan fuel (some last) draft rest
    | '*', rest => scan fuel (some c) (draft.push .star) rest
    | '[', rest => do
      let (token, rest) ← classToken rest
      scan fuel (some ']') (draft.push token) rest
    | '{', rest => scan fuel (some c) draft.openGroup rest
    | '}', rest => do
      let draft ← draft.closeGroup
      scan fuel (some c) draft rest
    | ',', rest =>
      scan fuel (some c) (if draft.inGroup then draft.nextBranch else draft.push (.literal c)) rest
    | '\\', [] => .error .danglingEscape
    | '\\', d :: rest => scan fuel (some d) (draft.push (.literal d)) rest
    | c, rest => scan fuel (some c) (draft.push (.literal c)) rest

/-- The tokens of a whole text. -/
def tokens? (text : List Char) : Except GlobFault (List GlobToken) := do
  let draft ← scan (text.length + 1) none .empty text
  if draft.inGroup then .error .unclosedGroup else .ok draft.branch.reverse

/-- The glob of a text. -/
def read (text : String) : Except GlobError Glob :=
  match tokens? text.toList with
  | .ok tokens => .ok ⟨text, tokens⟩
  | .error fault => .error ⟨text, fault⟩

end Glob

end CachePolicy
