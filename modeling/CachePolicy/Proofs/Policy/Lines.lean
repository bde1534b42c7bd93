import CachePolicy.Policy.Program
import CachePolicy.Proofs.Text.Split

/-!
# The lines of a program

A program is written line by line.  A line is either fixed, or it begins in a way that
tells what it is about and goes on with what the policy says.  No policy can make a line of
another kind, or end one early: a line of a program is one that its statements write.

So the lines of some kinds, in order, can be read off the text, and they are those of the
program.
-/

namespace CachePolicy

/-! ## Lines of a text -/

namespace Text

/-- A text within one line. -/
def Single (text : String) : Prop := '\n' ∉ text.toList

@[simp] theorem single_append {first second : String} :
    Single (first ++ second) ↔ Single first ∧ Single second := by
  rw [Single, String.toList_append, List.mem_append, not_or]
  rfl

theorem single_toString (n : Nat) : Single (toString n) := by
  intro member
  have digit := Nat.isDigit_of_mem_toDigits (by decide) (by decide) (Nat.toList_repr ▸ member)
  cases digit

/-- Each line that is written has an end. -/
theorem toList_lines_cons (text : String) (rest : List String) :
    (Statement.lines (text :: rest)).toList =
      text.toList ++ '\n' :: (Statement.lines rest).toList := by
  rw [Statement.lines, List.map_cons, String.join_cons, String.toList_append,
    String.toList_append, List.append_assoc]
  rfl

/-- The lines of a text, the last of them without an end. -/
def linesOf (text : String) : List String :=
  (split (· = '\n') text.toList).map String.ofList

/-- The lines that were written are read back. -/
theorem linesOf_lines {texts : List String} (single : ∀ text ∈ texts, Single text) :
    linesOf (Statement.lines texts) = texts ++ [""] := by
  induction texts with
  | nil => rfl
  | cons text rest ih =>
      have first : split (· = '\n') (text.toList ++ '\n' :: (Statement.lines rest).toList) =
          text.toList :: split (· = '\n') (Statement.lines rest).toList := by
        apply split_append_cons
        · intro c member
          apply decide_eq_false
          rintro rfl
          exact single text List.mem_cons_self member
        · rfl
      have later := ih fun other member => single other (List.mem_cons_of_mem _ member)
      rw [linesOf, toList_lines_cons, first, List.map_cons, String.ofList_toList]
      exact congrArg (text :: ·) later

/-! ## Bytes

Fixed texts are compared by their bytes, which is quicker than to compare their
characters. -/

/-- The bytes of a text. -/
def bytes (text : String) : List UInt8 := text.toByteArray.data.toList

theorem bytes_eq (text : String) : bytes text = text.toList.flatMap String.utf8EncodeChar := by
  rw [bytes, ← String.utf8Encode_toList, List.utf8Encode, List.data_toByteArray]

theorem single_of_bytes {text : String} (absent : (bytes text).contains 10 = false) :
    Single text := by
  intro member
  have present : 10 ∈ bytes text := by
    rw [bytes_eq, List.mem_flatMap]
    exact ⟨'\n', member, List.mem_singleton.mpr rfl⟩
  rw [List.contains_iff_mem.mpr present] at absent
  cases absent

theorem bytes_prefix {text other : String} (starts : text.toList <+: other.toList) :
    (bytes text).isPrefixOf (bytes other) = true := by
  obtain ⟨rest, whole⟩ := starts
  rw [List.isPrefixOf_iff_prefix, bytes_eq, bytes_eq, ← whole, List.flatMap_append]
  exact List.prefix_append _ _

end Text

/-! ## Kinds of lines -/

/-- What a line that shows something of a policy is about. -/
inductive LineKind where
  | heading
  | library
  | debug
  | skipWaiting
  | claimClients
  | cleanupPrecache
  | declaredCaches
  | precache
  | queue
  | retention
  | rule (origin : RuleOrigin)
  | registration
  | matcher
  | strategy (strategy : Strategy)
  | cache
  | timeout
  | mostEntries
  | greatestAge
  | usesQueue
  | method
  deriving DecidableEq

namespace LineKind

/-- All kinds. -/
def all : List LineKind :=
  [heading, library, debug, skipWaiting, claimClients, cleanupPrecache, declaredCaches, precache,
    queue, retention, registration, matcher, cache, timeout, mostEntries, greatestAge, usesQueue,
    method] ++ RuleOrigin.all.map rule ++ Strategy.all.map strategy

theorem mem_all (kind : LineKind) : kind ∈ all := by
  cases kind with
  | rule origin => cases origin <;> decide
  | strategy strategy => cases strategy <;> decide
  | _ => decide

/-- How a line of a kind begins. -/
def mark : LineKind → String
  | heading => "// swpolicy config "
  | library => "importScripts("
  | debug => "  debug: "
  | skipWaiting => "self.addEventListener('install', "
  | claimClients => "workbox.core.clientsClaim("
  | cleanupPrecache => "workbox.precaching.cleanupOutdatedCaches("
  | declaredCaches => "const DECLARED_CACHES = "
  | precache => "workbox.precaching.precacheAndRoute("
  | queue => "const replayQueue"
  | retention => "  maxRetentionTime: "
  | rule origin => "// " ++ origin.name ++ " rule "
  | registration => "workbox.routing.registerRoute("
  | matcher => "  matchRequest("
  | strategy kept => "  new workbox.strategies." ++ kept.name ++ "("
  | cache => "    cacheName: "
  | timeout => "    networkTimeoutSeconds: "
  | mostEntries => "        maxEntries: "
  | greatestAge => "        maxAgeSeconds: "
  | usesQueue => "      replayQueue"
  | method => "  \""

theorem mark_rule (origin : RuleOrigin) : (rule origin).mark = "// " ++ origin.name ++ " rule " :=
  rfl

theorem mark_strategy (kept : Strategy) :
    (strategy kept).mark = "  new workbox.strategies." ++ kept.name ++ "(" := rfl

/-- Whether a line is of a kind. -/
def begins (kind : LineKind) (line : String) : Bool :=
  kind.mark.toList.isPrefixOf line.toList

/-- No kind begins as another one does, or with more than a line. -/
theorem apart_and_single :
    (∀ first ∈ all, ∀ second ∈ all,
      (Text.bytes first.mark).isPrefixOf (Text.bytes second.mark) = true → first = second) ∧
      ∀ kind ∈ all, (Text.bytes kind.mark).contains 10 = false := by
  decide +kernel

theorem eq_of_starts {kind other : LineKind}
    (starts : kind.mark.toList <+: other.mark.toList) : kind = other :=
  apart_and_single.1 kind kind.mem_all other other.mem_all (Text.bytes_prefix starts)

theorem single_mark (kind : LineKind) : Text.Single kind.mark :=
  Text.single_of_bytes (apart_and_single.2 kind kind.mem_all)

theorem begins_mark_append {kind other : LineKind} {rest : String} :
    kind.begins (other.mark ++ rest) = true ↔ kind = other := by
  rw [begins, List.isPrefixOf_iff_prefix, String.toList_append]
  constructor
  · intro starts
    rcases List.prefix_or_prefix_of_prefix starts (List.prefix_append _ _) with less | more
    · exact eq_of_starts less
    · exact (eq_of_starts more).symm
  · rintro rfl
    exact List.prefix_append _ _

end LineKind

/-! ## Lines -/

/-- A line of a program. -/
inductive Line where
  | fixed (text : String)
  | shown (kind : LineKind) (rest : String)

namespace Line

/-- The text of a line. -/
def text : Line → String
  | fixed text => text
  | shown kind rest => kind.mark ++ rest

/-- The kind of a line that shows something, and what follows. -/
abbrev Token := LineKind × String

/-- What a line shows of the policy. -/
def token? : Line → Option Token
  | fixed _ => none
  | shown kind rest => some (kind, rest)

/-- What lines show of the policy. -/
def tokens (lines : List Line) : List Token := lines.filterMap token?

@[simp] theorem tokens_nil : tokens [] = [] := rfl

@[simp] theorem tokens_fixed (text : String) (rest : List Line) :
    tokens (fixed text :: rest) = tokens rest := rfl

@[simp] theorem tokens_shown (kind : LineKind) (text : String) (rest : List Line) :
    tokens (shown kind text :: rest) = (kind, text) :: tokens rest := rfl

@[simp] theorem tokens_append (first second : List Line) :
    tokens (first ++ second) = tokens first ++ tokens second := List.filterMap_append

/-- Whether a text may be a fixed line: it is one line, and does not look like one that
shows something. -/
def isFixed (text : String) : Bool :=
  !(Text.bytes text).contains 10 &&
    LineKind.all.all fun kind => !(Text.bytes kind.mark).isPrefixOf (Text.bytes text)

/-- A line that is one, and shows something just when it looks so. -/
inductive Proper : Line → Prop where
  | fixed {text : String} : isFixed text = true → Proper (fixed text)
  | shown {kind : LineKind} {rest : String} : Text.Single rest → Proper (shown kind rest)

/-- Lines that all are proper. -/
def AllProper (lines : List Line) : Prop := ∀ line ∈ lines, line.Proper

@[simp] theorem allProper_nil : AllProper [] := fun _ member => absurd member List.not_mem_nil

@[simp] theorem allProper_cons {line : Line} {rest : List Line} :
    AllProper (line :: rest) ↔ line.Proper ∧ AllProper rest := List.forall_mem_cons

@[simp] theorem allProper_append {first second : List Line} :
    AllProper (first ++ second) ↔ AllProper first ∧ AllProper second := List.forall_mem_append

/-- The lines of some kinds, as a text shows them. -/
def ofKinds (kinds : LineKind → Bool) (line : String) : Bool :=
  LineKind.all.any fun kind => kinds kind && kind.begins line

theorem ofKinds_shown (kinds : LineKind → Bool) (kind : LineKind) (rest : String) :
    ofKinds kinds (kind.mark ++ rest) = kinds kind := by
  rw [Bool.eq_iff_iff, ofKinds, List.any_eq_true]
  constructor
  · rintro ⟨other, -, holds⟩
    rw [Bool.and_eq_true, LineKind.begins_mark_append] at holds
    obtain ⟨chosen, rfl⟩ := holds
    exact chosen
  · intro chosen
    refine ⟨kind, kind.mem_all, ?_⟩
    rw [Bool.and_eq_true]
    exact ⟨chosen, LineKind.begins_mark_append.mpr rfl⟩

theorem ofKinds_fixed (kinds : LineKind → Bool) {text : String} (plain : isFixed text = true) :
    ofKinds kinds text = false := by
  rw [isFixed, Bool.and_eq_true, List.all_eq_true] at plain
  rw [ofKinds, List.any_eq_false]
  intro kind member holds
  rw [Bool.and_eq_true] at holds
  have other := plain.2 kind member
  rw [Text.bytes_prefix (List.isPrefixOf_iff_prefix.mp holds.2)] at other
  cases other

theorem allProper_singleton {line : Line} : AllProper [line] ↔ line.Proper :=
  allProper_cons.trans (and_iff_left allProper_nil)

theorem allProper_toList {shown : Option α} {line : α → Line} (proper : ∀ a, (line a).Proper) :
    AllProper (shown.map line).toList := by
  cases shown with
  | none => exact allProper_nil
  | some a => exact allProper_cons.mpr ⟨proper a, allProper_nil⟩

theorem Proper.single {line : Line} (proper : line.Proper) : Text.Single line.text := by
  cases proper with
  | fixed plain =>
      rw [isFixed, Bool.and_eq_true, Bool.not_eq_true'] at plain
      exact Text.single_of_bytes plain.1
  | shown single => exact Text.single_append.mpr ⟨LineKind.single_mark _, single⟩

/-- The text of a line that shows something. -/
def lineOf (token : Token) : String := token.1.mark ++ token.2

/-- The lines of some kinds are those that show something of these kinds. -/
theorem filter_ofKinds {lines : List Line} (proper : AllProper lines)
    (kinds : LineKind → Bool) :
    (lines.map text).filter (ofKinds kinds) =
      ((tokens lines).filter (kinds ·.1)).map lineOf := by
  induction lines with
  | nil => rfl
  | cons line rest ih =>
      have later := ih fun other member => proper other (List.mem_cons_of_mem _ member)
      cases line with
      | fixed text =>
          have plain : isFixed text = true := by
            cases proper _ List.mem_cons_self with
            | fixed plain => exact plain
          rw [List.map_cons, List.filter_cons, Line.text, ofKinds_fixed kinds plain, later]
          rfl
      | shown kind more =>
          rw [List.map_cons, List.filter_cons, Line.text, ofKinds_shown, later, tokens_shown,
            List.filter_cons]
          cases kinds kind with
          | false => rfl
          | true => rfl

theorem lineOf_injective : Function.Injective lineOf := by
  rintro ⟨kind, rest⟩ ⟨other, more⟩ same
  have starts : kind.begins (other.mark ++ more) = true := by
    rw [show other.mark ++ more = kind.mark ++ rest from same.symm]
    exact LineKind.begins_mark_append.mpr rfl
  obtain rfl := LineKind.begins_mark_append.mp starts
  have rests : rest = more := (String.append_right_inj kind.mark).mp same
  rw [rests]

end Line

end CachePolicy
