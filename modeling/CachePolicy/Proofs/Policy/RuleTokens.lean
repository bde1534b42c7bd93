import CachePolicy.Proofs.Policy.Writing
import CachePolicy.Proofs.Rule.Matcher
import Mathlib.Data.Bool.Basic

/-!
# What the lines of a rule show

Each option of a rule is shown by a line of its own kind, so what counts of a rule is known
from what its lines show.
-/

namespace CachePolicy

/-- Two rules that do the same, whatever they name that does not count. -/
structure CachingRule.Alike (rule other : CachingRule) : Prop where
  origin : rule.origin = other.origin
  matcher : rule.matcher = other.matcher
  strategy : rule.strategy = other.strategy
  partition : rule.partition = other.partition
  effectiveExpiration : rule.effectiveExpiration = other.effectiveExpiration
  networkTimeoutSeconds : rule.networkTimeoutSeconds = other.networkTimeoutSeconds
  replayQueue : rule.replayQueue = other.replayQueue

namespace LineKind

/-- The options of the strategy of a rule. -/
def isOption : LineKind → Bool
  | cache | timeout | mostEntries | greatestAge | usesQueue => true
  | _ => false

/-- What follows the header of a rule. -/
def inRule : LineKind → Bool
  | registration | matcher | strategy _ | method => true
  | kind => kind.isOption

/-- What follows the first part of a program. -/
def inRoutes : LineKind → Bool
  | rule _ | queue | retention => true
  | kind => kind.inRule

/-- What registers something, or says which rule does. -/
def registers : LineKind → Bool
  | precache | rule _ | registration => true
  | _ => false

theorem inRule_of_isOption {kind : LineKind} (option : kind.isOption = true) :
    kind.inRule = true := by
  cases kind with
  | cache | timeout | mostEntries | greatestAge | usesQueue => rfl
  | _ => cases option

theorem registers_of_isOption {kind : LineKind} (option : kind.isOption = true) :
    kind.registers = false := by
  cases kind with
  | cache | timeout | mostEntries | greatestAge | usesQueue => rfl
  | _ => cases option

theorem inRoutes_of_inRule {kind : LineKind} (inside : kind.inRule = true) :
    kind.inRoutes = true := by
  unfold inRoutes
  split
  · rfl
  · rfl
  · rfl
  · exact inside

end LineKind

namespace Line

/-- Lists that go on with other kinds of lines than they have can be told from what follows. -/
theorem append_inj_of_kinds (kinds : LineKind → Bool) {first second rest other : List Token}
    (firstKinds : ∀ token ∈ first, kinds token.1 = true)
    (secondKinds : ∀ token ∈ second, kinds token.1 = true)
    (restHead : ∀ token ∈ rest.head?, kinds token.1 = false)
    (otherHead : ∀ token ∈ other.head?, kinds token.1 = false)
    (same : first ++ rest = second ++ other) : first = second ∧ rest = other := by
  have stops {tokens : List Token} (head : ∀ token ∈ tokens.head?, kinds token.1 = false) :
      tokens.takeWhile (kinds ·.1) = [] := by
    cases tokens with
    | nil => rfl
    | cons token tokens =>
        rw [List.takeWhile_cons, head token rfl]
        rfl
  have taken := congrArg (List.takeWhile (kinds ·.1)) same
  rw [List.takeWhile_append_of_pos firstKinds, List.takeWhile_append_of_pos secondKinds,
    stops restHead, stops otherHead, List.append_nil, List.append_nil] at taken
  rw [taken] at same
  exact ⟨taken, List.append_cancel_left same⟩

theorem lookup_toList {shown : Option α} {kind other : LineKind} {text : α → String} :
    (tokens (shown.map fun a => Line.shown other (text a)).toList).lookup kind =
      if kind = other then shown.map text else none := by
  cases shown with
  | none => simp
  | some a =>
      by_cases same : kind = other
      · simp [same]
      · simp [List.lookup_cons, beq_false_of_ne same, same]

@[simp] theorem tokens_fixedLines (text : String) : tokens (fixedLines text) = [] := by
  rw [fixedLines, tokens, List.filterMap_map]
  exact List.filterMap_eq_nil_iff.mpr fun _ _ => rfl

end Line

/-! ## Texts that tell what they are of -/

namespace Text

theorem toString_injective : Function.Injective fun n : Nat => toString n := by
  intro n m same
  have digits : n.repr.toList = m.repr.toList := congrArg String.toList same
  rw [Nat.toList_repr, Nat.toList_repr] at digits
  have back : Nat.ofDigitChars 10 (Nat.toDigits 10 n) 0 = n := Nat.ofDigitChars_ten_toDigits
  rw [← back, digits, Nat.ofDigitChars_ten_toDigits]

theorem toString_uint64_injective : Function.Injective fun n : UInt64 => toString n := by
  intro n m same
  exact UInt64.toNat_inj.mp (toString_injective same)

theorem toString_uint32_injective : Function.Injective fun n : UInt32 => toString n := by
  intro n m same
  exact UInt32.toNat_inj.mp (toString_injective same)

theorem toString_bool_injective : Function.Injective fun b : Bool => toString b :=
  Bool.injective_iff.mpr (by decide)

theorem map_comma_injective {text : α → String} (injective : Function.Injective text) :
    Function.Injective (Option.map fun a => text a ++ ",") := by
  apply Option.map_injective
  intro a b same
  exact injective ((String.append_left_inj ",").mp same)

end Text

/-! ## Rules -/

namespace CachingRule

variable (rule : CachingRule) (queueOf : Option Nat)

/-- What a rule shows as an option of its strategy. -/
def optionText : LineKind → Option String
  | .cache => rule.partition.map fun name => Json.quoted name ++ ","
  | .timeout => rule.networkTimeoutSeconds.map fun n => toString n ++ ","
  | .mostEntries => (rule.effectiveExpiration.bind (·.maxEntries)).map fun n => toString n ++ ","
  | .greatestAge =>
    (rule.effectiveExpiration.bind (·.maxAgeSeconds)).map fun n => toString n ++ ","
  | .usesQueue => queueOf.map fun owner => toString owner ++ ","
  | _ => none

theorem optionText_eq_none {kind : LineKind} (other : kind.isOption = false) :
    rule.optionText queueOf kind = none := by
  cases kind with
  | cache | timeout | mostEntries | greatestAge | usesQueue => cases other
  | _ => rfl

/-- Brackets show nothing. -/
theorem tokens_bracketed (lines : List Line) :
    Line.tokens (bracketed lines) = Line.tokens lines := by
  delta bracketed
  cases lines with
  | nil => rfl
  | cons line rest =>
      rw [List.isEmpty_cons, if_neg Bool.false_ne_true, Line.tokens_fixed, Line.tokens_append]
      exact List.append_nil _

theorem lookup_optionLines (kind : LineKind) :
    (Line.tokens (rule.optionLines queueOf)).lookup kind = rule.optionText queueOf kind := by
  have bounds : (Line.tokens rule.boundsLines).lookup kind =
      ((if kind = .mostEntries then rule.optionText queueOf .mostEntries else none).or
        (if kind = .greatestAge then rule.optionText queueOf .greatestAge else none)) := by
    delta boundsLines
    simp only [optionText]
    cases rule.effectiveExpiration with
    | none => simp
    | some bounds =>
        simp only [Line.tokens_fixed, Line.tokens_append, Line.tokens_nil, List.lookup_append,
          Line.lookup_toList, List.lookup_nil, Option.or_none]
        rfl
  delta optionLines pluginLines
  rw [Line.tokens_append, Line.tokens_append, tokens_bracketed, Line.tokens_append,
    List.lookup_append, List.lookup_append, List.lookup_append, bounds]
  simp only [Line.lookup_toList]
  cases kind <;> simp [optionText]

theorem isOption_of_mem {token : Line.Token}
    (member : token ∈ Line.tokens (rule.optionLines queueOf)) : token.1.isOption = true := by
  have found : (Line.tokens (rule.optionLines queueOf)).lookup token.1 ≠ none := by
    intro absent
    exact absurd (List.lookup_eq_none_iff.mp absent token member) (by simp)
  rw [lookup_optionLines] at found
  cases option : token.1.isOption with
  | true => rfl
  | false => exact absurd (rule.optionText_eq_none queueOf option) found

/-- What follows the header of a rule. -/
def innerTokens : List Line.Token :=
  (.registration, "") :: (.matcher, rule.matcher.toJson.compact ++ "),") ::
    (Line.tokens (rule.strategyLines queueOf) ++ Line.tokens rule.methodLines)

theorem exists_innerTokens_eq :
    ∃ text, rule.innerTokens queueOf =
      (.registration, "") :: (.matcher, rule.matcher.toJson.compact ++ "),") ::
        (.strategy rule.strategy, text) ::
          (Line.tokens (rule.optionLines queueOf) ++ Line.tokens rule.methodLines) := by
  delta innerTokens strategyLines
  cases empty : (rule.optionLines queueOf).isEmpty with
  | true =>
      rw [List.isEmpty_iff.mp empty]
      exact ⟨")" ++ rule.separator, rfl⟩
  | false =>
      refine ⟨"\x7b", ?_⟩
      rw [if_neg Bool.false_ne_true, Line.tokens_shown, Line.tokens_append, Line.tokens_fixed,
        Line.tokens_nil, List.append_nil]
      rfl

theorem method_of_mem {token : Line.Token} (member : token ∈ Line.tokens rule.methodLines) :
    token.1 = .method := by
  delta methodLines at member
  split at member
  · cases member
  · rw [Line.tokens_shown, Line.tokens_nil, List.mem_singleton] at member
    rw [member]

/-- The line of the method is of no other kind. -/
theorem filter_methodLines {kinds : LineKind → Bool} (other : kinds .method = false) :
    (Line.tokens rule.methodLines).filter (kinds ·.1) = [] := by
  apply List.filter_eq_nil_iff.mpr
  intro token member
  rw [rule.method_of_mem member, other]
  exact Bool.false_ne_true

theorem inRule_of_mem_innerTokens {token : Line.Token}
    (member : token ∈ rule.innerTokens queueOf) : token.1.inRule = true := by
  obtain ⟨text, tokens⟩ := rule.exists_innerTokens_eq queueOf
  rw [tokens] at member
  simp only [List.mem_cons, List.mem_append] at member
  rcases member with rfl | rfl | rfl | option | method
  · rfl
  · rfl
  · rfl
  · exact LineKind.inRule_of_isOption (rule.isOption_of_mem queueOf option)
  · rw [rule.method_of_mem method]
    rfl

/-- Of what follows the header of a rule, only the first line registers something. -/
theorem filter_registers_innerTokens :
    (rule.innerTokens queueOf).filter (·.1.registers) = [(.registration, "")] := by
  obtain ⟨text, tokens⟩ := rule.exists_innerTokens_eq queueOf
  have options : (Line.tokens (rule.optionLines queueOf)).filter (·.1.registers) = [] := by
    apply List.filter_eq_nil_iff.mpr
    intro token member
    rw [LineKind.registers_of_isOption (rule.isOption_of_mem queueOf member)]
    exact Bool.false_ne_true
  have method : (Line.tokens rule.methodLines).filter (·.1.registers) = [] :=
    rule.filter_methodLines rfl
  rw [tokens]
  simp only [List.filter_cons, List.filter_append, options, method]
  rfl

/-- Bounds that count bound something. -/
theorem isSome_effectiveExpiration :
    rule.effectiveExpiration.isSome = ((rule.effectiveExpiration.bind (·.maxEntries)).isSome ||
      (rule.effectiveExpiration.bind (·.maxAgeSeconds)).isSome) := by
  rw [effectiveExpiration]
  cases rule.expiration with
  | none => rfl
  | some bounds =>
      by_cases counts : (rule.strategy.usesCache && !bounds.isUnbounded) = true
      · simp only [if_pos counts]
        rw [Bool.and_eq_true, Expiration.isUnbounded, Bool.not_and] at counts
        simpa using counts.2.symm
      · simp only [if_neg counts]
        rfl

variable {rule queueOf} {other : CachingRule} {otherOf : Option Nat}

/-- Bounds that count are known from what each of them is. -/
theorem effectiveExpiration_eq
    (entries : rule.effectiveExpiration.bind (·.maxEntries) =
      other.effectiveExpiration.bind (·.maxEntries))
    (age : rule.effectiveExpiration.bind (·.maxAgeSeconds) =
      other.effectiveExpiration.bind (·.maxAgeSeconds)) :
    rule.effectiveExpiration = other.effectiveExpiration := by
  have present := rule.isSome_effectiveExpiration
  rw [entries, age, ← isSome_effectiveExpiration] at present
  cases first : rule.effectiveExpiration with
  | none =>
      rw [first] at present
      exact (Option.isNone_iff_eq_none.mp (Option.isSome_eq_false_iff.mp present.symm)).symm
  | some bounds =>
      rw [first] at present entries age
      obtain ⟨others, second⟩ := Option.isSome_iff_exists.mp present.symm
      rw [second] at entries age
      obtain ⟨most, oldest⟩ := bounds
      rw [second, show most = others.maxEntries from entries,
        show oldest = others.maxAgeSeconds from age]

/-- What follows the headers of two rules is the same only if the rules are alike and use the
same constant. -/
theorem alike_of_innerTokens (origins : rule.origin = other.origin)
    (queues : queueOf = otherOf → rule.replayQueue = other.replayQueue)
    (same : rule.innerTokens queueOf = other.innerTokens otherOf) :
    rule.Alike other ∧ queueOf = otherOf := by
  obtain ⟨text, tokens⟩ := rule.exists_innerTokens_eq queueOf
  obtain ⟨otherText, otherTokens⟩ := other.exists_innerTokens_eq otherOf
  rw [tokens, otherTokens] at same
  simp only [List.cons.injEq, Prod.mk.injEq, LineKind.strategy.injEq, true_and] at same
  obtain ⟨matchers, ⟨strategies, -⟩, rest⟩ := same
  -- The line of the method shows nothing that the matcher does not.
  have options (kind : LineKind) (option : kind.isOption = true) :
      rule.optionText queueOf kind = other.optionText otherOf kind := by
    have absent (rule : CachingRule) : (Line.tokens rule.methodLines).lookup kind = none := by
      apply List.lookup_eq_none_iff.mpr
      intro token member
      apply bne_iff_ne.mpr
      rw [rule.method_of_mem member]
      rintro rfl
      cases option
    have found := congrArg (List.lookup kind) rest
    rw [List.lookup_append, List.lookup_append, absent, absent, Option.or_none, Option.or_none,
      lookup_optionLines, lookup_optionLines] at found
    exact found
  have owners : queueOf = otherOf :=
    Text.map_comma_injective Text.toString_injective (options .usesQueue rfl)
  have matcher : rule.matcher = other.matcher := by
    apply Matcher.toJson_injective
    apply Json.compact_inj
    · exact rule.matcher.numberless_toJson
    · exact rule.matcher.nesting_toJson
    · exact other.matcher.numberless_toJson
    · exact other.matcher.nesting_toJson
    · exact (String.append_left_inj "),").mp matchers
  constructor
  · constructor
    · exact origins
    · exact matcher
    · exact strategies
    · exact Text.map_comma_injective Json.quoted_injective (options .cache rfl)
    · apply effectiveExpiration_eq
      · exact Text.map_comma_injective Text.toString_uint32_injective (options .mostEntries rfl)
      · exact Text.map_comma_injective Text.toString_uint64_injective (options .greatestAge rfl)
    · exact Text.map_comma_injective Text.toString_uint64_injective (options .timeout rfl)
    · exact queues owners
  · exact owners

/-- Rules that are alike are written alike. -/
theorem Alike.text_route {rule other : CachingRule} (alike : rule.Alike other)
    (index : Nat) (queueOf : Option Nat) :
    (Statement.route index rule queueOf).text = (Statement.route index other queueOf).text := by
  have method : rule.routeMethod = other.routeMethod :=
    congrArg Matcher.routeMethod alike.matcher
  have plugins : Statement.pluginsText rule queueOf = Statement.pluginsText other queueOf := by
    delta Statement.pluginsText
    rw [alike.effectiveExpiration]
  have options : Statement.strategyOptionsText rule queueOf =
      Statement.strategyOptionsText other queueOf := by
    delta Statement.strategyOptionsText
    rw [alike.partition, alike.networkTimeoutSeconds, plugins]
  have strategy : Statement.strategyText rule queueOf = Statement.strategyText other queueOf := by
    delta Statement.strategyText
    rw [options, alike.strategy]
  change Statement.routeText index rule queueOf = Statement.routeText index other queueOf
  delta Statement.routeText
  rw [alike.origin, alike.matcher, method, strategy]

end CachingRule

end CachePolicy
