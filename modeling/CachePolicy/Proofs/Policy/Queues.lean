import CachePolicy.Proofs.Policy.Determined
import Mathlib.Data.List.Nodup

/-!
# Each queue is declared once

The loop over the rules of a program carries the constants that it has declared.  What it writes
of a rule can be told from all constants of the program: those that are named for the rule, and
then the rule, which uses the one constant of its queue.
-/

namespace CachePolicy

namespace Constants

/-! ## The constants of a program -/

/-- The constants that rules from an index on declare, after those that there are. -/
def announced (constants : Constants) (index : Nat) : List CachingRule → Constants
  | [] => []
  | rule :: rest =>
    constants.added index rule ++ announced (constants.after index rule) (index + 1) rest

/-- The rule that the constant of a rule's queue is named for. -/
def ownerOf? (constants : Constants) (rule : CachingRule) : Option Nat :=
  rule.replayQueue.bind fun queue => constants.declared.lookup queue.name

/-- The constants that are named for a rule, and then the rule with the constant of its queue. -/
def passage (constants : Constants) : CachingRule × Nat → Program
  | (rule, index) =>
    (constants.filter (·.2 == index)).flatMap declaring ++
      [.blank, .route index rule (constants.ownerOf? rule)]

variable {constants more : Constants} {index : Nat} {rule : CachingRule}
  {rules rest : List CachingRule}

theorem append_announced_cons :
    constants ++ constants.announced index (rule :: rest) =
      constants.after index rule ++
        (constants.after index rule).announced (index + 1) rest :=
  (List.append_assoc _ _ _).symm

theorem lookup_eq_none_iff {name : String} :
    constants.declared.lookup name = none ↔ name ∉ constants.map (·.1.name) := by
  rw [List.lookup_eq_none_iff, declared, List.forall_mem_map, List.mem_map]
  constructor
  · rintro others ⟨constant, member, rfl⟩
    exact absurd (others constant member) (by simp)
  · intro absent constant member
    refine bne_iff_ne.mpr ?_
    rintro rfl
    exact absent ⟨constant, member, rfl⟩

theorem name_notMem_of_mem_added {constant : ReplayQueue × Nat}
    (member : constant ∈ constants.added index rule) :
    constant.1.name ∉ constants.map (·.1.name) := by
  rw [added] at member
  split at member
  next => cases member
  next queue _ =>
    split at member
    next => cases member
    next absent =>
      rw [List.mem_singleton.mp member]
      exact lookup_eq_none_iff.mp absent

theorem pairwise_added {relates : ReplayQueue × Nat → ReplayQueue × Nat → Prop} :
    (constants.added index rule).Pairwise relates := by
  rcases constants.added_cases index rule with none | ⟨queue, one⟩
  · rw [none]
    exact .nil
  · rw [one]
    exact List.pairwise_singleton _ _

/-- The constant that a rule uses is the one that its queue has after it. -/
theorem ownerOf?_after :
    (constants.after index rule).ownerOf? rule = constants.used index rule := by
  rw [ownerOf?, used]
  cases named : rule.replayQueue with
  | none => rfl
  | some queue =>
      rw [Option.bind_some, Option.map_some, after, declared_append, List.lookup_append]
      cases found : constants.declared.lookup queue.name with
      | some owner => rfl
      | none =>
          have new : constants.added index rule = [(queue, index)] := by simp [added, named, found]
          rw [new]
          exact List.lookup_cons_self

/-- Later constants are for other queues. -/
theorem ownerOf?_append {owner : Nat} (found : constants.ownerOf? rule = some owner) :
    (constants ++ more).ownerOf? rule = some owner := by
  obtain ⟨queue, named, found⟩ := Option.bind_eq_some_iff.mp found
  rw [ownerOf?, named, Option.bind_some, declared_append, List.lookup_append, found,
    Option.some_or]

theorem ownerOf?_announced :
    (constants ++ constants.announced index (rule :: rest)).ownerOf? rule =
      constants.used index rule := by
  rw [append_announced_cons]
  cases uses : constants.used index rule with
  | some owner => exact ownerOf?_append (ownerOf?_after.trans uses)
  | none =>
      have unnamed : rule.replayQueue = none := Option.map_eq_none_iff.mp uses
      rw [ownerOf?, unnamed]
      rfl

/-- After a rule, the queues with a constant are those before it and its own. -/
theorem mem_names_after {name : String} :
    name ∈ (constants.after index rule).map (·.1.name) ↔
      name ∈ constants.map (·.1.name) ∨ name ∈ rule.replayQueue.map (·.name) := by
  constructor
  · intro member
    rw [after, List.map_append] at member
    rcases List.mem_append.mp member with earlier | new
    · exact .inl earlier
    · obtain ⟨constant, added, rfl⟩ := List.mem_map.mp new
      rw [(mem_added added).2]
      exact .inr rfl
  · rintro (earlier | own)
    · rw [after, List.map_append]
      exact List.mem_append_left _ earlier
    · obtain ⟨queue, named, rfl⟩ := Option.map_eq_some_iff.mp own
      by_contra absent
      have found : (constants.after index rule).ownerOf? rule = constants.used index rule :=
        ownerOf?_after
      rw [ownerOf?, used, named, Option.bind_some, lookup_eq_none_iff.mpr absent] at found
      cases found

/-- The queues with a constant are those before the rules and those of the rules. -/
theorem mem_names_announced {name : String} :
    name ∈ (constants ++ constants.announced index rules).map (·.1.name) ↔
      name ∈ constants.map (·.1.name) ∨
        name ∈ (rules.filterMap (·.replayQueue)).map (·.name) := by
  induction rules generalizing constants index with
  | nil => simp [announced]
  | cons rule rest ih =>
      have own : name ∈ ((rule :: rest).filterMap (·.replayQueue)).map (·.name) ↔
          name ∈ rule.replayQueue.map (·.name) ∨
            name ∈ (rest.filterMap (·.replayQueue)).map (·.name) := by
        cases named : rule.replayQueue with
        | none => simp [named]
        | some queue => simp [named, eq_comm]
      rw [append_announced_cons, ih, mem_names_after, own, or_assoc]

theorem le_of_mem_announced {constant : ReplayQueue × Nat}
    (member : constant ∈ constants.announced index rules) : index ≤ constant.2 := by
  induction rules generalizing constants index with
  | nil => cases member
  | cons rule rest ih =>
      rcases List.mem_append.mp member with here | later
      · exact Nat.le_of_eq (mem_added here).1.symm
      · exact Nat.le_of_succ_le (ih later)

theorem queue_of_mem_announced {constant : ReplayQueue × Nat}
    (member : constant ∈ constants.announced index rules) :
    constant.1 ∈ rules.filterMap (·.replayQueue) := by
  induction rules generalizing constants index with
  | nil => cases member
  | cons rule rest ih =>
      rcases List.mem_append.mp member with here | later
      · exact List.mem_filterMap.mpr ⟨rule, List.mem_cons_self, (mem_added here).2⟩
      · obtain ⟨other, listed, named⟩ := List.mem_filterMap.mp (ih later)
        exact List.mem_filterMap.mpr ⟨other, List.mem_cons_of_mem _ listed, named⟩

/-- Of all constants, those that a rule declares are named for it. -/
theorem filter_announced (below : ∀ constant ∈ constants, constant.2 < index) :
    (constants ++ constants.announced index (rule :: rest)).filter (·.2 == index) =
      constants.added index rule := by
  have earlier : constants.filter (·.2 == index) = [] := by
    apply List.filter_eq_nil_iff.mpr
    intro constant member same
    exact absurd (eq_of_beq same) (Nat.ne_of_lt (below constant member))
  have here : (constants.added index rule).filter (·.2 == index) = constants.added index rule := by
    apply List.filter_eq_self.mpr
    intro constant member
    exact beq_iff_eq.mpr (mem_added member).1
  have later : ((constants.after index rule).announced (index + 1) rest).filter
      (·.2 == index) = [] := by
    apply List.filter_eq_nil_iff.mpr
    intro constant member same
    exact absurd (eq_of_beq same) (Nat.ne_of_gt (le_of_mem_announced member))
  rw [announced, List.filter_append, List.filter_append, earlier, here, later, List.nil_append,
    List.append_nil]

/-- Constants in the order of the rules that they are named for, with one for each queue. -/
structure Tidy (constants : Constants) (index : Nat) : Prop where
  below : ∀ constant ∈ constants, constant.2 < index
  increasing : constants.Pairwise (·.2 < ·.2)
  names : constants.Pairwise (·.1.name ≠ ·.1.name)

namespace Tidy

theorem nil : Tidy [] 0 := ⟨nofun, .nil, .nil⟩

/-- A rule declares a constant only if its queue has none. -/
theorem next (tidy : Tidy constants index) : Tidy (constants.after index rule) (index + 1) := by
  constructor
  · intro constant member
    rcases List.mem_append.mp member with earlier | new
    · exact Nat.lt_succ_of_lt (tidy.below constant earlier)
    · exact Nat.lt_succ_of_le (Nat.le_of_eq (mem_added new).1)
  · refine List.pairwise_append.mpr ⟨tidy.increasing, pairwise_added, ?_⟩
    intro constant member other new
    rw [(mem_added new).1]
    exact tidy.below constant member
  · refine List.pairwise_append.mpr ⟨tidy.names, pairwise_added, ?_⟩
    intro constant member other new same
    apply name_notMem_of_mem_added new
    exact List.mem_map.mpr ⟨constant, member, same⟩

/-- The constants of all rules are in order. -/
theorem announced (tidy : Tidy constants index) :
    Tidy (constants ++ constants.announced index rules) (index + rules.length) := by
  induction rules generalizing constants index with
  | nil => simpa [Constants.announced] using tidy
  | cons rule rest ih =>
      rw [append_announced_cons, List.length_cons, Nat.add_comm rest.length, ← Nat.add_assoc]
      exact ih tidy.next

end Tidy

theorem used_le (below : ∀ constant ∈ constants, constant.2 < index) {owner : Nat}
    (uses : constants.used index rule = some owner) : owner ≤ index := by
  obtain ⟨queue, -, rfl⟩ := Option.map_eq_some_iff.mp uses
  cases found : constants.declared.lookup queue.name with
  | none => exact Nat.le_refl index
  | some owner =>
      obtain ⟨constant, member, -, rfl⟩ := exists_of_lookup found
      exact Nat.le_of_lt (below constant member)

/-- The constant of a rule is named for that rule or for an earlier one. -/
theorem exists_ownerOf?_le (tidy : Tidy constants index) {place : Nat}
    (placed : (rule, place) ∈ rules.zipIdx index) {queue : ReplayQueue}
    (named : rule.replayQueue = some queue) :
    ∃ owner ≤ place,
      (constants ++ constants.announced index rules).ownerOf? rule = some owner := by
  induction rules generalizing constants index with
  | nil => cases placed
  | cons first rest ih =>
      rw [List.zipIdx_cons] at placed
      rcases List.mem_cons.mp placed with here | later
      · obtain ⟨rfl, rfl⟩ := Prod.mk.inj here
        have uses : ∃ owner, constants.used place rule = some owner := by
          rw [used, named]
          exact ⟨_, rfl⟩
        obtain ⟨owner, uses⟩ := uses
        exact ⟨owner, used_le tidy.below uses, ownerOf?_announced.trans uses⟩
      · rw [append_announced_cons]
        exact ih tidy.next later

end Constants

/-! ## The program of the rules -/

namespace Program

open Constants

/-- What the loop writes of each rule is known from all constants together. -/
theorem routes_eq {constants : Constants} {index : Nat} {rules : List CachingRule}
    (tidy : Tidy constants index) :
    routes constants.declared index rules =
      (rules.zipIdx index).flatMap (constants ++ constants.announced index rules).passage := by
  induction rules generalizing constants index with
  | nil => rfl
  | cons rule rest ih =>
      have here : (constants ++ constants.announced index (rule :: rest)).passage (rule, index) =
          (constants.added index rule).flatMap declaring ++
            [.blank, .route index rule (constants.used index rule)] := by
        rw [passage, filter_announced tidy.below, ownerOf?_announced]
      rw [routes_cons, List.zipIdx_cons, List.flatMap_cons, here, append_announced_cons,
        ih tidy.next, List.append_assoc]
      rfl

end Program

/-! ## The lines of queues -/

namespace LineKind

/-- What declares a constant. -/
def declares : LineKind → Bool
  | queue | retention => true
  | _ => false

/-- What declares a constant, heads a rule or uses a constant. -/
def ofQueues : LineKind → Bool
  | rule _ | usesQueue => true
  | kind => kind.declares

theorem declares_of_inRule {kind : LineKind} (inside : kind.inRule = true) :
    kind.declares = false := by
  cases kind with
  | queue | retention => cases inside
  | _ => rfl

theorem ofQueues_of_declares {kind : LineKind} (declares : kind.declares = true) :
    kind.ofQueues = true := by
  cases kind with
  | queue | retention => rfl
  | _ => cases declares

theorem inRoutes_of_ofQueues {kind : LineKind} (concerns : kind.ofQueues = true) :
    kind.inRoutes = true := by
  cases kind with
  | queue | retention | rule | usesQueue => rfl
  | _ => cases concerns

end LineKind

namespace Line

theorem filter_toList {shown : Option α} {kind : LineKind} {text : α → String}
    (kinds : LineKind → Bool) :
    (tokens (shown.map fun a => Line.shown kind (text a)).toList).filter (kinds ·.1) =
      if kinds kind then (shown.map fun a => (kind, text a)).toList else [] := by
  cases shown with
  | none => simp
  | some a => cases chosen : kinds kind <;> simp [chosen]

end Line

namespace CachingRule

/-- What a rule shows of queues is the constant that it uses. -/
theorem filter_ofQueues_innerTokens (rule : CachingRule) (queueOf : Option Nat) :
    (rule.innerTokens queueOf).filter (·.1.ofQueues) =
      (queueOf.map fun owner => (LineKind.usesQueue, toString owner ++ ",")).toList := by
  obtain ⟨text, tokens⟩ := rule.exists_innerTokens_eq queueOf
  have bounds : (Line.tokens rule.boundsLines).filter (·.1.ofQueues) = [] := by
    delta boundsLines
    cases rule.effectiveExpiration with
    | none => rfl
    | some bounds =>
        simp only [Line.tokens_fixed, Line.tokens_append, Line.tokens_nil, List.filter_append,
          Line.filter_toList]
        rfl
  have options : (Line.tokens (rule.optionLines queueOf)).filter (·.1.ofQueues) =
      (queueOf.map fun owner => (LineKind.usesQueue, toString owner ++ ",")).toList := by
    delta optionLines pluginLines
    simp only [Line.tokens_append, tokens_bracketed, List.filter_append, Line.filter_toList,
      bounds]
    rfl
  have method : (Line.tokens rule.methodLines).filter (·.1.ofQueues) = [] :=
    rule.filter_methodLines rfl
  rw [tokens]
  simp only [List.filter_cons, List.filter_append, options, method, List.append_nil]
  rfl

end CachingRule

namespace Constants

/-- The lines that declare a constant: its name with that of the queue, and how long the queue
keeps a request. -/
def lines : ReplayQueue × Nat → List String
  | (queue, owner) =>
    ["const " ++ Statement.queueConstant owner ++
        " = new workbox.backgroundSync.BackgroundSyncPlugin(" ++ Json.quoted queue.name ++ ", \x7b",
      "  maxRetentionTime: " ++ toString queue.maxRetentionMinutes ++ " * 60"]

/-- The lines of queues that a rule makes: those of the constants that are named for it, its
header, and the line with the constant of its queue. -/
def outline (constants : Constants) : CachingRule × Nat → List String
  | (rule, index) =>
    (constants.filter (·.2 == index)).flatMap lines ++
      ("// " ++ rule.origin.name ++ " rule " ++ toString index) ::
        ((constants.ownerOf? rule).map fun owner =>
          "      " ++ Statement.queueConstant owner ++ ",").toList

theorem queueConstant_injective : Function.Injective Statement.queueConstant := by
  intro first second same
  exact Text.toString_injective ((String.append_right_inj "replayQueue").mp same)

theorem append_queueConstant {indent start : String} (joined : indent ++ "replayQueue" = start)
    (owner : Nat) : indent ++ Statement.queueConstant owner = start ++ toString owner := by
  rw [← joined, String.append_assoc]
  rfl

theorem map_lineOf_shown (constant : ReplayQueue × Nat) :
    (shown constant).map Line.lineOf = lines constant := by
  obtain ⟨queue, owner⟩ := constant
  rw [lines, @append_queueConstant "const " "const replayQueue" (by decide) owner]
  simp only [String.append_assoc]
  rfl

theorem map_lineOf_usesQueue (owner : Nat) :
    Line.lineOf (.usesQueue, toString owner ++ ",") =
      "      " ++ Statement.queueConstant owner ++ "," := by
  rw [@append_queueConstant "      " "      replayQueue" (by decide) owner, String.append_assoc]
  rfl

/-- Constants show their declarations only. -/
theorem filter_flatMap_shown {constants : Constants} {kinds : LineKind → Bool}
    (concerns : ∀ kind, LineKind.declares kind = true → kinds kind = true) :
    (constants.flatMap shown).filter (kinds ·.1) = constants.flatMap shown := by
  apply List.filter_eq_self.mpr
  intro token member
  obtain ⟨constant, -, shows⟩ := List.mem_flatMap.mp member
  apply concerns
  rcases kind_of_mem_shown shows with kind | kind <;> rw [kind] <;> rfl

/-- What a passage shows of queues are its lines of queues. -/
theorem filter_ofQueues_passage (constants : Constants) (placed : CachingRule × Nat) :
    ((constants.passage placed).tokens.filter (·.1.ofQueues)).map Line.lineOf =
      constants.outline placed := by
  obtain ⟨rule, index⟩ := placed
  have declares : ((constants.filter (·.2 == index)).flatMap shown).filter (·.1.ofQueues) =
      (constants.filter (·.2 == index)).flatMap shown :=
    filter_flatMap_shown fun _ => LineKind.ofQueues_of_declares
  have blank : Line.tokens Statement.blank.written = [] := rfl
  simp only [passage, Program.tokens_append, Program.tokens_flatMap_declaring,
    Program.tokens_cons, Program.tokens_nil, blank, Program.tokens_route, List.nil_append,
    List.append_nil, List.filter_append, declares, List.filter_cons]
  have heads : (LineKind.rule rule.origin).ofQueues = true := rfl
  rw [if_pos heads, rule.filter_ofQueues_innerTokens, outline, List.map_append, List.map_flatMap]
  simp only [map_lineOf_shown, List.map_cons]
  congr 2
  cases constants.ownerOf? rule with
  | none => rfl
  | some owner => exact congrArg (fun line => [line]) (map_lineOf_usesQueue owner)

end Constants

namespace RuleSet

/-- The constants that the rules of a policy declare. -/
def queueConstants (ruleSet : RuleSet) : Constants := Constants.announced [] 0 ruleSet.rules

end RuleSet

namespace Program

open Constants

theorem filter_declares_routes {constants : Constants} {index : Nat} {rules : List CachingRule} :
    (routes constants.declared index rules).tokens.filter (·.1.declares) =
      (constants.announced index rules).flatMap shown := by
  induction rules generalizing constants index with
  | nil => rfl
  | cons rule rest ih =>
      have all : ((constants.added index rule).flatMap shown).filter (·.1.declares) =
          (constants.added index rule).flatMap shown := filter_flatMap_shown fun _ => id
      have none : (rule.innerTokens (constants.used index rule)).filter (·.1.declares) = [] := by
        apply List.filter_eq_nil_iff.mpr
        intro token member
        rw [LineKind.declares_of_inRule (rule.inRule_of_mem_innerTokens _ member)]
        exact Bool.false_ne_true
      have heads : ¬(LineKind.rule rule.origin).declares = true := Bool.false_ne_true
      rw [tokens_routes_cons, List.filter_append, all, List.filter_cons, if_neg heads,
        List.filter_append, none, ih, List.nil_append, announced, List.flatMap_append]

variable {options : Options} {ruleSet : RuleSet} {fingerprint : String}

/-- Lines of queues stand in no other part of a program than its rules. -/
theorem filter_linesOf_eq_routes (single : Text.Single fingerprint) {kinds : LineKind → Bool}
    (concerns : ∀ kind, kinds kind = true → kind.inRoutes = true) :
    (Text.linesOf (ofRuleSet options ruleSet fingerprint).text).filter (Line.ofKinds kinds) =
      ((routes (declared []) 0 ruleSet.rules).tokens.filter (kinds ·.1)).map Line.lineOf := by
  have opens : (opening options ruleSet fingerprint).tokens.filter (kinds ·.1) = [] := by
    apply List.filter_eq_nil_iff.mpr
    intro token member chosen
    have outside := inRoutes_of_mem_opening options ruleSet fingerprint member
    rw [concerns token.1 chosen] at outside
    cases outside
  rw [filter_linesOf_text (allProper_ofRuleSet options ruleSet single), ofRuleSet_eq,
    tokens_append, List.filter_append, opens, List.nil_append]

theorem filter_declares_linesOf (single : Text.Single fingerprint) :
    (Text.linesOf (ofRuleSet options ruleSet fingerprint).text).filter
        (Line.ofKinds LineKind.declares) =
      ruleSet.queueConstants.flatMap lines := by
  rw [filter_linesOf_eq_routes single fun _ declares =>
      LineKind.inRoutes_of_ofQueues (LineKind.ofQueues_of_declares declares),
    filter_declares_routes, List.map_flatMap]
  exact List.flatMap_congr fun constant _ => map_lineOf_shown constant

theorem filter_ofQueues_linesOf (single : Text.Single fingerprint) :
    (Text.linesOf (ofRuleSet options ruleSet fingerprint).text).filter
        (Line.ofKinds LineKind.ofQueues) =
      ruleSet.rules.zipIdx.flatMap ruleSet.queueConstants.outline := by
  rw [filter_linesOf_eq_routes single fun _ => LineKind.inRoutes_of_ofQueues, routes_eq .nil,
    tokens_flatMap, List.filter_flatMap, List.map_flatMap]
  exact List.flatMap_congr fun placed _ => filter_ofQueues_passage _ placed

end Program

namespace RuleSet

open Constants

variable {ruleSet : RuleSet}

theorem tidy_queueConstants : Tidy ruleSet.queueConstants ruleSet.rules.length := by
  have tidy : Tidy _ _ := @Tidy.announced [] 0 ruleSet.rules .nil
  rwa [List.nil_append, Nat.zero_add] at tidy

theorem nodup_queueConstant :
    (ruleSet.queueConstants.map fun constant => Statement.queueConstant constant.2).Nodup := by
  refine List.pairwise_map.mpr (tidy_queueConstants.increasing.imp ?_)
  intro constant later less same
  exact absurd (queueConstant_injective same) (Nat.ne_of_lt less)

/-- The constant of a rule's queue is declared for this very queue, by that rule or by an
earlier one. -/
theorem exists_constant (valid : ruleSet.validate = .ok ()) {index : Nat} {rule : CachingRule}
    (placed : ruleSet.rules[index]? = some rule) {queue : ReplayQueue}
    (named : rule.replayQueue = some queue) :
    ∃ owner ≤ index, (queue, owner) ∈ ruleSet.queueConstants ∧
      ruleSet.queueConstants.ownerOf? rule = some owner := by
  obtain ⟨owner, before, owns⟩ := @exists_ownerOf?_le [] 0 rule ruleSet.rules .nil index
    (List.mk_mem_zipIdx_iff_getElem?.mpr placed) queue named
  have found := owns
  rw [ownerOf?, named, Option.bind_some] at found
  obtain ⟨constant, member, names, rfl⟩ := exists_of_lookup found
  have same : constant.1 = queue := by
    apply agree_of_validate valid
    · exact queue_of_mem_announced member
    · exact List.mem_filterMap.mpr ⟨rule, List.mem_of_getElem? placed, named⟩
    · exact names
  refine ⟨constant.2, before, ?_, owns⟩
  rw [← same]
  exact member

end RuleSet

namespace Program

open Constants

variable {ruleSet : RuleSet} {fingerprint : String}

/-- The program of a valid policy goes through its rules with one constant for each queue that
they name, and these constants have names of their own.  It writes the constants that are named
for a rule right before that rule, and no others, and of each rule with a queue one line that
uses the constant declared for this queue, with its retention, by that rule or an earlier one. -/
theorem queues_declared_once (options : Options) (valid : ruleSet.validate = .ok ())
    (single : Text.Single fingerprint) :
    let program := ofRuleSet options ruleSet fingerprint
    let constants := ruleSet.queueConstants
    program = opening options ruleSet fingerprint ++
      ruleSet.rules.zipIdx.flatMap constants.passage ∧
    (Text.linesOf program.text).filter (Line.ofKinds LineKind.declares) =
      constants.flatMap lines ∧
    (Text.linesOf program.text).filter (Line.ofKinds LineKind.ofQueues) =
      ruleSet.rules.zipIdx.flatMap constants.outline ∧
    (constants.map (·.1.name)).Nodup ∧
    (∀ name, name ∈ constants.map (·.1.name) ↔ name ∈ ruleSet.replayQueues.map (·.name)) ∧
    (constants.map fun constant => Statement.queueConstant constant.2).Nodup ∧
    ∀ index rule, ruleSet.rules[index]? = some rule →
      (∀ queue, rule.replayQueue = some queue → ∃ owner ≤ index,
        (queue, owner) ∈ constants ∧ constants.ownerOf? rule = some owner) ∧
      ∀ constant ∈ constants, constants.ownerOf? rule = some constant.2 →
        rule.replayQueue = some constant.1 := by
  intro program constants
  refine ⟨?_, filter_declares_linesOf single, filter_ofQueues_linesOf single, ?_, ?_,
    RuleSet.nodup_queueConstant, ?_⟩
  · exact (ofRuleSet_eq options ruleSet fingerprint).trans (congrArg _ (routes_eq .nil))
  · exact List.pairwise_map.mpr RuleSet.tidy_queueConstants.names
  · intro name
    exact (@mem_names_announced [] 0 ruleSet.rules name).trans (or_iff_right List.not_mem_nil)
  · intro index rule placed
    constructor
    · intro queue named
      exact RuleSet.exists_constant valid placed named
    · intro constant member owns
      obtain ⟨queue, named, -⟩ := Option.bind_eq_some_iff.mp owns
      obtain ⟨owner, -, declared, found⟩ := RuleSet.exists_constant valid placed named
      have owners : owner = constant.2 := Option.some.inj (found.symm.trans owns)
      have same : (queue, owner) = constant :=
        List.inj_on_of_nodup_map RuleSet.nodup_queueConstant declared member
          (congrArg Statement.queueConstant owners)
      rw [named, ← same]

end Program

/-- A policy whose first and third rules share a queue. -/
def RuleSet.sharedQueue : RuleSet where
  lifecycle := ⟨true, false, true⟩
  includeBuildManifest := false
  precache := ⟨[]⟩
  rules :=
    [{ origin := .backgroundSync, matcher := .method "POST", strategy := .networkOnly,
        replayQueue := some ⟨"outbox", 60⟩ },
      { origin := .preset, matcher := .pathPrefix "/", strategy := .networkFirst,
        cacheName := some "pages" },
      { origin := .runtimeCaching, matcher := .method "PUT", strategy := .networkOnly,
        replayQueue := some ⟨"outbox", 60⟩ },
      { origin := .runtimeCaching, matcher := .method "DELETE", strategy := .networkOnly,
        replayQueue := some ⟨"\"removals\"", 5⟩ }]

theorem Program.queues_declared_once_shared :
    (Text.linesOf (ofRuleSet {} .sharedQueue "0").text).filter (Line.ofKinds LineKind.ofQueues) =
      ["const replayQueue0 = new workbox.backgroundSync.BackgroundSyncPlugin(\"outbox\", \x7b",
        "  maxRetentionTime: 60 * 60",
        "// background_sync rule 0",
        "      replayQueue0,",
        "// preset rule 1",
        "// runtime_caching rule 2",
        "      replayQueue0,",
        "const replayQueue3 = new workbox.backgroundSync.BackgroundSyncPlugin(" ++
          "\"\\\"removals\\\"\", \x7b",
        "  maxRetentionTime: 5 * 60",
        "// runtime_caching rule 3",
        "      replayQueue3,"] := by
  have valid : RuleSet.sharedQueue.validate = .ok () := rfl
  have single : Text.Single "0" := Text.single_of_bytes rfl
  exact (queues_declared_once {} valid single).2.2.1

end CachePolicy
