import CachePolicy.Proofs.Policy.RuleTokens
import CachePolicy.Proofs.Rule.Set
import Mathlib.Data.List.Forall2

/-!
# What the lines of all rules show

A queue is shown where it is declared, and by the name of its constant wherever it is used.
So the queue of a rule is known from what was declared before it, and the rules of a program
are known from what their lines show.
-/

namespace CachePolicy

/-! ## Queues -/

/-- The queues that have a constant, each with the rule that it is named for. -/
abbrev Constants := List (ReplayQueue × Nat)

namespace Constants

variable (constants : Constants) (index : Nat) (rule : CachingRule)

/-- The constants by the names of their queues. -/
def declared : List (String × Nat) := constants.map fun constant => (constant.1.name, constant.2)

theorem declared_append (more : Constants) :
    declared (constants ++ more) = constants.declared ++ declared more := List.map_append

/-- The constant that a rule declares, if its queue has none. -/
def added : Constants :=
  match rule.replayQueue with
  | none => []
  | some queue =>
    match constants.declared.lookup queue.name with
    | some _ => []
    | none => [(queue, index)]

theorem added_cases :
    constants.added index rule = [] ∨ ∃ queue, constants.added index rule = [(queue, index)] := by
  rw [added]
  split
  · exact .inl rfl
  · split
    · exact .inl rfl
    · exact .inr ⟨_, rfl⟩

/-- The constant that a rule uses. -/
def used : Option Nat :=
  rule.replayQueue.map fun queue => (constants.declared.lookup queue.name).getD index

/-- The constants after a rule. -/
def after : Constants := constants ++ constants.added index rule

/-- The queue of a constant. -/
def queueOf? (owner : Nat) : Option ReplayQueue :=
  (constants.find? (·.2 == owner)).map (·.1)

/-- The statements that declare a constant. -/
def declaring (constant : ReplayQueue × Nat) : Program :=
  [.blank, .declareQueue constant.2 constant.1]

/-- What the declaration of a constant shows. -/
def shown (constant : ReplayQueue × Nat) : List Line.Token :=
  Line.tokens (Statement.declareQueue constant.2 constant.1).written

theorem kind_of_mem_shown {constant : ReplayQueue × Nat} {token : Line.Token}
    (member : token ∈ shown constant) : token.1 = .queue ∨ token.1 = .retention := by
  simp only [shown, Statement.written, Line.tokens_shown, Line.tokens_fixed, Line.tokens_nil,
    List.mem_cons, List.not_mem_nil, or_false] at member
  rcases member with rfl | rfl
  · exact .inl rfl
  · exact .inr rfl

theorem exists_of_lookup {constants : Constants} {name : String} {owner : Nat}
    (found : constants.declared.lookup name = some owner) :
    ∃ constant ∈ constants, constant.1.name = name ∧ constant.2 = owner := by
  induction constants with
  | nil => cases found
  | cons constant rest ih =>
      rw [declared, List.map_cons, List.lookup_cons] at found
      split at found
      next same =>
        exact ⟨constant, List.mem_cons_self, (eq_of_beq same).symm, Option.some.inj found⟩
      next =>
        obtain ⟨other, member, named⟩ := ih found
        exact ⟨other, List.mem_cons_of_mem _ member, named⟩

variable {constants index rule} {rest : List CachingRule}

theorem mem_added {constant : ReplayQueue × Nat} (member : constant ∈ constants.added index rule) :
    constant.2 = index ∧ rule.replayQueue = some constant.1 := by
  rw [added] at member
  split at member
  next => cases member
  next queue named =>
    split at member
    next => cases member
    next =>
      rw [List.mem_singleton.mp member]
      exact ⟨rfl, named⟩

/-- A rule declares no queue but its own. -/
theorem mem_queues_of_after {queue : ReplayQueue}
    (member : queue ∈ (constants.after index rule).map (·.1) ++
      rest.filterMap (·.replayQueue)) :
    queue ∈ constants.map (·.1) ++ (rule :: rest).filterMap (·.replayQueue) := by
  rw [after, List.map_append, List.append_assoc] at member
  rcases List.mem_append.mp member with earlier | others
  · exact List.mem_append_left _ earlier
  · apply List.mem_append_right
    rcases List.mem_append.mp others with new | later
    · obtain ⟨constant, added, rfl⟩ := List.mem_map.mp new
      exact List.mem_filterMap.mpr ⟨rule, List.mem_cons_self, (mem_added added).2⟩
    · obtain ⟨other, member, named⟩ := List.mem_filterMap.mp later
      exact List.mem_filterMap.mpr ⟨other, List.mem_cons_of_mem _ member, named⟩

/-- The constants before a rule are named for earlier rules, each for one, and all queues of
one name are the same. -/
structure Settled (constants : Constants) (index : Nat) (rules : List CachingRule) : Prop where
  below : ∀ constant ∈ constants, constant.2 < index
  distinct : ∀ first ∈ constants, ∀ second ∈ constants, first.2 = second.2 → first = second
  agree : RuleSet.Agree (constants.map (·.1) ++ rules.filterMap (·.replayQueue))

namespace Settled

theorem nil {rules : List CachingRule} (agree : RuleSet.Agree (rules.filterMap (·.replayQueue))) :
    Settled [] 0 rules where
  below := fun _ member => absurd member List.not_mem_nil
  distinct := fun _ member => absurd member List.not_mem_nil
  agree := agree

theorem next (settled : Settled constants index (rule :: rest)) :
    Settled (constants.after index rule) (index + 1) rest := by
  constructor
  · intro constant member
    rcases List.mem_append.mp member with earlier | new
    · exact Nat.lt_succ_of_lt (settled.below constant earlier)
    · rw [(mem_added new).1]
      exact Nat.lt_succ_self index
  · intro first firstMember second secondMember same
    rcases List.mem_append.mp firstMember with firstEarlier | firstNew
    · rcases List.mem_append.mp secondMember with secondEarlier | secondNew
      · exact settled.distinct first firstEarlier second secondEarlier same
      · have less := settled.below first firstEarlier
        rw [same, (mem_added secondNew).1] at less
        exact absurd less (Nat.lt_irrefl index)
    · rcases List.mem_append.mp secondMember with secondEarlier | secondNew
      · have less := settled.below second secondEarlier
        rw [← same, (mem_added firstNew).1] at less
        exact absurd less (Nat.lt_irrefl index)
      · have queues := (mem_added firstNew).2.symm.trans (mem_added secondNew).2
        exact Prod.ext (Option.some.inj queues) same
  · intro first firstMember second secondMember
    exact settled.agree first (mem_queues_of_after firstMember) second
      (mem_queues_of_after secondMember)

/-- A constant is found by the rule that it is named for. -/
theorem find?_eq {rules : List CachingRule} (settled : Settled constants index rules)
    {constant : ReplayQueue × Nat} (member : constant ∈ constants) :
    constants.find? (·.2 == constant.2) = some constant := by
  cases located : constants.find? (·.2 == constant.2) with
  | none =>
      have other := List.find?_eq_none.mp located constant member
      exact absurd (beq_self_eq_true constant.2) other
  | some other =>
      have owners : other.2 = constant.2 := by simpa using List.find?_some located
      rw [settled.distinct other (List.mem_of_find?_eq_some located) constant member owners]

/-- The queue of a rule is that of the constant that it uses. -/
theorem replayQueue_eq (settled : Settled constants index (rule :: rest)) :
    rule.replayQueue = (constants.used index rule).bind (constants.after index rule).queueOf? := by
  cases named : rule.replayQueue with
  | none => simp [used, named]
  | some queue =>
      cases found : constants.declared.lookup queue.name with
      | none =>
          have absent : constants.find? (·.2 == index) = none := by
            apply List.find?_eq_none.mpr
            intro constant member same
            exact absurd (eq_of_beq same) (Nat.ne_of_lt (settled.below constant member))
          simp [used, after, added, queueOf?, named, found, absent]
      | some owner =>
          obtain ⟨constant, member, name, rfl⟩ := exists_of_lookup found
          have same : constant.1 = queue := by
            apply settled.agree
            · exact List.mem_append_left _ (List.mem_map_of_mem member)
            · apply List.mem_append_right
              exact List.mem_filterMap.mpr ⟨rule, List.mem_cons_self, named⟩
            · exact name
          have first := settled.find?_eq member
          simp [used, after, added, queueOf?, named, found, first, same]

end Settled

end Constants

/-! ## Routes -/

namespace Program

open Constants

/-- A rule stands behind the constant that it declares. -/
theorem routes_cons (constants : Constants) (index : Nat) (rule : CachingRule)
    (rest : List CachingRule) :
    routes constants.declared index (rule :: rest) =
      (constants.added index rule).flatMap declaring ++
        .blank :: .route index rule (constants.used index rule) ::
          routes (constants.after index rule).declared (index + 1) rest := by
  rw [routes]
  cases named : rule.replayQueue with
  | none => simp [used, after, added, named]
  | some queue =>
      cases found : constants.declared.lookup queue.name with
      | some owner => simp [used, after, added, named, found]
      | none =>
          have one : declared [(queue, index)] = [(queue.name, index)] := rfl
          simp [used, after, added, named, found, declaring, declared_append, one]

theorem tokens_flatMap_declaring (constants : Constants) :
    tokens (constants.flatMap declaring) = constants.flatMap shown :=
  tokens_flatMap constants declaring

/-- A rule shows its header and then what is in it. -/
theorem tokens_route (index : Nat) (rule : CachingRule) (queueOf : Option Nat) :
    Line.tokens (Statement.route index rule queueOf).written =
      (.rule rule.origin, toString index) :: rule.innerTokens queueOf := by
  simp [Statement.written, CachingRule.innerTokens]

/-- A rule shows the constant that it declares, and then itself. -/
theorem tokens_routes_cons (constants : Constants) (index : Nat) (rule : CachingRule)
    (rest : List CachingRule) :
    (routes constants.declared index (rule :: rest)).tokens =
      (constants.added index rule).flatMap shown ++
        ((.rule rule.origin, toString index) :: (rule.innerTokens (constants.used index rule) ++
          (routes (constants.after index rule).declared (index + 1) rest).tokens)) := by
  rw [routes_cons, tokens_append, tokens_flatMap_declaring, tokens_cons, tokens_cons, tokens_route]
  rfl

theorem inRoutes_of_mem_routes {token : Line.Token} {constants : Constants} {index : Nat}
    {rules : List CachingRule} (member : token ∈ (routes constants.declared index rules).tokens) :
    token.1.inRoutes = true := by
  induction rules generalizing constants index with
  | nil => cases member
  | cons rule rest ih =>
      rw [tokens_routes_cons] at member
      simp only [List.mem_append, List.mem_cons, List.mem_flatMap] at member
      rcases member with ⟨constant, -, declares⟩ | rfl | inner | later
      · rcases kind_of_mem_shown declares with kind | kind <;> rw [kind] <;> rfl
      · rfl
      · exact LineKind.inRoutes_of_inRule (rule.inRule_of_mem_innerTokens _ inner)
      · exact ih later

theorem heading_notMem_routes (fingerprint : String) (declared : List (String × Nat))
    (index : Nat) (rules : List CachingRule) :
    Statement.heading fingerprint ∉ routes declared index rules := by
  induction rules generalizing declared index with
  | nil => exact List.not_mem_nil
  | cons rule rest ih =>
      rw [routes]
      split
      · simp [ih]
      · split
        · simp [ih]
        · simp [ih]

/-- What follows a rule is not in it. -/
theorem inRule_head_routes (constants : Constants) (index : Nat) (rules : List CachingRule) :
    ∀ token ∈ (routes constants.declared index rules).tokens.head?, token.1.inRule = false := by
  intro token head
  cases rules with
  | nil => cases head
  | cons rule rest =>
      rw [tokens_routes_cons] at head
      cases declares : constants.added index rule with
      | nil =>
          rw [declares] at head
          cases head
          rfl
      | cons constant more =>
          rw [declares] at head
          cases head
          rfl

/-- The lines of rules that register something are, for each rule in order, its header and
its registration. -/
theorem filter_registers_routes (constants : Constants) (index : Nat) (rules : List CachingRule) :
    (routes constants.declared index rules).tokens.filter (·.1.registers) =
      (rules.zipIdx index).flatMap fun (rule, place) =>
        [(.rule rule.origin, toString place), (.registration, "")] := by
  induction rules generalizing constants index with
  | nil => rfl
  | cons rule rest ih =>
      have quiet : ((constants.added index rule).flatMap shown).filter (·.1.registers) = [] := by
        apply List.filter_eq_nil_iff.mpr
        intro token member
        obtain ⟨constant, -, declares⟩ := List.mem_flatMap.mp member
        rcases kind_of_mem_shown declares with kind | kind <;> rw [kind] <;>
          exact Bool.false_ne_true
      rw [tokens_routes_cons, List.filter_append, quiet, List.filter_cons, List.filter_append,
        rule.filter_registers_innerTokens, ih, List.zipIdx_cons, List.flatMap_cons]
      rfl

/-- What is declared before a rule is known from what stands there. -/
theorem added_eq {constants : Constants} {index : Nat} {rule other : CachingRule}
    {text otherText : String} {rest otherRest : List Line.Token}
    (same : (constants.added index rule).flatMap shown ++ ((.rule rule.origin, text) :: rest) =
      (constants.added index other).flatMap shown ++
        ((.rule other.origin, otherText) :: otherRest)) :
    constants.added index rule = constants.added index other ∧
      rule.origin = other.origin ∧ rest = otherRest := by
  rcases constants.added_cases index rule with none | ⟨queue, one⟩
  · rcases constants.added_cases index other with otherNone | ⟨other, otherOne⟩
    · rw [none, otherNone] at same ⊢
      simp only [List.flatMap_nil, List.nil_append, List.cons.injEq, Prod.mk.injEq,
        LineKind.rule.injEq] at same
      exact ⟨rfl, same.1.1, same.2⟩
    · rw [none, otherOne] at same
      simp [shown, Statement.written] at same
  · rcases constants.added_cases index other with otherNone | ⟨other, otherOne⟩
    · rw [one, otherNone] at same
      simp [shown, Statement.written] at same
    · rw [one, otherOne] at same ⊢
      simp only [List.flatMap_singleton, shown, Statement.written, Line.tokens_shown,
        Line.tokens_fixed, Line.tokens_nil, List.cons_append, List.nil_append, List.cons.injEq,
        Prod.mk.injEq, LineKind.rule.injEq, true_and, String.append_right_inj,
        String.append_left_inj] at same
      obtain ⟨names, minutes, ⟨origins, -⟩, rests⟩ := same
      have queues : queue = other :=
        congrArg₂ ReplayQueue.mk (Json.quoted_injective names)
          (Text.toString_uint64_injective minutes)
      rw [queues]
      exact ⟨rfl, origins, rests⟩

/-- Rules that are written alike are alike.  The induction is on the rules of both lists, with
the constants that both have declared. -/
theorem alike_of_routes {constants : Constants} {index : Nat} {rules others : List CachingRule}
    (settled : constants.Settled index rules) (otherSettled : constants.Settled index others)
    (same : (routes constants.declared index rules).tokens =
      (routes constants.declared index others).tokens) :
    List.Forall₂ CachingRule.Alike rules others := by
  induction rules generalizing constants index others with
  | nil =>
      cases others with
      | nil => exact .nil
      | cons other rest =>
          rw [tokens_routes_cons] at same
          exact absurd same.symm (by simp [routes])
  | cons rule rest ih =>
      cases others with
      | nil =>
          rw [tokens_routes_cons] at same
          exact absurd same (by simp [routes])
      | cons other otherRest =>
          rw [tokens_routes_cons, tokens_routes_cons] at same
          obtain ⟨declares, origins, following⟩ := added_eq same
          have after : constants.after index rule = constants.after index other :=
            congrArg (constants ++ ·) declares
          obtain ⟨inner, later⟩ := Line.append_inj_of_kinds LineKind.inRule
            (fun _ member => rule.inRule_of_mem_innerTokens _ member)
            (fun _ member => other.inRule_of_mem_innerTokens _ member)
            (inRule_head_routes _ _ rest) (inRule_head_routes _ _ otherRest) following
          have queues (used : constants.used index rule = constants.used index other) :
              rule.replayQueue = other.replayQueue := by
            rw [settled.replayQueue_eq, otherSettled.replayQueue_eq, used, after]
          constructor
          · exact (CachingRule.alike_of_innerTokens origins queues inner).1
          · rw [after] at later
            apply ih
            · exact settled.next
            · rw [after]
              exact otherSettled.next
            · rw [after]
              exact later

/-- Rules that are alike are written alike. -/
theorem text_routes_congr {rules others : List CachingRule}
    (alike : List.Forall₂ CachingRule.Alike rules others) (declared : List (String × Nat))
    (index : Nat) : (routes declared index rules).text = (routes declared index others).text := by
  induction alike generalizing declared index with
  | nil => rfl
  | cons same _ ih =>
      rw [routes, routes, same.replayQueue]
      split
      · rw [text_cons, text_cons, text_cons, text_cons, same.text_route, ih]
      · split
        · rw [text_cons, text_cons, text_cons, text_cons, same.text_route, ih]
        · rw [text_cons, text_cons, text_cons, text_cons, same.text_route, ih]
          simp only [text_cons]

end Program

end CachePolicy
