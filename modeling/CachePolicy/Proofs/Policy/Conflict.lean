import CachePolicy.Policy.Conflict

/-!
# What is reported of shared caches

The rules are looked at one after the other, with the first use of each cache kept.  What is
reported is the same as when every rule is compared with the first of all rules on its cache, so
just the rules that bound a cache otherwise than its first rule does are reported, each once and
in order.

When no conflict is reported, all rules that use a cache put the same bounds on it, so
the bounds are those of the cache: `RuleSet.boundsOf` takes them from the first rule
that uses it.
-/

namespace CachePolicy

/-- The bounds of a cache, as the first rule that uses it has them. -/
def RuleSet.boundsOf (ruleSet : RuleSet) (name : String) : Option Expiration :=
  (ruleSet.rules.find? (·.partition == some name)).bind (·.effectiveExpiration)

/-- Two rules read or write one cache.  A rule without a cache shares none. -/
def CachingRule.SharesCache (rule other : CachingRule) : Prop :=
  ∃ name, rule.partition = some name ∧ other.partition = some name

/-- The place of the first rule that reads or writes a cache. -/
structure RuleSet.FirstUses (ruleSet : RuleSet) (name : String) (index : Nat)
    (rule : CachingRule) : Prop where
  placed : ruleSet.rules[index]? = some rule
  uses : rule.partition = some name
  first : ∀ earlier < index, ∀ other, ruleSet.rules[earlier]? = some other →
    other.partition ≠ some name

namespace CacheNameConflict

variable {rules earlier : List CachingRule} {rule : CachingRule} {name : String}
  {use : FirstUse} {seen : List FirstUse}

/-! ## First uses -/

/-- The first use of a cache by rules. -/
def firstUse? (rules : List CachingRule) (name : String) : Option FirstUse :=
  (rules.zipIdx.find? (·.1.partition == some name)).map fun (rule, index) =>
    ⟨name, index, rule.effectiveExpiration⟩

/-- Later rules do not change what was used first. -/
theorem firstUse?_append_of_some (found : firstUse? earlier name = some use)
    (rest : List CachingRule) : firstUse? (earlier ++ rest) name = some use := by
  obtain ⟨place, located, rfl⟩ := Option.map_eq_some_iff.mp found
  rw [firstUse?, List.zipIdx_append, List.find?_append, located]
  rfl

/-- A rule is the first to use its cache unless one before it does. -/
theorem firstUse?_append_singleton (earlier : List CachingRule) (rule : CachingRule)
    (name : String) :
    firstUse? (earlier ++ [rule]) name = (firstUse? earlier name).or
      (if rule.partition = some name then
        some ⟨name, earlier.length, rule.effectiveExpiration⟩ else none) := by
  rw [firstUse?, firstUse?, List.zipIdx_append, List.find?_append, List.zipIdx_singleton,
    Nat.zero_add]
  cases earlier.zipIdx.find? (·.1.partition == some name) with
  | some place => rfl
  | none =>
      by_cases uses : rule.partition = some name
      · simp [uses]
      · simp [uses]

theorem firstUse?_eq_some_iff {ruleSet : RuleSet} :
    firstUse? ruleSet.rules name = some use ↔
      use.cacheName = name ∧ ∃ rule, ruleSet.FirstUses name use.rule rule ∧
        rule.effectiveExpiration = use.expiration := by
  rw [firstUse?, Option.map_eq_some_iff]
  simp only [List.find?_eq_some_iff_getElem, List.getElem_zipIdx, Nat.zero_add, beq_iff_eq,
    Prod.exists, Prod.mk.injEq, Bool.not_eq_true', beq_eq_false_iff_ne]
  constructor
  · rintro ⟨rule, index, ⟨uses, place, inside, ⟨rfl, rfl⟩, before⟩, rfl⟩
    rw [List.length_zipIdx] at inside
    refine ⟨rfl, _, ⟨List.getElem?_eq_getElem inside, uses, ?_⟩, rfl⟩
    intro earlier less other placed
    obtain ⟨_, rfl⟩ := List.getElem?_eq_some_iff.mp placed
    exact before earlier less
  · rintro ⟨rfl, rule, ⟨placed, uses, first⟩, bounds⟩
    obtain ⟨inside, rfl⟩ := List.getElem?_eq_some_iff.mp placed
    refine ⟨_, use.rule, ⟨uses, use.rule, ?_, ⟨rfl, rfl⟩, ?_⟩, ?_⟩
    · rw [List.length_zipIdx]
      exact inside
    · intro earlier less
      exact first earlier less _ (List.getElem?_eq_getElem (Nat.lt_trans less inside))
    · rw [bounds]

/-- A cache that a rule uses has a first use. -/
theorem exists_firstUse? (member : rule ∈ rules) (used : rule.partition = some name) :
    ∃ use, firstUse? rules name = some use := by
  obtain ⟨index, inside, rfl⟩ := List.getElem_of_mem member
  rw [← Option.isSome_iff_exists, firstUse?, Option.isSome_map, List.find?_isSome]
  refine ⟨(rules[index], index), ?_, beq_iff_eq.mpr used⟩
  exact List.mk_mem_zipIdx_iff_getElem?.mpr (List.getElem?_eq_getElem inside)

/-! ## Comparing with the first use -/

/-- What is reported of a rule beside others: that it bounds its cache otherwise than the first
of them. -/
def reported? (rules : List CachingRule) (rule : CachingRule) (index : Nat) :
    Option CacheNameConflict :=
  rule.partition.bind fun name =>
    (firstUse? rules name).bind fun first =>
      if first.expiration = rule.effectiveExpiration then none
      else some ⟨name, first.rule, index⟩

theorem reported?_of_firstUse? (used : rule.partition = some name)
    (found : firstUse? rules name = some use) (index : Nat) :
    reported? rules rule index =
      if use.expiration = rule.effectiveExpiration then none
      else some ⟨name, use.rule, index⟩ := by
  rw [reported?, used, Option.bind_some, found, Option.bind_some]

/-- To look at the rules one by one is to compare each with the first of all on its cache.  The
induction is on the rules that are left, with the first uses among those before them. -/
theorem find_eq (sees : ∀ name, seen.find? (·.cacheName == name) = firstUse? earlier name)
    (rest : List CachingRule) :
    find seen earlier.length rest = (rest.zipIdx earlier.length).filterMap fun (rule, index) =>
      reported? (earlier ++ rest) rule index := by
  induction rest generalizing seen earlier with
  | nil => rfl
  | cons rule rest ih =>
      have length : earlier.length + 1 = (earlier ++ [rule]).length := by
        rw [List.length_append, List.length_singleton]
      have whole : earlier ++ rule :: rest = earlier ++ [rule] ++ rest := by
        rw [List.append_assoc, List.singleton_append]
      rw [find, List.zipIdx_cons, List.filterMap_cons, length, whole]
      cases used : rule.partition with
      | none =>
          have unreported : reported? (earlier ++ [rule] ++ rest) rule earlier.length = none := by
            rw [reported?, used, Option.bind_none]
          simp only [unreported]
          apply ih
          intro name
          rw [sees, firstUse?_append_singleton, used, if_neg nofun, Option.or_none]
      | some cache =>
          cases found : seen.find? (·.cacheName == cache) with
          | none =>
              have unused : firstUse? earlier cache = none := (sees cache).symm.trans found
              have first : firstUse? (earlier ++ [rule]) cache =
                  some ⟨cache, earlier.length, rule.effectiveExpiration⟩ := by
                rw [firstUse?_append_singleton, unused, used, if_pos rfl, Option.none_or]
              simp only [found, reported?_of_firstUse? used (firstUse?_append_of_some first rest),
                ↓reduceIte]
              apply ih
              intro name
              rw [List.find?_append, sees, firstUse?_append_singleton, used]
              by_cases same : cache = name
              · simp [same]
              · simp [same]
          | some first =>
              have earlierUse : firstUse? earlier cache = some first :=
                (sees cache).symm.trans found
              have again := firstUse?_append_of_some earlierUse [rule]
              have later : ∀ name,
                  seen.find? (·.cacheName == name) = firstUse? (earlier ++ [rule]) name := by
                intro name
                rw [sees, firstUse?_append_singleton, used]
                by_cases same : cache = name
                · rw [← same, earlierUse, Option.some_or]
                · rw [if_neg fun equal => same (Option.some.inj equal), Option.or_none]
              simp only [found, reported?_of_firstUse? used (firstUse?_append_of_some again rest)]
              by_cases agrees : first.expiration = rule.effectiveExpiration
              · rw [if_pos agrees, if_pos agrees]
                exact ih later
              · rw [if_neg agrees, if_neg agrees]
                exact congrArg _ (ih later)

end CacheNameConflict

namespace RuleSet

open CacheNameConflict

variable {ruleSet : RuleSet} {rule : CachingRule} {name : String}

/-- What is reported of each rule of a set. -/
theorem conflicts_eq (ruleSet : RuleSet) :
    ruleSet.conflicts = ruleSet.rules.zipIdx.filterMap fun (rule, index) =>
      reported? ruleSet.rules rule index := by
  have sees : ∀ name, [].find? (·.cacheName == name) = firstUse? [] name := fun _ => rfl
  exact find_eq sees ruleSet.rules

/-- A rule is reported when it bounds a cache otherwise than the first rule on it. -/
theorem mem_conflicts_iff {conflict : CacheNameConflict} :
    conflict ∈ ruleSet.conflicts ↔
      ∃ first second, ruleSet.FirstUses conflict.cacheName conflict.firstRule first ∧
        ruleSet.rules[conflict.secondRule]? = some second ∧
        second.partition = some conflict.cacheName ∧
        first.effectiveExpiration ≠ second.effectiveExpiration := by
  rw [conflicts_eq, List.mem_filterMap]
  constructor
  · rintro ⟨⟨second, index⟩, placed, reports⟩
    obtain ⟨name, used, reports⟩ := Option.bind_eq_some_iff.mp reports
    obtain ⟨use, found, reports⟩ := Option.bind_eq_some_iff.mp reports
    obtain ⟨-, first, uses, bounds⟩ := firstUse?_eq_some_iff.mp found
    split at reports
    · cases reports
    · next differs =>
      cases reports
      rw [← bounds] at differs
      exact ⟨first, second, uses, List.mk_mem_zipIdx_iff_getElem?.mp placed, used, differs⟩
  · rintro ⟨first, second, uses, placed, used, differs⟩
    have found : firstUse? ruleSet.rules conflict.cacheName =
        some ⟨conflict.cacheName, conflict.firstRule, first.effectiveExpiration⟩ :=
      firstUse?_eq_some_iff.mpr ⟨rfl, first, uses, rfl⟩
    refine ⟨(second, conflict.secondRule), List.mk_mem_zipIdx_iff_getElem?.mpr placed, ?_⟩
    exact (reported?_of_firstUse? used found _).trans (if_neg differs)

/-- Rules are reported in their order, each once. -/
theorem pairwise_conflicts (ruleSet : RuleSet) :
    ruleSet.conflicts.Pairwise fun conflict other => conflict.secondRule < other.secondRule := by
  have places : ruleSet.rules.zipIdx.Pairwise fun placed other => placed.2 < other.2 := by
    rw [← List.pairwise_map, List.zipIdx_map_snd]
    exact List.pairwise_lt_range'
  rw [conflicts_eq]
  refine places.filterMap _ ?_
  rintro ⟨first, index⟩ ⟨second, later⟩ less conflict reports other otherReports
  have place {rule : CachingRule} {index : Nat} {conflict : CacheNameConflict}
      (reports : reported? ruleSet.rules rule index = some conflict) :
      conflict.secondRule = index := by
    obtain ⟨name, -, reports⟩ := Option.bind_eq_some_iff.mp reports
    obtain ⟨use, -, reports⟩ := Option.bind_eq_some_iff.mp reports
    split at reports
    · cases reports
    · cases reports
      rfl
  rw [place reports, place otherReports]
  exact less

/-- When no conflict is reported, every rule has the bounds of the first on its cache. -/
theorem effectiveExpiration_eq_firstUse (clean : ruleSet.conflicts = [])
    (member : rule ∈ ruleSet.rules) (used : rule.partition = some name) :
    ∃ index first, ruleSet.FirstUses name index first ∧
      first.effectiveExpiration = rule.effectiveExpiration := by
  obtain ⟨use, found⟩ := exists_firstUse? member used
  obtain ⟨-, first, uses, -⟩ := firstUse?_eq_some_iff.mp found
  refine ⟨use.rule, first, uses, Decidable.byContradiction fun differs => ?_⟩
  obtain ⟨place, inside, rfl⟩ := List.getElem_of_mem member
  have reported : (⟨name, use.rule, place⟩ : CacheNameConflict) ∈ ruleSet.conflicts :=
    mem_conflicts_iff.mpr ⟨first, _, uses, List.getElem?_eq_getElem inside, used, differs⟩
  rw [clean] at reported
  cases reported

theorem boundsOf_eq {index : Nat} (uses : ruleSet.FirstUses name index rule) :
    ruleSet.boundsOf name = rule.effectiveExpiration := by
  obtain ⟨inside, rfl⟩ := List.getElem?_eq_some_iff.mp uses.placed
  have found : ruleSet.rules.find? (·.partition == some name) = some ruleSet.rules[index] := by
    refine List.find?_eq_some_iff_getElem.mpr ⟨beq_iff_eq.mpr uses.uses, index, inside, rfl, ?_⟩
    intro earlier less
    have placed := List.getElem?_eq_getElem (Nat.lt_trans less inside)
    simpa using uses.first earlier less _ placed
  rw [boundsOf, found, Option.bind_some]

/-- When no conflict is reported, every rule has the bounds of its cache. -/
theorem effectiveExpiration_eq_boundsOf {ruleSet : RuleSet}
    (clean : ruleSet.conflicts = []) {rule : CachingRule} (member : rule ∈ ruleSet.rules)
    {name : String} (used : rule.partition = some name) :
    rule.effectiveExpiration = ruleSet.boundsOf name := by
  obtain ⟨index, first, uses, same⟩ := effectiveExpiration_eq_firstUse clean member used
  rw [boundsOf_eq uses, same]

/-- A cache that no rule uses has no bounds. -/
theorem boundsOf_eq_none {ruleSet : RuleSet} {name : String}
    (unused : ∀ rule ∈ ruleSet.rules, rule.partition ≠ some name) :
    ruleSet.boundsOf name = none := by
  have absent : ruleSet.rules.find? (·.partition == some name) = none := by
    apply List.find?_eq_none.mpr
    intro rule member
    simpa using unused rule member
  rw [boundsOf, absent]
  rfl

/-- What is reported of a rule set.  Nothing is, just when any two rules on one cache bound it
alike.  A report names a cache, the first rule on it and a later rule that bounds it otherwise,
and every rule that does so is reported, in the order of the rules and once. -/
theorem conflicts_sound_complete (ruleSet : RuleSet) :
    (ruleSet.conflicts = [] ↔
      ∀ rule ∈ ruleSet.rules, ∀ other ∈ ruleSet.rules, rule.SharesCache other →
        rule.effectiveExpiration = other.effectiveExpiration) ∧
    (∀ conflict, conflict ∈ ruleSet.conflicts ↔
      ∃ first second, ruleSet.FirstUses conflict.cacheName conflict.firstRule first ∧
        ruleSet.rules[conflict.secondRule]? = some second ∧
        second.partition = some conflict.cacheName ∧
        first.effectiveExpiration ≠ second.effectiveExpiration) ∧
    (∀ conflict ∈ ruleSet.conflicts, conflict.firstRule < conflict.secondRule) ∧
    ruleSet.conflicts.Pairwise fun conflict other => conflict.secondRule < other.secondRule := by
  refine ⟨⟨?_, ?_⟩, fun _ => mem_conflicts_iff, ?_, ruleSet.pairwise_conflicts⟩
  · rintro clean rule member other otherMember ⟨name, used, otherUsed⟩
    rw [effectiveExpiration_eq_boundsOf clean member used,
      effectiveExpiration_eq_boundsOf clean otherMember otherUsed]
  · intro agree
    apply List.eq_nil_iff_forall_not_mem.mpr
    intro conflict reported
    obtain ⟨first, second, uses, placed, used, differs⟩ := mem_conflicts_iff.mp reported
    exact differs (agree first (List.mem_of_getElem? uses.placed) second
      (List.mem_of_getElem? placed) ⟨conflict.cacheName, uses.uses, used⟩)
  · intro conflict reported
    obtain ⟨first, second, uses, placed, used, differs⟩ := mem_conflicts_iff.mp reported
    apply Nat.lt_of_not_le
    intro notAfter
    rcases Nat.lt_or_eq_of_le notAfter with before | same
    · exact uses.first _ before second placed used
    · rw [same, uses.placed] at placed
      exact differs (congrArg _ (Option.some.inj placed))

/-- A policy with four rules on one cache.  The second reads nothing from it, and the bound that
the last has besides does not count, so only the third bounds it otherwise. -/
def sharedPages : RuleSet where
  lifecycle := ⟨true, true, true⟩
  includeBuildManifest := false
  precache := ⟨[]⟩
  rules :=
    [{ origin := .preset, matcher := .pathPrefix "/a", strategy := .networkFirst,
        cacheName := some "pages", expiration := some ⟨some 10, none⟩ },
      { origin := .preset, matcher := .pathPrefix "/b", strategy := .networkOnly,
        cacheName := some "pages", expiration := some ⟨some 5, none⟩ },
      { origin := .preset, matcher := .pathPrefix "/c", strategy := .cacheFirst,
        cacheName := some "pages", expiration := some ⟨some 20, none⟩ },
      { origin := .preset, matcher := .pathPrefix "/d", strategy := .networkFirst,
        cacheName := some "pages", expiration := some ⟨some 10, some 0⟩ }]

theorem conflicts_sound_complete_sharedPages :
    sharedPages.conflicts = [⟨"pages", 0, 2⟩] ∧
      ¬∀ rule ∈ sharedPages.rules, ∀ other ∈ sharedPages.rules, rule.SharesCache other →
        rule.effectiveExpiration = other.effectiveExpiration := by
  have reported : sharedPages.conflicts = [⟨"pages", 0, 2⟩] := by decide
  refine ⟨reported, fun agree => ?_⟩
  have clean := (conflicts_sound_complete sharedPages).1.mpr agree
  rw [reported] at clean
  cases clean

end RuleSet

end CachePolicy
