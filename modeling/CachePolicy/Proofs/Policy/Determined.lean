import CachePolicy.Proofs.Policy.Proper
import CachePolicy.Proofs.Policy.RouteTokens

/-!
# A program tells its policy

The programs of two valid policies have one text just when the policies agree in all that
counts: their lines show the same, and each part of a policy is known from what they show.
-/

namespace CachePolicy

namespace Program

section Opening

variable (options : Options) (ruleSet : RuleSet) (fingerprint : String)

/-- What stands before the rules. -/
def opening : Program :=
  [.heading fingerprint, .importLibrary options.workboxUrl, .blank, .configure options.debug,
      .blank, .matchFunction, .blank, .skipWaitingOnMessage, .blank] ++
    lifecycle ruleSet ++ [.blank] ++
    whenever ruleSet.includeBuildManifest [.precacheBuild, .blank] ++
    [.precacheUrls ruleSet.precache.urls]

theorem ofRuleSet_eq :
    ofRuleSet options ruleSet fingerprint =
      opening options ruleSet fingerprint ++ routes (Constants.declared []) 0 ruleSet.rules := rfl

theorem tokens_whenever (condition : Bool) (statements : Program) :
    (whenever condition statements).tokens = if condition then statements.tokens else [] := by
  cases condition <;> rfl

/-- What the program shows of what is stored ahead. -/
def precacheTokens : List Line.Token :=
  (if ruleSet.includeBuildManifest then [(.precache, manifestPlaceholder ++ ");")] else []) ++
    [(.precache, (Json.strs ruleSet.precache.urls).compact ++
      ".map((url) => (\x7b url, revision: null \x7d)));")]

theorem tokens_opening :
    (opening options ruleSet fingerprint).tokens =
      (.heading, fingerprint) :: (.library, Json.quoted options.workboxUrl ++ ");") ::
        (.debug, toString options.debug) ::
          ((lifecycle ruleSet).tokens ++ precacheTokens ruleSet) := by
  simp [opening, tokens_whenever, precacheTokens, Statement.written]

theorem tokens_lifecycle :
    (lifecycle ruleSet).tokens =
      (if ruleSet.lifecycle.skipWaiting then
        [(.skipWaiting, "() => self.skipWaiting());")] else []) ++
      (if ruleSet.lifecycle.clientsClaim then [(.claimClients, ");")] else []) ++
      if ruleSet.lifecycle.cleanupOutdatedCaches then
        [(.cleanupPrecache, ");"),
          (.declaredCaches, (Json.strs ruleSet.declaredCacheNames).compact ++ ";")] else [] := by
  simp [lifecycle, tokens_whenever, Statement.written]

theorem kind_of_mem_lifecycle {token : Line.Token} (member : token ∈ (lifecycle ruleSet).tokens) :
    token.1.inRoutes = false ∧ token.1.registers = false := by
  rw [tokens_lifecycle] at member
  simp only [List.mem_append, List.mem_ite_nil_right, List.mem_cons, List.not_mem_nil,
    or_false] at member
  rcases member with (⟨-, rfl⟩ | ⟨-, rfl⟩) | ⟨-, rfl | rfl⟩
  all_goals exact ⟨rfl, rfl⟩

theorem kind_of_mem_precacheTokens {token : Line.Token} (member : token ∈ precacheTokens ruleSet) :
    token.1 = .precache := by
  simp only [precacheTokens, List.mem_append, List.mem_ite_nil_right, List.mem_cons,
    List.not_mem_nil, or_false] at member
  rcases member with ⟨-, rfl⟩ | rfl
  all_goals rfl

theorem inRoutes_of_mem_opening {token : Line.Token}
    (member : token ∈ (opening options ruleSet fingerprint).tokens) :
    token.1.inRoutes = false := by
  rw [tokens_opening] at member
  simp only [List.mem_cons, List.mem_append] at member
  rcases member with rfl | rfl | rfl | lifecycle | ahead
  · rfl
  · rfl
  · rfl
  · exact (kind_of_mem_lifecycle ruleSet lifecycle).1
  · rw [kind_of_mem_precacheTokens ruleSet ahead]
    rfl

theorem filter_registers_opening :
    (opening options ruleSet fingerprint).tokens.filter (·.1.registers) =
      precacheTokens ruleSet := by
  have quiet : (lifecycle ruleSet).tokens.filter (·.1.registers) = [] := by
    apply List.filter_eq_nil_iff.mpr
    intro token member
    rw [(kind_of_mem_lifecycle ruleSet member).2]
    exact Bool.false_ne_true
  have all : (precacheTokens ruleSet).filter (·.1.registers) = precacheTokens ruleSet := by
    apply List.filter_eq_self.mpr
    intro token member
    rw [kind_of_mem_precacheTokens ruleSet member]
    rfl
  rw [tokens_opening]
  simp only [List.filter_cons, List.filter_append, quiet, all]
  rfl

variable {options ruleSet} {otherOptions : Options} {other : RuleSet}

/-- How the worker takes over is known from which kinds of lines there are. -/
theorem lifecycle_eq_any (ruleSet : RuleSet) :
    ruleSet.lifecycle =
      ⟨(lifecycle ruleSet).tokens.any (·.1 == .skipWaiting),
        (lifecycle ruleSet).tokens.any (·.1 == .claimClients),
        (lifecycle ruleSet).tokens.any (·.1 == .cleanupPrecache)⟩ := by
  rw [tokens_lifecycle]
  obtain ⟨⟨skip, claim, cleanup⟩, -, -, -⟩ := ruleSet
  cases skip <;> cases claim <;> cases cleanup <;> rfl

theorem lifecycle_eq_of_tokens (same : (lifecycle ruleSet).tokens = (lifecycle other).tokens) :
    ruleSet.lifecycle = other.lifecycle := by
  rw [lifecycle_eq_any ruleSet, lifecycle_eq_any other, same]

theorem precache_eq_of_tokens (same : precacheTokens ruleSet = precacheTokens other) :
    ruleSet.includeBuildManifest = other.includeBuildManifest ∧
      ruleSet.precache.urls = other.precache.urls := by
  have counts := congrArg List.length same
  have lasts := congrArg List.getLast? same
  rw [precacheTokens, precacheTokens, List.getLast?_concat, List.getLast?_concat] at lasts
  constructor
  · cases build : ruleSet.includeBuildManifest with
    | false =>
        cases otherBuild : other.includeBuildManifest with
        | false => rfl
        | true => simp [precacheTokens, build, otherBuild] at counts
    | true =>
        cases otherBuild : other.includeBuildManifest with
        | false => simp [precacheTokens, build, otherBuild] at counts
        | true => rfl
  · have texts := (Prod.mk.inj (Option.some.inj lasts)).2
    exact Json.strs_compact_injective ((String.append_left_inj _).mp texts)

/-- The first parts of programs that show the same are made of the same. -/
theorem opening_eq_of_tokens {otherFingerprint : String}
    (same : (opening options ruleSet fingerprint).tokens =
      (opening otherOptions other otherFingerprint).tokens) :
    options.workboxUrl = otherOptions.workboxUrl ∧ options.debug = otherOptions.debug ∧
      ruleSet.lifecycle = other.lifecycle ∧
      ruleSet.includeBuildManifest = other.includeBuildManifest ∧
      ruleSet.precache.urls = other.precache.urls := by
  have early (ruleSet : RuleSet) : ∀ token ∈ (lifecycle ruleSet).tokens,
      (!token.1.registers) = true := by
    intro token member
    rw [(kind_of_mem_lifecycle ruleSet member).2]
    rfl
  have late (ruleSet : RuleSet) : ∀ token ∈ (precacheTokens ruleSet).head?,
      (!token.1.registers) = false := by
    intro token head
    rw [kind_of_mem_precacheTokens ruleSet (List.mem_of_mem_head? head)]
    rfl
  rw [tokens_opening, tokens_opening] at same
  simp only [List.cons.injEq, Prod.mk.injEq, true_and] at same
  obtain ⟨-, library, debug, following⟩ := same
  obtain ⟨lifecycles, ahead⟩ := Line.append_inj_of_kinds (!·.registers) (early ruleSet)
    (early other) (late ruleSet) (late other) following
  exact ⟨Json.quoted_injective ((String.append_left_inj _).mp library),
    Text.toString_bool_injective debug, lifecycle_eq_of_tokens lifecycles,
    precache_eq_of_tokens ahead⟩

end Opening

end Program

/-! ## Policies -/

/-- Two policies that do the same, whatever they name that does not count. -/
structure RuleSet.Alike (ruleSet other : RuleSet) : Prop where
  lifecycle : ruleSet.lifecycle = other.lifecycle
  includeBuildManifest : ruleSet.includeBuildManifest = other.includeBuildManifest
  urls : ruleSet.precache.urls = other.precache.urls
  rules : List.Forall₂ CachingRule.Alike ruleSet.rules other.rules

theorem CachingRule.filterMap_partition {rules others : List CachingRule}
    (alike : List.Forall₂ CachingRule.Alike rules others) :
    rules.filterMap (·.partition) = others.filterMap (·.partition) := by
  induction alike with
  | nil => rfl
  | cons same _ ih => rw [List.filterMap_cons, List.filterMap_cons, same.partition, ih]

namespace Program

theorem allProper_ofRuleSet (options : Options) (ruleSet : RuleSet) {fingerprint : String}
    (single : Text.Single fingerprint) :
    Line.AllProper (ofRuleSet options ruleSet fingerprint).written := by
  intro line member
  obtain ⟨statement, stands, written⟩ := List.mem_flatMap.mp member
  refine statement.allProper_written ?_ line written
  rintro other rfl
  rw [ofRuleSet_eq, List.mem_append] at stands
  rcases stands with first | later
  · have same : other = fingerprint := by
      cases build : ruleSet.includeBuildManifest <;>
        simpa [opening, lifecycle, whenever, build] using first
    rw [same]
    exact single
  · exact absurd later (heading_notMem_routes other _ _ _)

variable {options otherOptions : Options} {ruleSet other : RuleSet} {fingerprint : String}

/-- Valid policies with programs of one text agree in all that counts. -/
theorem alike_of_text_eq (valid : ruleSet.validate = .ok ()) (otherValid : other.validate = .ok ())
    (single : Text.Single fingerprint)
    (same : (ofRuleSet options ruleSet fingerprint).text =
      (ofRuleSet otherOptions other fingerprint).text) :
    options.workboxUrl = otherOptions.workboxUrl ∧ options.debug = otherOptions.debug ∧
      ruleSet.Alike other := by
  have inside (options : Options) (ruleSet : RuleSet) :
      ∀ token ∈ (opening options ruleSet fingerprint).tokens, (!token.1.inRoutes) = true := by
    intro token member
    rw [inRoutes_of_mem_opening options ruleSet fingerprint member]
    rfl
  have outside (ruleSet : RuleSet) :
      ∀ token ∈ (routes (Constants.declared []) 0 ruleSet.rules).tokens.head?,
        (!token.1.inRoutes) = false := by
    intro token head
    rw [inRoutes_of_mem_routes (List.mem_of_mem_head? head)]
    rfl
  have tokens := tokens_eq_of_text_eq (allProper_ofRuleSet options ruleSet single)
    (allProper_ofRuleSet otherOptions other single) same
  rw [ofRuleSet_eq, ofRuleSet_eq, tokens_append, tokens_append] at tokens
  obtain ⟨first, later⟩ := Line.append_inj_of_kinds (!·.inRoutes) (inside options ruleSet)
    (inside otherOptions other) (outside ruleSet) (outside other) tokens
  obtain ⟨url, debug, lifecycle, build, urls⟩ := opening_eq_of_tokens fingerprint first
  refine ⟨url, debug, lifecycle, build, urls, ?_⟩
  apply alike_of_routes
  · exact .nil (RuleSet.agree_of_validate valid)
  · exact .nil (RuleSet.agree_of_validate otherValid)
  · exact later

/-- What does not count is not written. -/
theorem text_eq_of_alike (url : options.workboxUrl = otherOptions.workboxUrl)
    (debug : options.debug = otherOptions.debug) (alike : ruleSet.Alike other) :
    (ofRuleSet options ruleSet fingerprint).text =
      (ofRuleSet otherOptions other fingerprint).text := by
  have names : ruleSet.declaredCacheNames = other.declaredCacheNames := by
    rw [RuleSet.declaredCacheNames, CachingRule.filterMap_partition alike.rules]
    rfl
  have first : opening options ruleSet fingerprint = opening otherOptions other fingerprint := by
    rw [opening, opening, lifecycle, lifecycle, url, debug, alike.lifecycle,
      alike.includeBuildManifest, alike.urls, names]
  rw [ofRuleSet_eq, ofRuleSet_eq, text_append, text_append, first,
    text_routes_congr alike.rules]

/-- The lines that store ahead what a policy lists. -/
def precacheLines (ruleSet : RuleSet) : List String :=
  (if ruleSet.includeBuildManifest then
      ["workbox.precaching.precacheAndRoute(self.__WB_MANIFEST);"] else []) ++
    ["workbox.precaching.precacheAndRoute(" ++ (Json.strs ruleSet.precache.urls).compact ++
      ".map((url) => (\x7b url, revision: null \x7d)));"]

/-- The header and the registration of each rule, in order. -/
def ruleLines (rules : List CachingRule) : List String :=
  rules.zipIdx.flatMap fun (rule, index) =>
    ["// " ++ rule.origin.name ++ " rule " ++ toString index, "workbox.routing.registerRoute("]

theorem map_lineOf_precacheTokens (ruleSet : RuleSet) :
    (precacheTokens ruleSet).map Line.lineOf = precacheLines ruleSet := by
  have urls (text : String) :
      Line.lineOf (.precache, (Json.strs ruleSet.precache.urls).compact ++ text) =
        "workbox.precaching.precacheAndRoute(" ++ (Json.strs ruleSet.precache.urls).compact ++
          text := by
    rw [String.append_assoc]
    rfl
  rw [precacheTokens, precacheLines, List.map_append, List.map_singleton, urls]
  cases ruleSet.includeBuildManifest with
  | false => rfl
  | true => rfl

/-- No policy can make a line that registers something but those of its own. -/
theorem filter_registers_linesOf (options : Options) (ruleSet : RuleSet)
    (single : Text.Single fingerprint) :
    (Text.linesOf (ofRuleSet options ruleSet fingerprint).text).filter
        (Line.ofKinds LineKind.registers) =
      precacheLines ruleSet ++ ruleLines ruleSet.rules := by
  rw [filter_linesOf_text (allProper_ofRuleSet options ruleSet single), ofRuleSet_eq,
    tokens_append, List.filter_append, filter_registers_opening, filter_registers_routes,
    List.map_append, List.map_flatMap, map_lineOf_precacheTokens]
  rfl

/-- The programs of two valid policies have one text just when the policies agree in all that
counts.  The lines of the text that store something ahead, head a rule or register one are
those of the policy: first what is stored ahead, and then each rule in order, with one header
and one registration. -/
theorem text_tells_policy (valid : ruleSet.validate = .ok ())
    (otherValid : other.validate = .ok ()) (single : Text.Single fingerprint) :
    ((ofRuleSet options ruleSet fingerprint).text =
        (ofRuleSet otherOptions other fingerprint).text ↔
      options.workboxUrl = otherOptions.workboxUrl ∧ options.debug = otherOptions.debug ∧
        ruleSet.Alike other) ∧
    (Text.linesOf (ofRuleSet options ruleSet fingerprint).text).filter
        (Line.ofKinds LineKind.registers) =
      precacheLines ruleSet ++ ruleLines ruleSet.rules := by
  constructor
  · constructor
    · exact alike_of_text_eq valid otherValid single
    · rintro ⟨url, debug, alike⟩
      exact text_eq_of_alike url debug alike
  · exact filter_registers_linesOf options ruleSet single

end Program

/-! ## A forged line -/

/-- A rule whose path and queue look like lines of their own, and which names a cache that does
not count. -/
def CachingRule.forger (cacheName : Option String) : CachingRule where
  origin := .backgroundSync
  matcher := .pathPrefix "/\n// preset rule 7\nworkbox.routing.registerRoute("
  strategy := .networkOnly
  cacheName := cacheName
  replayQueue := some ⟨"\");\nworkbox.precaching.precacheAndRoute(", 60⟩

/-- A policy of this rule. -/
def RuleSet.forger (cacheName : Option String) : RuleSet where
  lifecycle := ⟨true, false, true⟩
  includeBuildManifest := false
  precache := ⟨[.unversioned "/a"]⟩
  rules := [.forger cacheName]

theorem text_tells_policy_forger :
    (Program.ofRuleSet {} (RuleSet.forger none) "0").text =
        (Program.ofRuleSet {} (RuleSet.forger (some "pages")) "0").text ∧
      (Text.linesOf (Program.ofRuleSet {} (RuleSet.forger none) "0").text).filter
          (Line.ofKinds LineKind.registers) =
        Program.precacheLines (RuleSet.forger none) ++
          ["// background_sync rule 0", "workbox.routing.registerRoute("] := by
  have valid (cacheName : Option String) : (RuleSet.forger cacheName).validate = .ok () := rfl
  have single : Text.Single "0" := Text.single_of_bytes rfl
  have told := @Program.text_tells_policy {} {} (RuleSet.forger none)
    (RuleSet.forger (some "pages")) "0" (valid none) (valid (some "pages")) single
  constructor
  · apply told.1.mpr
    refine ⟨rfl, rfl, rfl, rfl, rfl, ?_⟩
    exact .cons ⟨rfl, rfl, rfl, rfl, rfl, rfl, rfl⟩ .nil
  · exact told.2

end CachePolicy
