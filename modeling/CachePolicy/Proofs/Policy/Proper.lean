import CachePolicy.Policy.Fingerprint
import CachePolicy.Proofs.Policy.Writing
import CachePolicy.Proofs.Rule.Matcher

/-!
# Nothing leaves its line

What a statement shows of a policy is quoted, or it is a number, so it stays in its line.  The
lines of a text are therefore those that were written, and programs of one text show the same.
-/

namespace CachePolicy

/-- A digest has no other characters than those of its digits. -/
theorem Sha256.notMem_hex {c : Char} (other : ∀ m : Fin 16, Text.lowerHex m.val ≠ c)
    (bytes : ByteArray) : c ∉ (hex bytes).toList := by
  have digit (n : Nat) : Text.lowerHex n ≠ c := by
    have one := other ⟨n % 16, Nat.mod_lt n (by decide)⟩
    rwa [Text.lowerHex, Nat.mod_mod] at one
  intro member
  rw [hex, String.toList_ofList, List.mem_flatMap] at member
  obtain ⟨word, -, inside⟩ := member
  rw [wordHex, List.mem_flatMap] at inside
  obtain ⟨b, -, listed⟩ := inside
  simp [(digit _).symm] at listed

theorem Fingerprint.single_of (options : Options) (ruleSet : RuleSet) :
    Text.Single (Fingerprint.of options ruleSet) :=
  Sha256.notMem_hex (by decide) _

namespace Statement

theorem single_quoted (text : String) : Text.Single (Json.quoted text) := by
  rw [Text.Single, Json.quoted, String.toList_ofList]
  exact Json.newline_notMem_quotedChars text.toList

theorem single_compact {value : Json} (plain : value.numberless = true) :
    Text.Single value.compact := by
  rw [Text.Single, Json.compact, String.toList_ofList]
  exact Json.newline_notMem_compactChars plain

theorem single_strs (texts : List String) : Text.Single (Json.strs texts).compact :=
  single_compact (Json.numberlessItems_str texts)

section Rule

variable (rule : CachingRule) (queueOf : Option Nat)

theorem allProper_boundsLines : Line.AllProper rule.boundsLines := by
  delta CachingRule.boundsLines
  cases rule.effectiveExpiration with
  | none => exact Line.allProper_nil
  | some bounds =>
      have number (n : Nat) : Text.Single (toString n ++ ",") :=
        Text.single_append.mpr ⟨Text.single_toString n, Text.single_of_bytes rfl⟩
      simp only [Line.allProper_cons, Line.allProper_append, Line.allProper_nil]
      refine ⟨.fixed (by decide +kernel), ⟨?_, ?_⟩, .fixed (by decide +kernel), trivial⟩
      · apply Line.allProper_toList
        intro n
        exact .shown (number n.toNat)
      · apply Line.allProper_toList
        intro n
        exact .shown (number n.toNat)

theorem allProper_bracketed {lines : List Line} (proper : Line.AllProper lines) :
    Line.AllProper (CachingRule.bracketed lines) := by
  delta CachingRule.bracketed
  cases lines.isEmpty with
  | true => exact Line.allProper_nil
  | false =>
      apply Line.allProper_cons.mpr
      constructor
      · exact .fixed (by decide +kernel)
      · apply Line.allProper_append.mpr
        constructor
        · exact proper
        · exact Line.allProper_singleton.mpr (.fixed (by decide +kernel))

theorem allProper_optionLines : Line.AllProper (rule.optionLines queueOf) := by
  have comma : Text.Single "," := Text.single_of_bytes rfl
  delta CachingRule.optionLines CachingRule.pluginLines
  simp only [Line.allProper_append]
  refine ⟨⟨?cache, ?timeout⟩, allProper_bracketed (Line.allProper_append.mpr ⟨?bounds, ?queue⟩)⟩
  · apply Line.allProper_toList
    intro name
    exact .shown (Text.single_append.mpr ⟨single_quoted name, comma⟩)
  · apply Line.allProper_toList
    intro n
    exact .shown (Text.single_append.mpr ⟨Text.single_toString n.toNat, comma⟩)
  · exact allProper_boundsLines rule
  · apply Line.allProper_toList
    intro owner
    exact .shown (Text.single_append.mpr ⟨Text.single_toString owner, comma⟩)

theorem allProper_strategyLines : Line.AllProper (rule.strategyLines queueOf) := by
  have proper := allProper_optionLines rule queueOf
  have last : (Line.fixed ("  \x7d)" ++ rule.separator)).Proper := by
    rw [CachingRule.separator]
    split
    · exact .fixed (by decide +kernel)
    · exact .fixed (by decide +kernel)
  have alone : Text.Single (")" ++ rule.separator) := by
    rw [CachingRule.separator]
    split
    · exact Text.single_of_bytes rfl
    · exact Text.single_of_bytes rfl
  delta CachingRule.strategyLines
  cases (rule.optionLines queueOf).isEmpty with
  | true => exact Line.allProper_singleton.mpr (.shown alone)
  | false =>
      apply Line.allProper_cons.mpr
      constructor
      · exact .shown (Text.single_of_bytes rfl)
      · exact Line.allProper_append.mpr ⟨proper, Line.allProper_singleton.mpr last⟩

theorem allProper_methodLines : Line.AllProper rule.methodLines := by
  delta CachingRule.methodLines
  split
  · exact Line.allProper_nil
  · apply Line.allProper_singleton.mpr
    apply Line.Proper.shown
    have quoted := Json.newline_notMem_quotedChars rule.routeMethod.toList
    rw [Json.quotedChars, List.mem_cons, not_or] at quoted
    rw [Text.Single, String.toList_ofList]
    exact quoted.2

end Rule

/-- Whatever a statement shows of a policy stays in its line. -/
theorem allProper_written (statement : Statement)
    (single : ∀ fingerprint, statement = heading fingerprint → Text.Single fingerprint) :
    Line.AllProper statement.written := by
  have semicolon : Text.Single ");" := Text.single_of_bytes rfl
  have closing : (Line.fixed "\x7d);").Proper := .fixed (by decide +kernel)
  cases statement with
  | heading fingerprint => exact Line.allProper_singleton.mpr (.shown (single fingerprint rfl))
  | importLibrary url =>
      apply Line.allProper_singleton.mpr
      exact .shown (Text.single_append.mpr ⟨single_quoted url, semicolon⟩)
  | configure debug =>
      have flag : Text.Single (toString debug) := by
        cases debug <;> exact Text.single_of_bytes rfl
      have opening : (Line.fixed "workbox.setConfig(\x7b").Proper := .fixed (by decide +kernel)
      simp [written, opening, Line.Proper.shown flag, closing]
  | matchFunction => exact isFixed_matchFunctionText.allProper
  | skipWaitingOnMessage => exact isFixed_skipWaitingText.allProper
  | skipWaitingOnInstall => exact Line.allProper_singleton.mpr (.shown (Text.single_of_bytes rfl))
  | claimClients => exact Line.allProper_singleton.mpr (.shown semicolon)
  | cleanupPrecache => exact Line.allProper_singleton.mpr (.shown semicolon)
  | declareCaches names =>
      apply Line.allProper_singleton.mpr
      exact .shown (Text.single_append.mpr ⟨single_strs names, Text.single_of_bytes rfl⟩)
  | cleanupCaches => exact isFixed_cleanupCachesText.allProper
  | precacheBuild => exact Line.allProper_singleton.mpr (.shown (Text.single_of_bytes rfl))
  | precacheUrls urls =>
      apply Line.allProper_singleton.mpr
      exact .shown (Text.single_append.mpr ⟨single_strs urls, Text.single_of_bytes rfl⟩)
  | declareQueue owner queue =>
      have named : Text.Single (toString owner ++
          (" = new workbox.backgroundSync.BackgroundSyncPlugin(" ++
            (Json.quoted queue.name ++ ", \x7b"))) := by
        simp only [Text.single_append]
        exact ⟨Text.single_toString owner, Text.single_of_bytes rfl, single_quoted queue.name,
          Text.single_of_bytes rfl⟩
      have kept : Text.Single (toString queue.maxRetentionMinutes ++ " * 60") :=
        Text.single_append.mpr ⟨Text.single_toString _, Text.single_of_bytes rfl⟩
      simp only [written, Line.allProper_cons, Line.allProper_nil]
      exact ⟨.shown named, .shown kept, closing, trivial⟩
  | route index rule queueOf =>
      have matcher : Text.Single (rule.matcher.toJson.compact ++ "),") :=
        Text.single_append.mpr
          ⟨single_compact rule.matcher.numberless_toJson, Text.single_of_bytes rfl⟩
      have registration : Text.Single "" := Text.single_of_bytes rfl
      have last : (Line.fixed ");").Proper := .fixed (by decide +kernel)
      simp only [written, Line.allProper_append, Line.allProper_cons, Line.allProper_nil]
      exact ⟨⟨⟨⟨.shown (Text.single_toString index), .shown registration, .shown matcher, trivial⟩,
        allProper_strategyLines rule queueOf⟩, allProper_methodLines rule⟩, last, trivial⟩
  | blank => exact Line.allProper_singleton.mpr (.fixed (by decide +kernel))

end Statement

namespace Program

variable {program : Program} (proper : Line.AllProper program.written)

include proper

/-- The lines of a text are those that were written. -/
theorem linesOf_text : Text.linesOf program.text = program.written.map Line.text ++ [""] := by
  rw [text_eq_block, Statement.block, Text.linesOf_lines]
  intro text listed
  obtain ⟨line, member, rfl⟩ := List.mem_map.mp listed
  exact (proper line member).single

/-- The lines of some kinds in a text are what the program shows of these kinds. -/
theorem filter_linesOf_text (kinds : LineKind → Bool) :
    (Text.linesOf program.text).filter (Line.ofKinds kinds) =
      (program.tokens.filter (kinds ·.1)).map Line.lineOf := by
  have last : Line.ofKinds kinds "" = false := Line.ofKinds_fixed kinds (by decide +kernel)
  rw [linesOf_text proper, List.filter_append, Line.filter_ofKinds proper, List.filter_cons, last]
  exact List.append_nil _

/-- Programs of one text show the same. -/
theorem tokens_eq_of_text_eq {other : Program} (otherProper : Line.AllProper other.written)
    (same : program.text = other.text) : program.tokens = other.tokens := by
  have all (tokens : List Line.Token) : tokens.filter (fun _ => true) = tokens :=
    List.filter_eq_self.mpr fun _ _ => rfl
  have shown := filter_linesOf_text proper fun _ => true
  rw [same, filter_linesOf_text otherProper, all, all] at shown
  exact ((List.map_inj_right Line.lineOf_injective).mp shown).symm

end Program

end CachePolicy
