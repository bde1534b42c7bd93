import CachePolicy.Proofs.Policy.Lines

/-!
# What statements write

Each statement of a program writes some lines, and its text is that of its lines.  Whatever
the policy says stands in a line that begins as its kind does.
-/

namespace CachePolicy

/-- The lines of a text that no policy changes. -/
def fixedLines (text : String) : List Line :=
  (Text.linesOf text).dropLast.map .fixed

namespace CachingRule

/-- The lines that bound a cache. -/
def boundsLines (rule : CachingRule) : List Line :=
  match rule.effectiveExpiration with
  | none => []
  | some bounds =>
    .fixed "      new workbox.expiration.ExpirationPlugin(\x7b" ::
      ((bounds.maxEntries.map fun n => Line.shown .mostEntries (toString n ++ ",")).toList ++
        (bounds.maxAgeSeconds.map fun n => Line.shown .greatestAge (toString n ++ ",")).toList ++
        [.fixed "      \x7d),"])

/-- The lines of the plugins of a rule. -/
def pluginLines (rule : CachingRule) (queueOf : Option Nat) : List Line :=
  rule.boundsLines ++
    (queueOf.map fun owner => Line.shown .usesQueue (toString owner ++ ",")).toList

/-- Lines between brackets, if there are any. -/
def bracketed (lines : List Line) : List Line :=
  if lines.isEmpty then [] else .fixed "    plugins: [" :: (lines ++ [.fixed "    ],"])

/-- The lines of the options of a strategy. -/
def optionLines (rule : CachingRule) (queueOf : Option Nat) : List Line :=
  (rule.partition.map fun name => Line.shown .cache (Json.quoted name ++ ",")).toList ++
    (rule.networkTimeoutSeconds.map fun n => Line.shown .timeout (toString n ++ ",")).toList ++
    bracketed (rule.pluginLines queueOf)

/-- What stands after the strategy of a rule. -/
def separator (rule : CachingRule) : String := if rule.routeMethod = "GET" then "" else ","

/-- The lines of the strategy of a rule. -/
def strategyLines (rule : CachingRule) (queueOf : Option Nat) : List Line :=
  if (rule.optionLines queueOf).isEmpty then
    [.shown (.strategy rule.strategy) (")" ++ rule.separator)]
  else
    .shown (.strategy rule.strategy) "\x7b" ::
      (rule.optionLines queueOf ++ [.fixed ("  \x7d)" ++ rule.separator)])

/-- The line of the method of a rule, if it needs one. -/
def methodLines (rule : CachingRule) : List Line :=
  if rule.routeMethod = "GET" then []
  else
    [.shown .method (String.ofList (rule.routeMethod.toList.flatMap Json.escapeChar ++ ['"']))]

end CachingRule

namespace Statement

/-- The lines that a statement writes. -/
def written : Statement → List Line
  | heading fingerprint => [.shown .heading fingerprint]
  | importLibrary url => [.shown .library (Json.quoted url ++ ");")]
  | configure debug =>
    [.fixed "workbox.setConfig(\x7b", .shown .debug (toString debug), .fixed "\x7d);"]
  | matchFunction => fixedLines matchFunctionText
  | skipWaitingOnMessage => fixedLines skipWaitingText
  | skipWaitingOnInstall => [.shown .skipWaiting "() => self.skipWaiting());"]
  | claimClients => [.shown .claimClients ");"]
  | cleanupPrecache => [.shown .cleanupPrecache ");"]
  | declareCaches names => [.shown .declaredCaches ((Json.strs names).compact ++ ";")]
  | cleanupCaches => fixedLines cleanupCachesText
  | precacheBuild => [.shown .precache (manifestPlaceholder ++ ");")]
  | precacheUrls urls =>
    [.shown .precache
      ((Json.strs urls).compact ++ ".map((url) => (\x7b url, revision: null \x7d)));")]
  | declareQueue rule queue =>
    [.shown .queue (toString rule ++ (" = new workbox.backgroundSync.BackgroundSyncPlugin(" ++
        (Json.quoted queue.name ++ ", \x7b"))),
      .shown .retention (toString queue.maxRetentionMinutes ++ " * 60"), .fixed "\x7d);"]
  | route index rule queueOf =>
    [.shown (.rule rule.origin) (toString index), .shown .registration "",
        .shown .matcher (rule.matcher.toJson.compact ++ "),")] ++
      rule.strategyLines queueOf ++ rule.methodLines ++ [.fixed ");"]
  | blank => [.fixed ""]

/-- The text of lines. -/
def block (lines : List Line) : String := Statement.lines (lines.map Line.text)

@[simp] theorem block_nil : block [] = "" := rfl

@[simp] theorem block_cons (line : Line) (rest : List Line) :
    block (line :: rest) = line.text ++ "\n" ++ block rest := by
  rw [block, lines, List.map_cons, List.map_cons, String.join_cons]
  rfl

@[simp] theorem block_append (first second : List Line) :
    block (first ++ second) = block first ++ block second := by
  rw [block, lines, List.map_append, List.map_append, String.join_append]
  rfl

theorem block_fixed (texts : List String) : block (texts.map .fixed) = lines texts := by
  rw [block, List.map_map]
  exact congrArg lines (List.map_id texts)

/-- Lines that may stand as fixed lines are those of their text. -/
theorem fixedLines_lines {texts : List String} (fixed : texts.all Line.isFixed = true) :
    fixedLines (lines texts) = texts.map .fixed := by
  have single : ∀ text ∈ texts, '\n' ∉ text.toList := by
    intro text member
    exact (Line.Proper.fixed (List.all_eq_true.mp fixed text member)).single
  rw [fixedLines, Text.linesOf_lines single, List.dropLast_concat]

/-- A text of fixed lines. -/
def IsFixed (text : String) : Prop := ∃ texts, text = lines texts ∧ texts.all Line.isFixed = true

namespace IsFixed

variable {text : String}

theorem block_fixedLines (fixed : IsFixed text) : block (fixedLines text) = text := by
  obtain ⟨texts, rfl, proper⟩ := fixed
  rw [fixedLines_lines proper, block_fixed]

theorem allProper (fixed : IsFixed text) : Line.AllProper (fixedLines text) := by
  obtain ⟨texts, rfl, proper⟩ := fixed
  rw [fixedLines_lines proper]
  intro line member
  obtain ⟨text, listed, rfl⟩ := List.mem_map.mp member
  exact .fixed (List.all_eq_true.mp proper text listed)

end IsFixed

theorem isFixed_matchFunctionText : IsFixed matchFunctionText := ⟨_, rfl, by decide +kernel⟩

theorem isFixed_skipWaitingText : IsFixed skipWaitingText := ⟨_, rfl, by decide +kernel⟩

theorem isFixed_cleanupCachesText : IsFixed cleanupCachesText := ⟨_, rfl, by decide +kernel⟩

/-! ## Texts -/

theorem isEmpty_block (written : List Line) : (block written).isEmpty = written.isEmpty := by
  cases written with
  | nil => rfl
  | cons line rest =>
      rw [block_cons, List.isEmpty_cons]
      apply Bool.eq_false_iff.mpr
      intro empty
      rw [String.isEmpty_iff, String.append_eq_empty_iff, String.append_eq_empty_iff] at empty
      exact absurd empty.1.2 (by decide)

section Rule

variable (rule : CachingRule) (queueOf : Option Nat)

theorem block_boundsLines :
    block rule.boundsLines =
      match rule.effectiveExpiration with
      | some bounds => expirationText bounds
      | none => "" := by
  delta CachingRule.boundsLines
  cases rule.effectiveExpiration with
  | none => rfl
  | some bounds =>
      obtain ⟨most, age⟩ := bounds
      delta expirationText
      cases most <;> cases age <;>
        simp only [Option.map_some, Option.map_none, Option.toList_some, Option.toList_none,
          block_cons, block_nil, block_append, Line.text, String.append_assoc] <;>
        rfl

theorem block_pluginLines :
    block (rule.pluginLines queueOf) = pluginsText rule queueOf := by
  delta CachingRule.pluginLines
  rw [block_append, block_boundsLines]
  delta pluginsText
  cases queueOf with
  | none => rfl
  | some owner =>
      simp only [Option.map_some, Option.toList_some, block_cons, block_nil, Line.text,
        String.append_assoc]
      rfl

theorem block_bracketed (lines : List Line) :
    block (CachingRule.bracketed lines) =
      if (block lines).isEmpty then "" else "    plugins: [\n" ++ block lines ++ "    ],\n" := by
  rw [isEmpty_block]
  delta CachingRule.bracketed
  cases lines.isEmpty with
  | true => rfl
  | false =>
      rw [if_neg Bool.false_ne_true, if_neg Bool.false_ne_true, block_cons, block_append]
      rfl

theorem block_optionLines :
    block (rule.optionLines queueOf) = strategyOptionsText rule queueOf := by
  delta CachingRule.optionLines
  rw [block_append, block_append, block_bracketed, block_pluginLines]
  delta strategyOptionsText
  cases rule.partition <;> cases rule.networkTimeoutSeconds <;>
    simp only [Option.map_some, Option.map_none, Option.toList_some, Option.toList_none,
      block_cons, block_nil, Line.text, String.append_assoc] <;>
    rfl

theorem block_strategyLines :
    block (rule.strategyLines queueOf) = strategyText rule queueOf ++ rule.separator ++ "\n" := by
  delta CachingRule.strategyLines strategyText
  simp only [← block_optionLines, isEmpty_block]
  cases (rule.optionLines queueOf).isEmpty with
  | true =>
      simp only [↓reduceIte, block_cons, block_nil, Line.text, LineKind.mark_strategy,
        String.append_assoc]
      rfl
  | false =>
      simp only [Bool.false_eq_true, ↓reduceIte, block_cons, block_nil, block_append, Line.text,
        LineKind.mark_strategy, String.append_assoc]
      rfl

/-- The strategy of a rule is followed by its method, or ends the registration. -/
theorem block_methodLines :
    rule.separator ++ "\n" ++ block (rule.methodLines ++ [.fixed ");"]) =
      (if rule.routeMethod = "GET" then "" else ",\n  " ++ Json.quoted rule.routeMethod) ++
        "\n);\n" := by
  have literal : Json.quoted rule.routeMethod =
      "\"" ++ String.ofList (rule.routeMethod.toList.flatMap Json.escapeChar ++ ['"']) := by
    rw [Json.quoted, Json.quotedChars, ← List.singleton_append, String.ofList_append]
  rw [literal]
  delta CachingRule.methodLines CachingRule.separator
  by_cases plain : rule.routeMethod = "GET"
  · simp only [plain, ↓reduceIte]
    rfl
  · simp only [plain, ↓reduceIte, block_append, block_cons, block_nil, Line.text,
      String.append_assoc]
    rfl

theorem block_routeLines (index : Nat) :
    block ([.shown (.rule rule.origin) (toString index), .shown .registration "",
        .shown .matcher (rule.matcher.toJson.compact ++ "),")] ++
      rule.strategyLines queueOf ++ rule.methodLines ++ [.fixed ");"]) =
      routeText index rule queueOf := by
  have strategy : block (rule.strategyLines queueOf) ++ block (rule.methodLines ++ [.fixed ");"]) =
      strategyText rule queueOf ++ ((if rule.routeMethod = "GET" then ""
        else ",\n  " ++ Json.quoted rule.routeMethod) ++ "\n);\n") := by
    rw [block_strategyLines, ← block_methodLines]
    simp only [String.append_assoc]
  rw [List.append_assoc, block_append, block_append, String.append_assoc, strategy]
  delta routeText
  simp only [block_cons, block_nil, Line.text, LineKind.mark_rule, String.append_assoc]
  rfl

end Rule

/-- The text of a statement is that of the lines that it writes. -/
theorem text_eq_block (statement : Statement) : statement.text = block statement.written := by
  cases statement with
  | heading fingerprint =>
      change "// swpolicy config " ++ fingerprint ++ "\n" = block [.shown .heading fingerprint]
      simp only [block_cons, block_nil, Line.text, String.append_assoc]
      rfl
  | importLibrary url =>
      change "importScripts(" ++ Json.quoted url ++ ");\n" =
        block [.shown .library (Json.quoted url ++ ");")]
      simp only [block_cons, block_nil, Line.text, String.append_assoc]
      rfl
  | configure debug => cases debug <;> rfl
  | matchFunction => exact isFixed_matchFunctionText.block_fixedLines.symm
  | skipWaitingOnMessage => exact isFixed_skipWaitingText.block_fixedLines.symm
  | skipWaitingOnInstall => rfl
  | claimClients => rfl
  | cleanupPrecache => rfl
  | declareCaches names =>
      change "const DECLARED_CACHES = " ++ (Json.strs names).compact ++ ";\n" =
        block [.shown .declaredCaches ((Json.strs names).compact ++ ";")]
      simp only [block_cons, block_nil, Line.text, String.append_assoc]
      rfl
  | cleanupCaches => exact isFixed_cleanupCachesText.block_fixedLines.symm
  | precacheBuild => rfl
  | precacheUrls urls =>
      change "workbox.precaching.precacheAndRoute(" ++ (Json.strs urls).compact ++
        ".map((url) => (\x7b url, revision: null \x7d)));\n" =
        block [.shown .precache
          ((Json.strs urls).compact ++ ".map((url) => (\x7b url, revision: null \x7d)));")]
      simp only [block_cons, block_nil, Line.text, String.append_assoc]
      rfl
  | declareQueue owner queue =>
      change "const replayQueue" ++ toString owner ++
        " = new workbox.backgroundSync.BackgroundSyncPlugin(" ++
        (Json.quoted queue.name ++ ", \x7b\n") ++ ("  maxRetentionTime: " ++
          toString queue.maxRetentionMinutes ++ " * 60\n\x7d);\n") =
        block [.shown .queue (toString owner ++
            (" = new workbox.backgroundSync.BackgroundSyncPlugin(" ++
              (Json.quoted queue.name ++ ", \x7b"))),
          .shown .retention (toString queue.maxRetentionMinutes ++ " * 60"), .fixed "\x7d);"]
      simp only [block_cons, block_nil, Line.text, String.append_assoc]
      rfl
  | route index rule queueOf => exact (block_routeLines rule queueOf index).symm
  | blank => rfl

end Statement

/-! ## Programs -/

namespace Program

/-- The lines that a program writes. -/
def written (program : Program) : List Line := program.flatMap (·.written)

/-- What the lines of a program show of the policy. -/
def tokens (program : Program) : List Line.Token := Line.tokens program.written

theorem text_cons (statement : Statement) (rest : Program) :
    text (statement :: rest) = statement.text ++ text rest := by
  rw [text, List.map_cons, String.join_cons]
  rfl

theorem text_append (first second : Program) :
    text (first ++ second) = text first ++ text second := by
  rw [text, List.map_append, String.join_append]
  rfl

theorem text_eq_block (program : Program) : program.text = Statement.block program.written := by
  induction program with
  | nil => rfl
  | cons statement rest ih =>
      rw [text_cons, statement.text_eq_block, ih, ← Statement.block_append]
      rfl

@[simp] theorem tokens_nil : tokens [] = [] := rfl

@[simp] theorem tokens_cons (statement : Statement) (rest : Program) :
    tokens (statement :: rest) = Line.tokens statement.written ++ tokens rest := by
  rw [tokens, written, List.flatMap_cons, Line.tokens_append]
  rfl

@[simp] theorem tokens_append (first second : Program) :
    tokens (first ++ second) = tokens first ++ tokens second := by
  rw [tokens, written, List.flatMap_append, Line.tokens_append]
  rfl

theorem tokens_flatMap (items : List α) (program : α → Program) :
    tokens (items.flatMap program) = items.flatMap fun item => tokens (program item) := by
  induction items with
  | nil => rfl
  | cons item rest ih => rw [List.flatMap_cons, tokens_append, ih, List.flatMap_cons]

end Program

end CachePolicy
