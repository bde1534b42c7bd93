import CachePolicy.Config.Options
import CachePolicy.Json.Printer
import CachePolicy.Rule.Set

/-!
# Worker programs

A worker's program is a list of statements.  The statements are data, and each has
one text, so what a program does can be read off without reading its text.

Every text that comes from the options stands in the program as a JSON string, so
it cannot leave its literal.  A queue is declared once, right before the first
rule that uses it, and later rules refer to that declaration.
-/

namespace CachePolicy

/-- A statement of a worker's program. -/
inductive Statement where
  /-- The first line, which names the fingerprint of the policy. -/
  | heading (fingerprint : String)
  | importLibrary (url : String)
  | configure (debug : Bool)
  /-- The function that evaluates a matcher. -/
  | matchFunction
  /-- Take over when a page asks for it. -/
  | skipWaitingOnMessage
  /-- Take over as soon as the worker is installed. -/
  | skipWaitingOnInstall
  | claimClients
  /-- Delete what earlier versions of the library have stored ahead. -/
  | cleanupPrecache
  /-- The caches that rules name. -/
  | declareCaches (names : List String)
  /-- Delete every other cache on activation. -/
  | cleanupCaches
  /-- Store ahead what the build lists. -/
  | precacheBuild
  | precacheUrls (urls : List String)
  /-- Declare a queue as the constant of a rule. -/
  | declareQueue (rule : Nat) (queue : ReplayQueue)
  /-- Register a rule, which may refer to the queue constant of another. -/
  | route (index : Nat) (rule : CachingRule) (queueOf : Option Nat)
  | blank
  deriving Repr

/-- What a build puts its list of files in place of. -/
def manifestPlaceholder : String := "self.__WB_MANIFEST"

namespace Statement

/-- The lines of a text, each with its end. -/
def lines (texts : List String) : String := String.join (texts.map (· ++ "\n"))

/-- The function that evaluates a matcher. -/
def matchFunctionText : String :=
  lines
    ["function matchRequest(matcher) \x7b",
      "  switch (matcher.type) \x7b",
      "    case 'destination':",
      "      return (\x7b request \x7d) => matcher.destinations.includes(request.destination);",
      "    case 'path_prefix':",
      "      return (\x7b url \x7d) => url.pathname.startsWith(matcher.prefix);",
      "    case 'method':",
      "      return (\x7b request \x7d) => request.method === matcher.method;",
      "    case 'extensions':",
      "      return (\x7b request \x7d) => matcher.extensions.some((ext) => " ++
        "request.url.endsWith(ext));",
      "    case 'pattern': \x7b",
      "      const re = new RegExp(matcher.pattern);",
      "      return matcher.target === 'path'",
      "        ? (\x7b url \x7d) => re.test(url.pathname)",
      "        : (\x7b url \x7d) => re.test(url.href);",
      "    \x7d",
      "    default:",
      "      return () => false;",
      "  \x7d",
      "\x7d"]

/-- The listener for pages that ask the worker to take over. -/
def skipWaitingText : String :=
  lines
    ["self.addEventListener('message', (event) => \x7b",
      "  if (event.data && event.data.type === 'SKIP_WAITING') \x7b",
      "    self.skipWaiting();",
      "  \x7d",
      "\x7d);"]

/-- The listener that deletes caches which no rule names. -/
def cleanupCachesText : String :=
  lines
    ["self.addEventListener('activate', (event) => \x7b",
      "  event.waitUntil(",
      "    caches.keys().then((names) =>",
      "      Promise.all(",
      "        names",
      "          .filter((name) => !name.startsWith('workbox-precache') && " ++
        "!DECLARED_CACHES.includes(name))",
      "          .map((name) => caches.delete(name))",
      "      )",
      "    )",
      "  );",
      "\x7d);"]

/-- The name of the constant of a queue. -/
def queueConstant (rule : Nat) : String := s!"replayQueue{rule}"

/-- The plugin that bounds a cache. -/
def expirationText (bounds : Expiration) : String :=
  "      new workbox.expiration.ExpirationPlugin(\x7b\n" ++
    (match bounds.maxEntries with
      | some n => s!"        maxEntries: {n},\n"
      | none => "") ++
    (match bounds.maxAgeSeconds with
      | some n => s!"        maxAgeSeconds: {n},\n"
      | none => "") ++
    "      \x7d),\n"

/-- The plugins of a rule. -/
def pluginsText (rule : CachingRule) (queueOf : Option Nat) : String :=
  (match rule.effectiveExpiration with
    | some bounds => expirationText bounds
    | none => "") ++
    match queueOf with
    | some index => s!"      {queueConstant index},\n"
    | none => ""

/-- The options of the strategy of a rule. -/
def strategyOptionsText (rule : CachingRule) (queueOf : Option Nat) : String :=
  (match rule.partition with
    | some name => s!"    cacheName: {Json.quoted name},\n"
    | none => "") ++
    (match rule.networkTimeoutSeconds with
      | some seconds => s!"    networkTimeoutSeconds: {seconds},\n"
      | none => "") ++
    if (pluginsText rule queueOf).isEmpty then ""
    else "    plugins: [\n" ++ pluginsText rule queueOf ++ "    ],\n"

/-- The strategy of a rule with its options. -/
def strategyText (rule : CachingRule) (queueOf : Option Nat) : String :=
  let options := strategyOptionsText rule queueOf
  s!"  new workbox.strategies.{rule.strategy.name}(" ++
    (if options.isEmpty then "" else "\x7b\n" ++ options ++ "  \x7d") ++ ")"

/-- The registration of a rule. -/
def routeText (index : Nat) (rule : CachingRule) (queueOf : Option Nat) : String :=
  s!"// {rule.origin.name} rule {index}\n" ++
    "workbox.routing.registerRoute(\n" ++
    s!"  matchRequest({rule.matcher.toJson.compact}),\n" ++
    strategyText rule queueOf ++
    (if rule.routeMethod = "GET" then "" else ",\n  " ++ Json.quoted rule.routeMethod) ++
    "\n);\n"

/-- The text of a statement. -/
def text : Statement → String
  | heading fingerprint => s!"// swpolicy config {fingerprint}\n"
  | importLibrary url => s!"importScripts({Json.quoted url});\n"
  | configure debug => s!"workbox.setConfig(\x7b\n  debug: {debug}\n\x7d);\n"
  | matchFunction => matchFunctionText
  | skipWaitingOnMessage => skipWaitingText
  | skipWaitingOnInstall => "self.addEventListener('install', () => self.skipWaiting());\n"
  | claimClients => "workbox.core.clientsClaim();\n"
  | cleanupPrecache => "workbox.precaching.cleanupOutdatedCaches();\n"
  | declareCaches names => s!"const DECLARED_CACHES = {(Json.strs names).compact};\n"
  | cleanupCaches => cleanupCachesText
  | precacheBuild => s!"workbox.precaching.precacheAndRoute({manifestPlaceholder});\n"
  | precacheUrls urls =>
    s!"workbox.precaching.precacheAndRoute({(Json.strs urls).compact}" ++
      ".map((url) => (\x7b url, revision: null \x7d)));\n"
  | declareQueue rule queue =>
    s!"const {queueConstant rule} = new workbox.backgroundSync.BackgroundSyncPlugin(" ++
      s!"{Json.quoted queue.name}, \x7b\n" ++
      s!"  maxRetentionTime: {queue.maxRetentionMinutes} * 60\n\x7d);\n"
  | route index rule queueOf => routeText index rule queueOf
  | blank => "\n"

end Statement

/-- A worker's program. -/
abbrev Program := List Statement

namespace Program

/-- The text of a program. -/
def text (program : Program) : String := String.join (program.map (·.text))

/-- The statements that a condition asks for. -/
def whenever (condition : Bool) (statements : Program) : Program :=
  if condition then statements else []

/-- How the worker takes over. -/
def lifecycle (ruleSet : RuleSet) : Program :=
  whenever ruleSet.lifecycle.skipWaiting [.skipWaitingOnInstall] ++
    whenever ruleSet.lifecycle.clientsClaim [.claimClients] ++
    whenever ruleSet.lifecycle.cleanupOutdatedCaches
      [.cleanupPrecache, .blank, .declareCaches ruleSet.declaredCacheNames, .cleanupCaches]

/-- The registrations of rules from an index on; `declared` gives the queues that
have a constant and the rules that it is named for. -/
def routes (declared : List (String × Nat)) (index : Nat) : List CachingRule → Program
  | [] => []
  | rule :: rest =>
    match rule.replayQueue with
    | none => .blank :: .route index rule none :: routes declared (index + 1) rest
    | some queue =>
      match declared.lookup queue.name with
      | some owner => .blank :: .route index rule (some owner) :: routes declared (index + 1) rest
      | none =>
        .blank :: .declareQueue index queue :: .blank :: .route index rule (some index) ::
          routes (declared ++ [(queue.name, index)]) (index + 1) rest

/-- The program of a policy. -/
def ofRuleSet (options : Options) (ruleSet : RuleSet) (fingerprint : String) : Program :=
  [.heading fingerprint, .importLibrary options.workboxUrl, .blank, .configure options.debug,
      .blank, .matchFunction, .blank, .skipWaitingOnMessage, .blank] ++
    lifecycle ruleSet ++ [.blank] ++
    whenever ruleSet.includeBuildManifest [.precacheBuild, .blank] ++
    [.precacheUrls ruleSet.precache.urls] ++ routes [] 0 ruleSet.rules

@[simp] theorem text_nil : text [] = "" := rfl

end Program

end CachePolicy
