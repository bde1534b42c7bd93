import CachePolicy.Policy.Preset
import CachePolicy.Rule.Set

/-!
# Planning a policy

`Options.plan` makes the rule set of options and of the pages of a site.  The
order of the rules is the order in which they are tried: static assets, API
patterns, strategies by pattern, the recommended rules, the entries for runtime
caching, and the queue for forms.

The manifest lists the files that the options name and then the pages, without
the worker itself.
-/

namespace CachePolicy

/-- The last part of a URL's path that is not empty, if there is one. -/
def lastSegment? (url : String) : Option (List Char) :=
  let path := (Text.cut (fun c => c == '?' || c == '#') url.toList).1
  (Text.split (· == '/') path).reverse.find? (!·.isEmpty)

/-- Whether a URL names the file of the worker, up to what follows a dot. -/
def namesWorker (stem url : String) : Bool :=
  match lastSegment? url with
  | some segment => String.ofList (Text.cut (· == '.') segment).1 == stem
  | none => false

namespace Options

/-- The files and pages to store ahead. -/
def precacheManifest (options : Options) (pathnames : List String) : PrecacheManifest :=
  .ofList (((options.precacheFiles ++ pathnames).filter fun url =>
    !namesWorker options.swStem url).map .unversioned)

/-- The strategy of a name. -/
def strategy (name : String) : Except RuleError Strategy :=
  match Strategy.named? name with
  | some strategy => .ok strategy
  | none => .error (.unknownStrategy name)

/-- The rule for static assets. -/
def staticAssetsRule (options : Options) : CachingRule where
  origin := .staticAssets
  matcher := .extensions options.cacheStaticAssetsExtensions
  strategy := .cacheFirst
  cacheName := some s!"{options.cacheNamePrefix}-static-assets"
  expiration := some ⟨none, some options.cacheStaticAssetsDuration⟩

/-- The rule for an API pattern, which has to match at the start of a path. -/
def apiRule (options : Options) (pattern : String) : CachingRule where
  origin := .apiCache
  matcher := .pattern s!"^{pattern}" .path
  strategy := .networkFirst
  cacheName := some s!"{options.cacheNamePrefix}-api"
  expiration := some ⟨some 50, some 300⟩

/-- The rule that gives a pattern its strategy. -/
def strategyRule (options : Options) (pattern handler : String) :
    Except RuleError CachingRule := do
  let strategy ← strategy handler
  return {
    origin := .cachingStrategy
    matcher := .pattern pattern .url
    strategy
    cacheName :=
      if strategy.usesCache then some s!"{options.cacheNamePrefix}-{pattern}" else none }

/-- The bounds of an entry.  What a user's entry leaves open is bounded by 50
entries and a day; a recommended entry is taken as it is. -/
def runtimeExpiration (origin : RuleOrigin) (given : Option Expiration) : Option Expiration :=
  if origin = .runtimeCaching then
    let bounds := given.getD ⟨none, none⟩
    some ⟨bounds.maxEntries.or (some 50), bounds.maxAgeSeconds.or (some 86400)⟩
  else given

/-- The rule of an entry.  A cache and its bounds count only where the strategy
uses a cache, and a timeout only where it tries the network first. -/
def runtimeRule (options : Options) (origin : RuleOrigin) (entry : RuntimeEntry) :
    Except RuleError CachingRule := do
  let strategy ← strategy entry.handler
  return {
    origin
    matcher := entry.urlPattern.toMatcher
    strategy
    cacheName :=
      if strategy.usesCache then
        some (entry.options.cacheName.getD s!"{options.cacheNamePrefix}-runtime")
      else none
    expiration :=
      if strategy.usesCache then runtimeExpiration origin entry.options.expiration else none
    networkTimeoutSeconds :=
      if strategy = .networkFirst then entry.options.networkTimeoutSeconds else none
    replayQueue := entry.options.backgroundSync }

/-- The rule that keeps forms which could not be sent. -/
def backgroundSyncRule (queue : ReplayQueue) : CachingRule where
  origin := .backgroundSync
  matcher := .ofMethod "POST"
  strategy := .networkOnly
  replayQueue := some queue

/-- The recommended entries, where they are used. -/
def presetEntries (options : Options) : List RuntimeEntry :=
  let used :=
    match options.preset with
    | .recommended => true
    | .auto => !options.hasCustomRules
    | .disabled => false
  if used then Preset.recommendedEntries options.cacheNamePrefix else []

/-- Apply a function to every item of a list until one fails. -/
def each (f : α → Except RuleError β) : List α → Except RuleError (List β)
  | [] => .ok []
  | a :: rest => do
    let b ← f a
    let more ← each f rest
    .ok (b :: more)

/-- The rules of options, in the order in which they are tried. -/
def rules (options : Options) : Except RuleError (List CachingRule) := do
  let strategies ← each (fun (pattern, handler) => options.strategyRule pattern handler)
    options.cachingStrategies
  let preset ← each (options.runtimeRule .preset) options.presetEntries
  let runtime ← each (options.runtimeRule .runtimeCaching) options.runtimeCaching
  return options.staticAssetsRule :: options.apiCachePatterns.map options.apiRule ++ strategies ++
    preset ++ runtime ++ options.backgroundSync.toList.map backgroundSyncRule

/-- The rule set of options and of the pages of a site, if its rules can be
used. -/
def plan (options : Options) (pathnames : List String) : Except RuleError RuleSet := do
  let rules ← options.rules
  let ruleSet : RuleSet := {
    lifecycle := ⟨options.skipWaiting, options.clientsClaim, options.cleanupOutdatedCaches⟩
    includeBuildManifest := true
    precache := options.precacheManifest pathnames
    rules }
  ruleSet.validate
  return ruleSet

end Options

end CachePolicy
