import CachePolicy.Rule.Basic
import CachePolicy.Text.Split

/-!
# Options

The options from which a policy is made.  Every option has a default, so any part
of them may be written.  Unlike elsewhere, a key that is no option is refused.

Strategies stay names here; whether a name is one of the five is found out when
the policy is planned.
-/

namespace CachePolicy

/-- Whether the recommended rules are used. -/
inductive Preset where
  /-- Only where no other option makes rules. -/
  | auto
  | recommended
  | disabled
  deriving DecidableEq, Repr, Inhabited

namespace Preset

/-- The name of a choice. -/
def name : Preset → String
  | auto => "auto"
  | recommended => "recommended"
  | disabled => "none"

/-- Choices by name. -/
def byName : List (String × Preset) :=
  [auto, recommended, disabled].map fun preset => (preset.name, preset)

end Preset

/-- The URLs that an entry is for. -/
inductive UrlPattern where
  /-- A regular expression to search in the whole URL. -/
  | regex (source : String)
  | matching (matcher : Matcher)
  deriving DecidableEq, Repr

namespace UrlPattern

/-- The matcher that a pattern stands for. -/
def toMatcher : UrlPattern → Matcher
  | regex source => .pattern source .url
  | matching matcher => matcher

/-- A pattern as JSON. -/
def toJson : UrlPattern → Json
  | regex source => .str source
  | matching matcher => matcher.toJson

/-- Read a pattern. -/
def decode : Decoder UrlPattern
  | .str source => .ok (.regex source)
  | value =>
    match Matcher.decodeNumbered value with
    | .ok matcher => .ok (.matching matcher)
    | .error _ => .error (.noForm "UrlPattern")

end UrlPattern

/-! ## Replay queues as options -/

namespace BackgroundSync

/-- How many minutes a request is kept if nothing is said: a day. -/
def defaultRetention : UInt64 := 1440

/-- A queue as it is written in options. -/
def toJson (queue : ReplayQueue) : Json :=
  .obj [("name", .str queue.name),
    ("options", .obj [("maxRetentionTime", Json.nat queue.maxRetentionMinutes.toNat)])]

/-- How the retention is written. -/
def retentionShape : Shape :=
  ⟨"struct BackgroundSyncQueueOptions", [⟨"maxRetentionTime", Decode.check Decode.uint64⟩], true⟩

/-- Read the retention. -/
def decodeRetention : Decoder UInt64 :=
  retentionShape.read fun row => row.withDefault "maxRetentionTime" Decode.uint64 defaultRetention

/-- How a queue is written. -/
def shape : Shape :=
  ⟨"struct BackgroundSyncOptions",
    [⟨"name", Decode.check Decode.string⟩, ⟨"options", Decode.check decodeRetention⟩], true⟩

/-- The queue of given fields. -/
def build (row : Row) : Except DecodeError ReplayQueue := do
  let name ← row.required "name" Decode.string
  let maxRetentionMinutes ← row.withDefault "options" decodeRetention defaultRetention
  return { name, maxRetentionMinutes }

/-- Read a queue. -/
def decode : Decoder ReplayQueue := shape.read build

end BackgroundSync

/-! ## Entries for runtime caching -/

/-- What an entry says beyond its URLs and its strategy. -/
structure RuntimeOptions where
  cacheName : Option String := none
  expiration : Option Expiration := none
  networkTimeoutSeconds : Option UInt64 := none
  backgroundSync : Option ReplayQueue := none
  deriving DecidableEq, Repr, Inhabited

namespace RuntimeOptions

/-- Entry options as JSON. -/
def toJson (options : RuntimeOptions) : Json :=
  .obj (Json.present
    [("cacheName", options.cacheName.map .str),
      ("expiration", options.expiration.map (·.toJson)),
      ("networkTimeoutSeconds", options.networkTimeoutSeconds.map fun n => Json.nat n.toNat),
      ("backgroundSync", options.backgroundSync.map BackgroundSync.toJson)])

/-- How entry options are written. -/
def shape : Shape :=
  ⟨"struct RuntimeCachingOptions",
    [⟨"cacheName", Decode.check (Decode.optional Decode.string)⟩,
      ⟨"expiration", Decode.check (Decode.optional Expiration.decode)⟩,
      ⟨"networkTimeoutSeconds", Decode.check (Decode.optional Decode.uint64)⟩,
      ⟨"backgroundSync", Decode.check (Decode.optional BackgroundSync.decode)⟩], true⟩

/-- The entry options of given fields. -/
def build (row : Row) : Except DecodeError RuntimeOptions := do
  let cacheName ← row.withDefault "cacheName" (Decode.optional Decode.string) none
  let expiration ← row.withDefault "expiration" (Decode.optional Expiration.decode) none
  let networkTimeoutSeconds ←
    row.withDefault "networkTimeoutSeconds" (Decode.optional Decode.uint64) none
  let backgroundSync ←
    row.withDefault "backgroundSync" (Decode.optional BackgroundSync.decode) none
  return { cacheName, expiration, networkTimeoutSeconds, backgroundSync }

/-- Read entry options. -/
def decode : Decoder RuntimeOptions := shape.read build

end RuntimeOptions

/-- A rule as it is written in options. -/
structure RuntimeEntry where
  urlPattern : UrlPattern
  handler : String
  options : RuntimeOptions
  deriving DecidableEq, Repr

namespace RuntimeEntry

/-- An entry as JSON. -/
def toJson (entry : RuntimeEntry) : Json :=
  .obj [("urlPattern", entry.urlPattern.toJson), ("handler", .str entry.handler),
    ("options", entry.options.toJson)]

/-- How an entry is written. -/
def shape : Shape :=
  ⟨"struct RuntimeCachingEntry",
    [⟨"urlPattern", Decode.check UrlPattern.decode⟩,
      ⟨"handler", Decode.check Decode.string⟩,
      ⟨"options", Decode.check RuntimeOptions.decode⟩], true⟩

/-- The entry of given fields. -/
def build (row : Row) : Except DecodeError RuntimeEntry := do
  let urlPattern ← row.required "urlPattern" UrlPattern.decode
  let handler ← row.required "handler" Decode.string
  let options ← row.withDefault "options" RuntimeOptions.decode {}
  return { urlPattern, handler, options }

/-- Read an entry. -/
def decode : Decoder RuntimeEntry := shape.read build

end RuntimeEntry

/-! ## All options -/

/-- The options of a policy. -/
structure Options where
  /-- How many seconds a static asset is kept. -/
  cacheStaticAssetsDuration : UInt64 := 86400
  cacheStaticAssetsExtensions : List String := []
  apiCachePatterns : List String := []
  /-- Strategies by pattern, in the order in which they are tried. -/
  cachingStrategies : List (String × String) := []
  runtimeCaching : List RuntimeEntry := []
  backgroundSync : Option ReplayQueue := none
  cacheNamePrefix : String := "astro"
  precacheFiles : List String := []
  swName : String := "service-worker.js"
  skipWaiting : Bool := true
  clientsClaim : Bool := true
  cleanupOutdatedCaches : Bool := true
  debug : Bool := false
  workboxUrl : String := "https://storage.googleapis.com/workbox-cdn/releases/7.1.0/workbox-sw.js"
  preset : Preset := .auto
  globPatterns : List String := ["**/*.\x7bjs,css,html\x7d"]
  customServiceWorker : Option String := none
  deriving DecidableEq, Repr

instance : Inhabited Options := ⟨{}⟩

namespace Options

/-- Whether an option makes rules of its own. -/
def hasCustomRules (options : Options) : Bool :=
  !options.apiCachePatterns.isEmpty || !options.cachingStrategies.isEmpty ||
    !options.runtimeCaching.isEmpty || options.backgroundSync.isSome

/-- The name of the worker's file up to its first dot. -/
def swStem (options : Options) : String :=
  String.ofList (Text.cut (· == '.') options.swName.toList).1

/-- The members of an object of options, of which those without a value are left
out. -/
def members (options : Options) : List (String × Option Json) :=
  [("cacheStaticAssetsDuration", some (Json.nat options.cacheStaticAssetsDuration.toNat)),
    ("cacheStaticAssetsExtensions", some (Json.strs options.cacheStaticAssetsExtensions)),
    ("apiCachePatterns", some (Json.strs options.apiCachePatterns)),
    ("cachingStrategies",
      some (.obj (options.cachingStrategies.map fun (key, name) => (key, .str name)))),
    ("runtimeCaching", some (.arr (options.runtimeCaching.map (·.toJson)))),
    ("backgroundSync", options.backgroundSync.map BackgroundSync.toJson),
    ("cacheNamePrefix", some (.str options.cacheNamePrefix)),
    ("precacheFiles", some (Json.strs options.precacheFiles)),
    ("swName", some (.str options.swName)),
    ("skipWaiting", some (.bool options.skipWaiting)),
    ("clientsClaim", some (.bool options.clientsClaim)),
    ("cleanupOutdatedCaches", some (.bool options.cleanupOutdatedCaches)),
    ("debug", some (.bool options.debug)),
    ("workboxUrl", some (.str options.workboxUrl)),
    ("preset", some (.str options.preset.name)),
    ("globPatterns", some (Json.strs options.globPatterns)),
    ("customServiceWorker", options.customServiceWorker.map .str)]

/-- Options as JSON. -/
def toJson (options : Options) : Json := .obj (Json.present options.members)

/-- The lowest layer of a configuration: every option that has a value by
default. -/
def builtin : Json :=
  let d : Options := {}
  .obj
    [("cacheStaticAssetsDuration", Json.nat d.cacheStaticAssetsDuration.toNat),
      ("cacheStaticAssetsExtensions", .arr []),
      ("apiCachePatterns", .arr []),
      ("cachingStrategies", .obj []),
      ("runtimeCaching", .arr []),
      ("cacheNamePrefix", .str d.cacheNamePrefix),
      ("precacheFiles", .arr []),
      ("swName", .str d.swName),
      ("skipWaiting", .bool d.skipWaiting),
      ("clientsClaim", .bool d.clientsClaim),
      ("cleanupOutdatedCaches", .bool d.cleanupOutdatedCaches),
      ("debug", .bool d.debug),
      ("workboxUrl", .str d.workboxUrl),
      ("preset", .str "auto"),
      ("globPatterns", Json.strs d.globPatterns)]

/-- How options are written. -/
def shape : Shape :=
  ⟨"struct ServiceWorkerOptions",
    [⟨"cacheStaticAssetsDuration", Decode.check Decode.uint64⟩,
      ⟨"cacheStaticAssetsExtensions", Decode.check (Decode.list Decode.string)⟩,
      ⟨"apiCachePatterns", Decode.check (Decode.list Decode.string)⟩,
      ⟨"cachingStrategies", Decode.check (Decode.map Decode.string)⟩,
      ⟨"runtimeCaching", Decode.check (Decode.list RuntimeEntry.decode)⟩,
      ⟨"backgroundSync", Decode.check (Decode.optional BackgroundSync.decode)⟩,
      ⟨"cacheNamePrefix", Decode.check Decode.string⟩,
      ⟨"precacheFiles", Decode.check (Decode.list Decode.string)⟩,
      ⟨"swName", Decode.check Decode.string⟩,
      ⟨"skipWaiting", Decode.check Decode.bool⟩,
      ⟨"clientsClaim", Decode.check Decode.bool⟩,
      ⟨"cleanupOutdatedCaches", Decode.check Decode.bool⟩,
      ⟨"debug", Decode.check Decode.bool⟩,
      ⟨"workboxUrl", Decode.check Decode.string⟩,
      ⟨"preset", Decode.check (Decode.choice Preset.byName)⟩,
      ⟨"globPatterns", Decode.check (Decode.list Decode.string)⟩,
      ⟨"customServiceWorker", Decode.check (Decode.optional Decode.path)⟩], true⟩

/-- The options of given fields. -/
def build (row : Row) : Except DecodeError Options := do
  let d : Options := {}
  let texts := Decode.list Decode.string
  return {
    cacheStaticAssetsDuration :=
      ← row.withDefault "cacheStaticAssetsDuration" Decode.uint64 d.cacheStaticAssetsDuration
    cacheStaticAssetsExtensions :=
      ← row.withDefault "cacheStaticAssetsExtensions" texts d.cacheStaticAssetsExtensions
    apiCachePatterns := ← row.withDefault "apiCachePatterns" texts d.apiCachePatterns
    cachingStrategies :=
      ← row.withDefault "cachingStrategies" (Decode.map Decode.string) d.cachingStrategies
    runtimeCaching :=
      ← row.withDefault "runtimeCaching" (Decode.list RuntimeEntry.decode) d.runtimeCaching
    backgroundSync :=
      ← row.withDefault "backgroundSync" (Decode.optional BackgroundSync.decode) d.backgroundSync
    cacheNamePrefix := ← row.withDefault "cacheNamePrefix" Decode.string d.cacheNamePrefix
    precacheFiles := ← row.withDefault "precacheFiles" texts d.precacheFiles
    swName := ← row.withDefault "swName" Decode.string d.swName
    skipWaiting := ← row.withDefault "skipWaiting" Decode.bool d.skipWaiting
    clientsClaim := ← row.withDefault "clientsClaim" Decode.bool d.clientsClaim
    cleanupOutdatedCaches :=
      ← row.withDefault "cleanupOutdatedCaches" Decode.bool d.cleanupOutdatedCaches
    debug := ← row.withDefault "debug" Decode.bool d.debug
    workboxUrl := ← row.withDefault "workboxUrl" Decode.string d.workboxUrl
    preset := ← row.withDefault "preset" (Decode.choice Preset.byName) d.preset
    globPatterns := ← row.withDefault "globPatterns" texts d.globPatterns
    customServiceWorker :=
      ← row.withDefault "customServiceWorker" (Decode.optional Decode.path) d.customServiceWorker }

/-- Read options. -/
def decode : Decoder Options := shape.read build

end Options

end CachePolicy
