import CachePolicy.Config.Options

/-!
# The recommended rules

Five rules for the resources that most sites have: scripts and styles, an API,
images, other assets, and forms that are sent while there is no network.  Only the
name of the queue depends on the options.
-/

namespace CachePolicy.Preset

/-- The seconds of a day. -/
def day : UInt64 := 86400

/-- An entry for a matcher. -/
def entry (matcher : Matcher) (strategy : Strategy) (options : RuntimeOptions) : RuntimeEntry :=
  ⟨.matching matcher, strategy.name, options⟩

/-- The recommended entries. -/
def recommendedEntries (cacheNamePrefix : String) : List RuntimeEntry :=
  [entry (.destination [.style, .script, .worker]) .staleWhileRevalidate
      { cacheName := some "static-resources", expiration := some ⟨none, some day⟩ },
    entry (.pathPrefix "/api/") .networkFirst
      { cacheName := some "api-cache", expiration := some ⟨some 50, some 300⟩,
        networkTimeoutSeconds := some 10 },
    entry (.destination [.image]) .cacheFirst
      { cacheName := some "images", expiration := some ⟨some 60, some (30 * day)⟩ },
    entry (.pathPrefix "/assets/") .cacheFirst
      { cacheName := some "asset-cache", expiration := some ⟨some 100, some (30 * day)⟩ },
    entry (.ofMethod "POST") .networkOnly
      { backgroundSync := some ⟨s!"{cacheNamePrefix}-sync-queue", 1440⟩ }]

@[simp] theorem length_recommendedEntries (cacheNamePrefix : String) :
    (recommendedEntries cacheNamePrefix).length = 5 := rfl

end CachePolicy.Preset
