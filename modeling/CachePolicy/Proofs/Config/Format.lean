import CachePolicy.Config.Options
import CachePolicy.Proofs.Rule.Format

/-!
# The format of options

What options are written as is read back as the same options, like the rule sets that are made of
them.  A pattern is written in one of two forms, and a text is never taken for the other: a matcher
is always an object.
-/

namespace CachePolicy

open Decode (Reads)

theorem Preset.reads : Reads (Decode.choice Preset.byName) fun preset => .str preset.name :=
  Decode.reads_choiceWhere fun preset => by cases preset <;> decide

theorem UrlPattern.reads : Reads UrlPattern.decode UrlPattern.toJson where
  read pattern := by
    cases pattern with
    | regex source => rfl
    | matching matcher =>
        have read := Matcher.reads_numbered.read matcher
        rw [toJson]
        -- A matcher is written as an object, so the form for texts is passed over.
        cases matcher <;>
        · rw [Matcher.toJson] at read ⊢
          rw [decode, read]
          intro text isText
          cases isText
  ne_null pattern := by
    cases pattern with
    | regex source =>
        intro isNull
        cases isNull
    | matching matcher => exact Matcher.reads.ne_null matcher

theorem BackgroundSync.reads_retention : Reads BackgroundSync.decodeRetention fun minutes =>
    .obj [("maxRetentionTime", Json.nat minutes.toNat)] where
  read minutes := by
    have fits : List.Forall₂ Field.Fits retentionShape.fields _ :=
      .cons (.required Decode.reads_uint64 minutes) .nil
    rw [decodeRetention, Shape.read]
    refine (Shape.readFields_present (by decide) fits).trans ?_
    exact Row.withDefault_eq Decode.reads_uint64 rfl
  ne_null _ := nofun

theorem BackgroundSync.reads : Reads BackgroundSync.decode BackgroundSync.toJson where
  read queue := by
    have fits : List.Forall₂ Field.Fits shape.fields _ :=
      .cons (.required Decode.reads_string queue.name) <|
        .cons (.required reads_retention queue.maxRetentionMinutes) .nil
    refine (Shape.readFields_present (by decide) fits).trans ?_
    rw [build, Row.required_eq Decode.reads_string rfl, Row.withDefault_eq reads_retention rfl]
    rfl
  ne_null _ := nofun

theorem RuntimeOptions.reads : Reads RuntimeOptions.decode RuntimeOptions.toJson where
  read options := by
    have fits : List.Forall₂ Field.Fits shape.fields _ :=
      .cons (.optional Decode.reads_string options.cacheName) <|
        .cons (.optional Expiration.reads options.expiration) <|
        .cons (.optional Decode.reads_uint64 options.networkTimeoutSeconds) <|
        .cons (.optional BackgroundSync.reads options.backgroundSync) .nil
    refine (Shape.readFields_present (by decide) fits).trans ?_
    rw [build, Row.optional_eq Decode.reads_string rfl, Row.optional_eq Expiration.reads rfl,
      Row.optional_eq Decode.reads_uint64 rfl, Row.optional_eq BackgroundSync.reads rfl]
    rfl
  ne_null _ := nofun

theorem RuntimeEntry.reads : Reads RuntimeEntry.decode RuntimeEntry.toJson where
  read entry := by
    have fits : List.Forall₂ Field.Fits shape.fields _ :=
      .cons (.required UrlPattern.reads entry.urlPattern) <|
        .cons (.required Decode.reads_string entry.handler) <|
        .cons (.required RuntimeOptions.reads entry.options) .nil
    refine (Shape.readFields_present (by decide) fits).trans ?_
    rw [build, Row.required_eq UrlPattern.reads rfl, Row.required_eq Decode.reads_string rfl,
      Row.withDefault_eq RuntimeOptions.reads rfl]
    rfl
  ne_null _ := nofun

namespace Options

/-- Every option fits its field. -/
theorem fits_members (options : Options) :
    List.Forall₂ Field.Fits shape.fields options.members :=
  .cons (.required Decode.reads_uint64 options.cacheStaticAssetsDuration) <|
    .cons (.required Decode.reads_strs options.cacheStaticAssetsExtensions) <|
    .cons (.required Decode.reads_strs options.apiCachePatterns) <|
    .cons (.required Decode.reads_string.map options.cachingStrategies) <|
    .cons (.required RuntimeEntry.reads.list options.runtimeCaching) <|
    .cons (.optional BackgroundSync.reads options.backgroundSync) <|
    .cons (.required Decode.reads_string options.cacheNamePrefix) <|
    .cons (.required Decode.reads_strs options.precacheFiles) <|
    .cons (.required Decode.reads_string options.swName) <|
    .cons (.required Decode.reads_bool options.skipWaiting) <|
    .cons (.required Decode.reads_bool options.clientsClaim) <|
    .cons (.required Decode.reads_bool options.cleanupOutdatedCaches) <|
    .cons (.required Decode.reads_bool options.debug) <|
    .cons (.required Decode.reads_string options.workboxUrl) <|
    .cons (.required Preset.reads options.preset) <|
    .cons (.required Decode.reads_strs options.globPatterns) <|
    .cons (.optional Decode.reads_path options.customServiceWorker) .nil

theorem reads : Reads decode toJson where
  read options := by
    refine (Shape.readFields_present (by decide) options.fits_members).trans ?_
    rw [build, Row.withDefault_eq Decode.reads_uint64 rfl, Row.withDefault_eq Decode.reads_strs rfl,
      Row.withDefault_eq Decode.reads_strs rfl, Row.withDefault_eq Decode.reads_string.map rfl,
      Row.withDefault_eq RuntimeEntry.reads.list rfl, Row.optional_eq BackgroundSync.reads rfl,
      Row.withDefault_eq Decode.reads_string rfl, Row.withDefault_eq Decode.reads_strs rfl,
      Row.withDefault_eq Decode.reads_string rfl, Row.withDefault_eq Decode.reads_bool rfl,
      Row.withDefault_eq Decode.reads_bool rfl, Row.withDefault_eq Decode.reads_bool rfl,
      Row.withDefault_eq Decode.reads_bool rfl, Row.withDefault_eq Decode.reads_string rfl,
      Row.withDefault_eq Preset.reads rfl, Row.withDefault_eq Decode.reads_strs rfl,
      Row.optional_eq Decode.reads_path rfl]
    rfl
  ne_null _ := nofun

end Options

/-- Every rule set and all options are read back as they were from what is written for them: rules
and strategies in their order, counts up to the largest, and what is absent as absent. -/
theorem formats_read_back :
    (∀ ruleSet : RuleSet, RuleSet.decode ruleSet.toJson = .ok ruleSet) ∧
      ∀ options : Options, Options.decode options.toJson = .ok options :=
  ⟨RuleSet.reads.read, Options.reads.read⟩

end CachePolicy
