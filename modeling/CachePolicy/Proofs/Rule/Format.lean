import CachePolicy.Proofs.Json.Record
import CachePolicy.Proofs.Rule.Matcher
import CachePolicy.Rule.Set

/-!
# The format of rule sets

What a rule set is written as is read back as the same rule set.  Each part has its own law, made
of the laws for its fields: a field that is absent is not written, and one that is written is never
null, except for the revision of an entry that is stored ahead.
-/

namespace CachePolicy

open Decode (Reads)

/-! ## Names -/

theorem Destination.reads : Reads (Decode.taggedChoice Destination.byName) Destination.toJson :=
  Decode.reads_choiceWhere lookup_name

theorem Destination.reads_list :
    Reads Matcher.Kind.decodeDestinations fun destinations =>
      .arr (destinations.map Destination.toJson) :=
  reads.list

theorem PatternTarget.reads :
    Reads Matcher.Kind.decodeTarget fun target => .str target.name :=
  Decode.reads_choiceWhere fun target => by cases target <;> decide

theorem Strategy.reads : Reads Strategy.decode Strategy.toJson :=
  Decode.reads_choiceWhere named?_name

theorem RuleOrigin.reads : Reads RuleOrigin.decode fun origin => .str origin.name :=
  Decode.reads_choiceWhere fun origin => by cases origin <;> decide

/-! ## Bounds and queues -/

theorem Expiration.reads : Reads Expiration.decode Expiration.toJson where
  read bounds := by
    have fits : List.Forall₂ Field.Fits shape.fields _ :=
      .cons (.optional Decode.reads_uint32 bounds.maxEntries) <|
        .cons (.optional Decode.reads_uint64 bounds.maxAgeSeconds) .nil
    refine (Shape.readFields_present (by decide) fits).trans ?_
    rw [build, Row.optional_eq Decode.reads_uint32 rfl, Row.optional_eq Decode.reads_uint64 rfl]
    rfl
  ne_null _ := nofun

theorem ReplayQueue.reads : Reads ReplayQueue.decode ReplayQueue.toJson where
  read queue := by
    have fits : List.Forall₂ Field.Fits shape.fields _ :=
      .cons (.required Decode.reads_string queue.name) <|
        .cons (.required Decode.reads_uint64 queue.maxRetentionMinutes) .nil
    refine (Shape.readFields_present (by decide) fits).trans ?_
    rw [build, Row.required_eq Decode.reads_string rfl, Row.required_eq Decode.reads_uint64 rfl]
    rfl
  ne_null _ := nofun

/-! ## Matchers -/

namespace Matcher

variable {decodeKind : Decoder Kind}

theorem Kind.decode_name (kind : Kind) : Kind.decode (.str kind.name) = .ok kind := by
  cases kind <;> rfl

/-- An object that names a kind is read as the kind has it, from its other members. -/
theorem decodeWith_obj (known : ∀ kind : Kind, decodeKind (.str kind.name) = .ok kind) (kind : Kind)
    {members : List (String × Option Json)} (distinct : kind.shape.keys.Nodup)
    (untagged : "type" ∉ kind.shape.keys)
    (fits : List.Forall₂ Field.Fits kind.shape.fields members) :
    decodeWith decodeKind (.obj (("type", .str kind.name) :: Json.present members)) =
      kind.build (.ofMembers members) := by
  have others : (("type", .str kind.name) :: Json.present members).filter (·.1 != "type") =
      Json.present members := by
    rw [List.filter_cons_of_neg (by simp)]
    refine List.filter_eq_self.mpr fun member written => bne_iff_ne.mpr ?_
    intro tag
    apply untagged
    rw [Shape.keys, Field.Fits.keys_eq fits, ← tag]
    exact List.mem_map_of_mem (f := (·.1)) (Json.mem_present.mp written)
  rw [decodeWith, List.lookup_cons_self]
  simp only [known, others]
  exact Shape.readFields_present distinct fits

theorem reads_decodeWith (known : ∀ kind : Kind, decodeKind (.str kind.name) = .ok kind) :
    Reads (decodeWith decodeKind) toJson where
  read matcher := by
    cases matcher with
    | destination destinations =>
        refine (decodeWith_obj known .destination (by decide) (by decide)
          (.cons (.required Destination.reads_list destinations) .nil)).trans ?_
        rw [Kind.build, Row.required_eq Destination.reads_list rfl]
        rfl
    | pathPrefix start =>
        refine (decodeWith_obj known .pathPrefix (by decide) (by decide)
          (.cons (.required Decode.reads_string start) .nil)).trans ?_
        rw [Kind.build, Row.required_eq Decode.reads_string rfl]
        rfl
    | method name =>
        refine (decodeWith_obj known .method (by decide) (by decide)
          (.cons (.required Decode.reads_string name) .nil)).trans ?_
        rw [Kind.build, Row.required_eq Decode.reads_string rfl]
        rfl
    | extensions ends =>
        refine (decodeWith_obj known .extensions (by decide) (by decide)
          (.cons (.required Decode.reads_strs ends) .nil)).trans ?_
        rw [Kind.build, Row.required_eq Decode.reads_strs rfl]
        rfl
    | pattern source target =>
        refine (decodeWith_obj known .pattern (by decide) (by decide)
          (.cons (.required Decode.reads_string source) <|
            .cons (.required PatternTarget.reads target) .nil)).trans ?_
        rw [Kind.build, Row.required_eq Decode.reads_string rfl,
          Row.withDefault_eq PatternTarget.reads rfl]
        rfl
  ne_null matcher := by cases matcher <;> nofun

theorem reads : Reads decode toJson := reads_decodeWith Kind.decode_name

theorem reads_numbered : Reads decodeNumbered toJson := reads_decodeWith Kind.decode_name

end Matcher

/-! ## Rules -/

theorem CachingRule.reads : Reads CachingRule.decode CachingRule.toJson where
  read rule := by
    have fits : List.Forall₂ Field.Fits shape.fields _ :=
      .cons (.required RuleOrigin.reads rule.origin) <|
        .cons (.required Matcher.reads rule.matcher) <|
        .cons (.required Strategy.reads rule.strategy) <|
        .cons (.optional Decode.reads_string rule.cacheName) <|
        .cons (.optional Expiration.reads rule.expiration) <|
        .cons (.optional Decode.reads_uint64 rule.networkTimeoutSeconds) <|
        .cons (.optional ReplayQueue.reads rule.replayQueue) .nil
    refine (Shape.readFields_present (by decide) fits).trans ?_
    rw [build, Row.required_eq RuleOrigin.reads rfl, Row.required_eq Matcher.reads rfl,
      Row.required_eq Strategy.reads rfl, Row.optional_eq Decode.reads_string rfl,
      Row.optional_eq Expiration.reads rfl, Row.optional_eq Decode.reads_uint64 rfl,
      Row.optional_eq ReplayQueue.reads rfl]
    rfl
  ne_null _ := nofun

/-! ## What is stored ahead -/

theorem PrecacheEntry.reads : Reads PrecacheEntry.decode PrecacheEntry.toJson where
  read entry := by
    obtain ⟨url, revision⟩ := entry
    cases revision with
    | none => rfl
    | some revision => rfl
  ne_null _ := nofun

theorem PrecacheManifest.reads : Reads PrecacheManifest.decode PrecacheManifest.toJson where
  read manifest := by
    rw [decode, toJson, PrecacheEntry.reads.list.read]
    rfl
  ne_null _ := nofun

/-! ## Rule sets -/

theorem Lifecycle.reads : Reads Lifecycle.decode Lifecycle.toJson where
  read _ := rfl
  ne_null _ := nofun

theorem RuleSet.reads : Reads RuleSet.decode RuleSet.toJson where
  read ruleSet := by
    have fits : List.Forall₂ Field.Fits shape.fields _ :=
      .cons (.required Lifecycle.reads ruleSet.lifecycle) <|
        .cons (.required Decode.reads_bool ruleSet.includeBuildManifest) <|
        .cons (.required PrecacheManifest.reads ruleSet.precache) <|
        .cons (.required CachingRule.reads.list ruleSet.rules) .nil
    refine (Shape.readFields_present (by decide) fits).trans ?_
    rw [build, Row.required_eq Lifecycle.reads rfl, Row.required_eq Decode.reads_bool rfl,
      Row.required_eq PrecacheManifest.reads rfl, Row.required_eq CachingRule.reads.list rfl]
    rfl
  ne_null _ := nofun

end CachePolicy
