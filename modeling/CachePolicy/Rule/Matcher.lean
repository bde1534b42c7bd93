import CachePolicy.Pattern.Reader
import CachePolicy.Pattern.Search
import CachePolicy.Rule.Request

/-!
# Matchers

A matcher is the condition under which a rule takes a request.  It is plain data,
so that it can be written into a program as JSON and be evaluated there.

`Matcher.compile` checks that a matcher can be used and reads its pattern.  A
rule sees only `GET` requests unless its matcher names a method.
-/

namespace CachePolicy

/-- The part of a URL that a pattern is searched in. -/
inductive PatternTarget where
  | url
  | path
  deriving DecidableEq, Repr, Inhabited

namespace PatternTarget

/-- The name of a target. -/
def name : PatternTarget → String
  | url => "url"
  | path => "path"

/-- Targets by name. -/
def byName : List (String × PatternTarget) := [url, path].map fun target => (target.name, target)

end PatternTarget

/-- A condition on requests. -/
inductive Matcher where
  /-- The destination is one of those listed. -/
  | destination (destinations : List Destination)
  /-- The path starts with a text. -/
  | pathPrefix (start : String)
  | method (name : String)
  /-- The URL ends with one of the texts. -/
  | extensions (ends : List String)
  /-- A part of the URL has a match of a pattern. -/
  | pattern (source : String) (target : PatternTarget)
  deriving DecidableEq, Repr

namespace Matcher

/-- A matcher for a method in any letter case. -/
def ofMethod (method : String) : Matcher := .method (Text.upper method)

/-- The method of the requests that a rule with the matcher sees. -/
def routeMethod : Matcher → String
  | .method name => name
  | _ => "GET"

/-- A condition in short words. -/
def describe : Matcher → String
  | .destination names =>
    "destination in [" ++ ", ".intercalate (names.map (·.name)) ++ "]"
  | .pathPrefix start => "path starts with " ++ start
  | .method name => "method == " ++ name
  | .extensions ends => "url ends with one of [" ++ ", ".intercalate ends ++ "]"
  | .pattern source .url => s!"url =~ /{source}/"
  | .pattern source .path => s!"path =~ /{source}/"

/-! ## JSON -/

/-- The kind of a matcher, which its JSON gives as `type`. -/
inductive Kind where
  | destination
  | pathPrefix
  | method
  | extensions
  | pattern
  deriving DecidableEq, Repr

/-- All kinds, in the order in which messages list them. -/
def Kind.all : List Kind := [destination, pathPrefix, method, extensions, pattern]

/-- The name of a kind. -/
def Kind.name : Kind → String
  | destination => "destination"
  | pathPrefix => "path_prefix"
  | method => "method"
  | extensions => "extensions"
  | pattern => "pattern"

/-- Kinds by name. -/
def Kind.byName : List (String × Kind) := Kind.all.map fun kind => (kind.name, kind)

/-- A matcher as JSON. -/
def toJson : Matcher → Json
  | .destination destinations =>
    .obj [("type", .str "destination"), ("destinations", .arr (destinations.map (·.toJson)))]
  | .pathPrefix start => .obj [("type", .str "path_prefix"), ("prefix", .str start)]
  | .method name => .obj [("type", .str "method"), ("method", .str name)]
  | .extensions ends => .obj [("type", .str "extensions"), ("extensions", Json.strs ends)]
  | .pattern source target =>
    .obj [("type", .str "pattern"), ("pattern", .str source), ("target", .str target.name)]

namespace Kind

/-- Read the destinations of a matcher. -/
def decodeDestinations : Decoder (List Destination) :=
  Decode.list (Decode.taggedChoice Destination.byName)

/-- Read the target of a pattern. -/
def decodeTarget : Decoder PatternTarget := Decode.taggedChoice PatternTarget.byName

/-- How a matcher of a kind is written, its kind apart. -/
def shape : Kind → Shape
  | destination =>
    ⟨"struct variant Matcher::Destination",
      [⟨"destinations", Decode.check decodeDestinations⟩], false⟩
  | pathPrefix =>
    ⟨"struct variant Matcher::PathPrefix", [⟨"prefix", Decode.check Decode.string⟩], false⟩
  | method => ⟨"struct variant Matcher::Method", [⟨"method", Decode.check Decode.string⟩], false⟩
  | extensions =>
    ⟨"struct variant Matcher::Extensions",
      [⟨"extensions", Decode.check (Decode.list Decode.string)⟩], false⟩
  | pattern =>
    ⟨"struct variant Matcher::Pattern",
      [⟨"pattern", Decode.check Decode.string⟩, ⟨"target", Decode.check decodeTarget⟩], false⟩

/-- The matcher of a kind with given fields. -/
def build (kind : Kind) (row : Row) : Except DecodeError Matcher :=
  match kind with
  | destination => return .destination (← row.required "destinations" decodeDestinations)
  | pathPrefix => return .pathPrefix (← row.required "prefix" Decode.string)
  | method => return .method (← row.required "method" Decode.string)
  | extensions => return .extensions (← row.required "extensions" (Decode.list Decode.string))
  | pattern => do
    let source ← row.required "pattern" Decode.string
    let target ← row.withDefault "target" decodeTarget .url
    return .pattern source target

/-- Read a kind. -/
def decode : Decoder Kind
  | .str name => Decode.named byName name
  | value => .error (.wrongType value "variant identifier")

/-- How many items a list for a kind has, in words. -/
def itemCount (kind : Kind) : String :=
  match kind.shape.fields.length with
  | 1 => "1 element in sequence"
  | n => s!"{n} elements in sequence"

end Kind

/-- Read a matcher whose kind is read by `kind`: an object with a member `type`,
or a list that begins with the kind. -/
def decodeWith (kind : Decoder Kind) : Decoder Matcher
  | .obj fields =>
    match fields.lookup "type" with
    | some tag => do
      let kind ← kind tag
      kind.shape.readFields kind.build (fields.filter (·.1 != "type"))
    | none => .error (.missingField "type")
  | .arr (tag :: items) => do
    let kind ← kind tag
    kind.shape.readItems (.wrongLength · kind.itemCount) kind.build items
  | .arr [] => .error (.missingField "type")
  | value => .error (.wrongType value "internally tagged enum Matcher")

/-- Read a matcher. -/
def decode : Decoder Matcher := decodeWith Kind.decode

/-- Read a matcher whose kind may be given by its place in the list of kinds. -/
def decodeNumbered : Decoder Matcher := decodeWith fun
  | .num (.int n) =>
    match Kind.all[n.toNat]? with
    | some kind =>
      if 0 ≤ n then .ok kind else .error (.wrongType (.num (.int n)) "variant identifier")
    | none => .error (.wrongValue (.num (.int n)) "variant index 0 <= i < 5")
  | value => Kind.decode value

end Matcher

/-- A matcher that can be used, with its pattern read. -/
structure CompiledMatcher where
  matcher : Matcher
  pattern : Option Pattern.Node

namespace CompiledMatcher

/-- Whether a request meets the condition, apart from the method of its rule. -/
def accepts (compiled : CompiledMatcher) (request : Request) : Bool :=
  match compiled.matcher with
  | .destination destinations => destinations.contains request.destination
  | .pathPrefix start => start.toList.isPrefixOf request.pathname.toList
  | .method name => request.method == name
  | .extensions ends => ends.any fun ending => ending.toList.isSuffixOf request.href.toList
  | .pattern _ target =>
    match compiled.pattern with
    | none => false
    | some node =>
      let text :=
        match target with
        | .url => request.href
        | .path => request.pathname
      node.found text.toList.toArray

end CompiledMatcher

/-- Check that a matcher can be used and read its pattern. -/
def Matcher.compile (matcher : Matcher) : Except RuleError CompiledMatcher :=
  match matcher with
  | .pattern source _ =>
    match Pattern.read source with
    | some node => .ok ⟨matcher, some node⟩
    | none => .error (.invalidPattern source)
  | .pathPrefix start =>
    if start.isEmpty then .error (.emptyMatcher "path_prefix") else .ok ⟨matcher, none⟩
  | .method name =>
    if name.isEmpty then .error (.emptyMatcher "method") else .ok ⟨matcher, none⟩
  | .destination _ | .extensions _ => .ok ⟨matcher, none⟩

/-- Compiling a matcher keeps it. -/
theorem Matcher.matcher_of_compile {matcher : Matcher} {compiled : CompiledMatcher}
    (h : matcher.compile = .ok compiled) : compiled.matcher = matcher := by
  unfold Matcher.compile at h
  repeat' split at h
  all_goals first
    | (cases h; rfl)
    | cases h

end CachePolicy
