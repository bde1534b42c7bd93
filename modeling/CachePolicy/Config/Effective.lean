import CachePolicy.Config.Merge
import CachePolicy.Config.Options
import CachePolicy.Digest.Sha256
import CachePolicy.Files.Store
import CachePolicy.Toml.Reader

/-!
# The configuration in effect

A configuration has up to three layers: what holds by default, a file, and what was
given by hand.  The layers are merged first and read as options afterwards, so a
fault is one of the whole and not of a layer.

Every layer is recorded with its source.  A file that is not there makes no layer,
while one that cannot be read, or is no document, is an error.
-/

namespace CachePolicy

/-- Where a layer comes from. -/
inductive ConfigOrigin where
  | builtin
  | file
  | cli
  deriving DecidableEq, Repr

/-- The name of an origin. -/
def ConfigOrigin.name : ConfigOrigin → String
  | .builtin => "builtin"
  | .file => "file"
  | .cli => "cli"

/-- A layer's source; a file has its path and the digest of its bytes. -/
structure ConfigSource where
  origin : ConfigOrigin
  file : Option (String × String) := none
  deriving DecidableEq, Repr

/-- A source as JSON. -/
def ConfigSource.toJson (source : ConfigSource) : Json :=
  .obj (Json.present [("origin", some (.str source.origin.name)),
    ("path", source.file.map (.str ·.1)), ("digest", source.file.map (.str ·.2))])

/-- Why there is no configuration. -/
inductive ConfigError where
  /-- There is no file at a path that was asked for. -/
  | missing (path : String)
  | unreadable (path : String) (reason : FileError)
  | notUtf8 (fault : Utf8.Fault)
  | notToml
  | notOptions (reason : DecodeError)
  | emptyCacheNamePrefix
  | swNameNotPlain (swName : String)
  | emptySyncName
  | emptyWorkboxUrl

namespace ConfigError

/-- The wording of an error. -/
def message : ConfigError → String
  | missing path => s!"IO error: {path}: file not found"
  | unreadable path reason => s!"IO error: {path}: {reason.message}"
  | notUtf8 fault => s!"Parse error: Invalid UTF-8: {fault.message}"
  | notToml => "Parse error: TOML parse error"
  | notOptions reason => s!"Parse error: invalid options: {reason.message}"
  | emptyCacheNamePrefix => "Validation error: cacheNamePrefix must not be empty"
  | swNameNotPlain swName =>
    s!"Validation error: swName must be a plain file name, got '{swName}'"
  | emptySyncName => "Validation error: backgroundSync.name must not be empty"
  | emptyWorkboxUrl => "Validation error: workboxUrl must not be empty"

end ConfigError

/-- Whether a text can name a file, as far as separators go. -/
def isPlainName (name : String) : Bool :=
  !name.isEmpty && name.toList.all fun c => c != '/' && c != '\\'

/-- Options that may take effect. -/
def Options.check (options : Options) : Except ConfigError Options :=
  if options.cacheNamePrefix.isEmpty then .error .emptyCacheNamePrefix
  else if !isPlainName options.swName then .error (.swNameNotPlain options.swName)
  else if options.backgroundSync.any (·.name.isEmpty) then .error .emptySyncName
  else if options.workboxUrl.isEmpty then .error .emptyWorkboxUrl
  else .ok options

/-- A configuration in effect. -/
structure EffectiveConfig where
  /-- The merged layers. -/
  config : Json
  /-- The sources of the layers, from the lowest on. -/
  sources : List ConfigSource
  /-- The merged layers, read. -/
  options : Options

namespace EffectiveConfig

/-- The version of the form in which a configuration is written. -/
def schemaVersion : Nat := 1

/-- The name of that form. -/
def schemaId : String := "swpolicy/effective_config@1"

/-- The file that is read if no other is asked for. -/
def defaultFile : Path := ⟨["swpolicy.toml"]⟩

/-- The configuration of layers over the built-in one. -/
def ofLayers (layers : List (ConfigSource × Json)) : Except ConfigError EffectiveConfig := do
  let layers := (⟨.builtin, none⟩, Options.builtin) :: layers
  let config := Layers.merge (layers.map (·.2))
  let options ← (Options.decode config).mapError .notOptions
  let options ← options.check
  .ok { config, sources := layers.map (·.1), options }

/-- The layer that the bytes of a file write. -/
def fileLayer (path : String) (content : Bytes) : Except ConfigError (ConfigSource × Json) :=
  match Utf8.fault? content with
  | some fault => .error (.notUtf8 fault)
  | none =>
    match Toml.read (Utf8.lossy content) with
    | some value => .ok (⟨.file, some (path, Sha256.hex content)⟩, value)
    | none => .error .notToml

/-- The layer of what was given by hand. -/
def cliLayer (overrides : Json) : ConfigSource × Json := (⟨.cli, none⟩, overrides)

variable {m : Type → Type} [Monad m] [FileStore m]

/-- The layer of a file, if the file is there. -/
def readLayer (path : Path) : m (Except ConfigError (List (ConfigSource × Json))) := do
  if (← FileStore.look path).isNone then return .ok []
  match ← FileStore.read path with
  | .error reason => return .error (.unreadable path.text reason)
  | .ok content => return (fileLayer path.text content).map ([·])

/-- The configuration of a file and of what was given by hand. -/
def load (path : Option Path) (overrides : Option Json) :
    m (Except ConfigError EffectiveConfig) := do
  let file ←
    match path with
    | some path => readLayer path
    | none => pure (.ok [])
  return file.bind fun layers => ofLayers (layers ++ (overrides.map cliLayer).toList)

end EffectiveConfig

namespace EffectiveConfig

/-- The value at the end of keys with dots between them. -/
def get? (effective : EffectiveConfig) (keys : String) : Option Json :=
  effective.config.at? ((Text.split (· == '.') keys.toList).map String.ofList)

/-- A configuration as JSON, with the time at which it was made. -/
def toJson (createdAt : String) (effective : EffectiveConfig) : Json :=
  .obj [("schema_version", Json.nat schemaVersion), ("schema_id", .str schemaId),
    ("created_at", .str createdAt), ("config", effective.config),
    ("sources", .arr (effective.sources.map (·.toJson)))]

end EffectiveConfig

end CachePolicy
