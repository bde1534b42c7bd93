import CachePolicy.Config.Effective
import CachePolicy.Policy.Compile
import CachePolicy.Site.Assets
import CachePolicy.Site.Custom
import CachePolicy.Site.Routes

/-!
# Building the worker of a site

A build removes the old worker first.  Therefore a build that fails afterwards leaves
no worker, rather than one that does not fit the site any more.
-/

namespace CachePolicy

/-- Why there is no worker. -/
inductive BuildError where
  | config (reason : ConfigError)
  | routes (reason : RouteError)
  | compile (reason : RuleError)
  | assets (reason : AssetError)
  | workerFile (reason : WorkerFileError)
  /-- The old worker is still there. -/
  | staleWorker (path : String) (reason : FileError)

namespace BuildError

/-- The wording of an error. -/
def message : BuildError → String
  | config reason => s!"config: {reason.message}"
  | routes reason => s!"routes: {reason.message}"
  | compile reason => s!"compile: {reason.message}"
  | assets reason => s!"assets: {reason.message}"
  | workerFile reason => s!"inject: {reason.message}"
  | staleWorker path reason => s!"failed to remove stale worker {path}: {reason.message}"

end BuildError

/-- What a build has made. -/
structure BuildReport where
  /-- The file of the worker. -/
  output : Path
  fingerprint : String
  rules : Nat
  /-- How many URLs are stored ahead besides the files found. -/
  precached : Nat
  /-- How many files found are stored ahead. -/
  hashedAssets : Nat
  bytes : Nat
  warnings : List String
  deriving DecidableEq, Repr

namespace BuildReport

/-- A report as JSON. -/
def toJson (report : BuildReport) : Json :=
  .obj [("output", .str report.output.text), ("fingerprint", .str report.fingerprint),
    ("rules", Json.nat report.rules), ("precached", Json.nat report.precached),
    ("hashed_assets", Json.nat report.hashedAssets), ("bytes", Json.nat report.bytes),
    ("warnings", Json.strs report.warnings)]

end BuildReport

namespace Site

variable {m : Type → Type} [Monad m] [FileStore m]

/-- A step of a build. -/
def step {ε α : Type} (cause : ε → BuildError) (outcome : m (Except ε α)) :
    ExceptT BuildError m α :=
  ExceptT.mk ((Except.mapError cause) <$> outcome)

/-- The file of the worker of a site. -/
def workerPath (dir : Path) (swName : String) : Path := dir.join (Path.read swName)

/-- The pages of a site: those given, or else those among its files. -/
def pathnames (dir : Path) : Option (List String) → m (Except RouteError (List String))
  | some pathnames => return .ok pathnames
  | none => Routes.enumerate dir

/-- Make the worker of a site. -/
def build (dir : Path) (options : Options) (routes : Option (List String)) :
    m (Except BuildError BuildReport) := ExceptT.run do
  let output := workerPath dir options.swName
  step (.staleWorker output.text) (FileStore.removeIfThere output)
  let pathnames ← step .routes (pathnames dir routes)
  let compilation ← step .compile (pure (options.compile pathnames))
  let explicit := compilation.ruleSet.precache
  let assets ← step .assets
    (AssetManifest.scan dir options.globPatterns options.swName explicit)
  let program ← step .assets (pure (assets.substitute compilation.program))
  let text ← step .workerFile
    (WorkerFile.write program output (options.customServiceWorker.map Path.read))
  return {
    output
    fingerprint := compilation.fingerprint
    rules := compilation.ruleSet.rules.length
    precached := explicit.entries.length
    hashedAssets := assets.entries.length
    bytes := text.utf8ByteSize
    warnings := compilation.conflicts.map (·.message) }

end Site

end CachePolicy
