import CachePolicy.Cli.Arguments
import CachePolicy.Policy.Explain
import CachePolicy.Site.Build
import CachePolicy.Site.Development
import CachePolicy.Site.Registration

/-!
# Running a command

A command ends with an exit code and with what it prints.  A build that fails is no
failure of the command unless that is asked for, so that a site can be built without
a worker.
-/

namespace CachePolicy.Cli

/-- Names are printed as they are shown. -/
instance : CoeOut (List FileName) (List String) := ⟨FileName.shown⟩

/-- How a command ends. -/
structure Outcome where
  code : UInt32
  stdout : String
  stderr : String
  deriving DecidableEq, Repr

namespace Outcome

/-- A command that did what it was asked for. -/
def success (stdout : String) : Outcome := ⟨0, stdout, ""⟩

/-- A command that failed, with the line that says why. -/
def failure (line : String) : Outcome := ⟨1, "", line ++ "\n"⟩

/-- Lines to print. -/
def lines (texts : List String) : String := String.join (texts.map (· ++ "\n"))

/-- The outcome of arguments that name no command. -/
def ofInterruption : Interruption → Outcome
  | .version => success "swpolicy 0.1.0\n"
  | .help => success ""
  | .mistake => ⟨2, "", ""⟩

end Outcome

namespace Command

/-- The layer of options that a command gives. -/
def overrides (command : Command) : Option Json :=
  let text (key long : String) := (key, (command.value? long).map Json.str)
  let fields := Json.present
    [text "cacheNamePrefix" "cache-name-prefix", text "preset" "preset", text "swName" "sw-name",
      ("debug", if command.has "debug" then some (.bool true) else none),
      text "customServiceWorker" "custom-worker"]
  if fields.isEmpty then none else some (.obj fields)

variable {m : Type → Type} [Monad m] [FileStore m]

/-- The configuration of a command.  A file that was asked for has to be there. -/
def config (command : Command) : m (Except ConfigError EffectiveConfig) := do
  match command.path? "config" with
  | none => EffectiveConfig.load (some EffectiveConfig.defaultFile) command.overrides
  | some path =>
    if (← FileStore.look path).isNone then return .error (.missing path.text)
    EffectiveConfig.load (some path) command.overrides

/-- The pages of a command, if it names a file that lists them. -/
def routes (command : Command) : m (Except RouteError (Option (List String))) := do
  match command.path? "routes" with
  | none => return .ok none
  | some path => return (← Routes.load path).map some

/-! ## Building -/

/-- What is printed about a build. -/
def reportLines (report : BuildReport) : List String :=
  [s!"Generated {report.output.text}", s!"  Rules: {report.rules}",
    s!"  Precached routes/files: {report.precached}", s!"  Hashed assets: {report.hashedAssets}",
    s!"  Fingerprint: {report.fingerprint}"] ++ report.warnings.map fun warning =>
      s!"  Warning: {warning}"

/-- Make the worker of a site as a command asks for. -/
def buildSite (command : Command) : m (Except BuildError BuildReport) := ExceptT.run do
  let effective ← Site.step .config command.config
  let routes ← Site.step .routes command.routes
  let dir := (command.path? "out-dir").getD default
  ExceptT.mk (Site.build dir effective.options routes)

/-- Run the command that builds a site's worker. -/
def runBuild (command : Command) : m Outcome := do
  match ← command.buildSite with
  | .error _ => return ⟨if command.has "strict" then 1 else 0, "", ""⟩
  | .ok report =>
    if command.has "json" then return .success (report.toJson.pretty ++ "\n")
    return .success (Outcome.lines (reportLines report))

/-- Run the command that writes the worker for development. -/
def runDev (command : Command) : m Outcome := do
  let name := Development.workerName (← command.config) (command.value? "sw-name")
  match ← Development.write ((command.path? "public-dir").getD default) name with
  | .ok path => return .success s!"Created noop service worker at {path.text}\n"
  | .error e => return .failure s!"Error writing development worker: {e.message}"

/-! ## Showing -/

/-- Go on with the configuration, if there is one. -/
def withConfig (command : Command) (next : EffectiveConfig → m Outcome) : m Outcome := do
  match ← command.config with
  | .ok effective => next effective
  | .error e => return .failure s!"Error loading config: {e.message}"

/-- Go on with the pages, of which there are none unless a file lists them. -/
def withRoutes (command : Command) (next : List String → m Outcome) : m Outcome := do
  match ← command.routes with
  | .ok routes => next (routes.getD [])
  | .error e => return .failure s!"Error loading routes: {e.summary}"

/-- Run the command that prints the program. -/
def runCompile (command : Command) : m Outcome :=
  command.withConfig fun effective => command.withRoutes fun routes =>
    match effective.options.compile routes with
    | .ok compilation => return .success compilation.program
    | .error e => return .failure s!"Compile error: {e.message}"

/-- The outcome of explaining a request by a rule set. -/
def explained (command : Command) (ruleSet : RuleSet) (destination : Destination) : Outcome :=
  let url := (command.value? "url").getD ""
  let method := (command.value? "method").getD "GET"
  match ruleSet.explain url method destination with
  | .error e => .failure s!"Error: {e.message}"
  | .ok explanation =>
    let text := if command.has "human" then explanation.human else explanation.toJson.pretty
    .success (text ++ "\n")

/-- Run the command that explains a request. -/
def runExplain (command : Command) : m Outcome :=
  let name := (command.value? "destination").getD ""
  match Destination.parse? name with
  | none => return .failure s!"Unknown destination: {name}"
  | some destination =>
    command.withConfig fun effective => command.withRoutes fun routes =>
      match effective.options.plan routes with
      | .error e => return .failure s!"Compile error: {e.message}"
      | .ok ruleSet => return command.explained ruleSet destination

/-- Run the command that prints the registration script. -/
def runSnippet (command : Command) : m Outcome :=
  command.withConfig fun effective =>
    let base := (command.value? "base").getD "/"
    return .success (Registration.script base effective.options.swName)

/-! ## Verifying -/

/-- How many digits of a digest are shown. -/
def shownDigits : Nat := 12

/-- The name of an origin in a list for people. -/
def originName : ConfigOrigin → String
  | .builtin => "Builtin"
  | .file => "File"
  | .cli => "Cli"

/-- What is printed about a source. -/
def sourceLine (source : ConfigSource) : String :=
  let origin := originName source.origin
  match source.file with
  | some (path, digest) =>
    let shown := String.ofList (digest.toList.take shownDigits)
    s!"  Source: {origin} {path} ({shown})"
  | none => s!"  Source: {origin}"

/-- What is printed about rules, from an index on. -/
def ruleLines (index : Nat) : List CachingRule → List String
  | [] => []
  | rule :: rest =>
    s!"    {index}. [{rule.origin.name}] {rule.matcher.describe} -> {rule.strategy.name}" ::
      ruleLines (index + 1) rest

/-- What is printed about a configuration. -/
def verifyLines (effective : EffectiveConfig) (ruleSet : RuleSet) : List String :=
  let caches := ruleSet.declaredCacheNames
  let names := ", ".intercalate caches
  ["Configuration valid", ""] ++ effective.sources.map sourceLine ++
    [s!"  Rules: {ruleSet.rules.length}"] ++ ruleLines 0 ruleSet.rules ++
    (if caches.isEmpty then [] else [s!"  Caches: {names}"]) ++
    ruleSet.conflicts.map fun conflict => s!"  Warning: {conflict.message}"

/-- Run the command that checks a configuration, at a given time. -/
def runVerify (command : Command) (time : String) : m Outcome :=
  command.withConfig fun effective =>
    match effective.options.plan [] with
    | .error e => return .failure s!"Configuration error: {e.message}"
    | .ok ruleSet =>
      if command.has "json" then return .success ((effective.toJson time).pretty ++ "\n")
      else return .success (Outcome.lines (verifyLines effective ruleSet))

/-- Run a command at a given time. -/
def run (command : Command) (time : String) : m Outcome :=
  match command.verb with
  | .build => command.runBuild
  | .dev => command.runDev
  | .compile => command.runCompile
  | .explain => command.runExplain
  | .snippet => command.runSnippet
  | .verify => command.runVerify time

end Command

/-- Run the program at a given time. -/
def run {m : Type → Type} [Monad m] [FileStore m] (arguments : List String) (time : String) :
    m Outcome :=
  match Command.read arguments with
  | .ok command => command.run time
  | .error interruption => return .ofInterruption interruption

end CachePolicy.Cli
