import CachePolicy.Config.Effective
import CachePolicy.Site.Custom

/-!
# The worker for development

While a site is developed its worker takes over at once and caches nothing.  Faults
in the configuration do not matter then; they only decide which name is used.
-/

namespace CachePolicy.Development

/-- A worker that caches nothing. -/
def program : String :=
  "// This is a noop service worker for development\n" ++
    "self.addEventListener('install', () => self.skipWaiting());\n" ++
    "self.addEventListener('activate', () => self.clients.claim());\n"

/-- The name of the worker's file. -/
def workerName (loaded : Except ConfigError EffectiveConfig) (fallback : Option String) :
    String :=
  match loaded with
  | .ok effective => effective.options.swName
  | .error _ => fallback.getD ({} : Options).swName

variable {m : Type → Type} [Monad m] [FileStore m]

/-- Write the worker to a directory.  The result is its path. -/
def write (publicDir : Path) (swName : String) : m (Except WorkerFileError Path) := do
  let output := publicDir.join (Path.read swName)
  return (← WorkerFile.put output program).map fun _ => output

end CachePolicy.Development
