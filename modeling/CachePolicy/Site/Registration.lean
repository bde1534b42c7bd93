import CachePolicy.Json.Printer

/-!
# Registering a worker

A page registers the worker by a script once it has loaded.  The worker lies under
the base of the site.
-/

namespace CachePolicy.Registration

/-- A base without the slashes at its end. -/
def trimmed (base : String) : List Char := (base.toList.reverse.dropWhile (· == '/')).reverse

/-- The URL of the worker. -/
def workerUrl (base swName : String) : String :=
  let base := trimmed base
  if base.isEmpty ∨ base.head? = some '/' then String.ofList base ++ "/" ++ swName
  else "/" ++ String.ofList base ++ "/" ++ swName

/-- The script that registers the worker. -/
def script (base swName : String) : String :=
  "if ('serviceWorker' in navigator) \x7b\n" ++
    "  window.addEventListener('load', () => \x7b\n" ++
    s!"    navigator.serviceWorker.register({Json.quoted (workerUrl base swName)})" ++
    ".then((registration) => \x7b\n" ++
    "      console.log('Service Worker registered with scope:', registration.scope);\n" ++
    "    \x7d).catch((error) => \x7b\n" ++
    "      console.error('Service Worker registration failed:', error);\n" ++
    "    \x7d);\n" ++
    "  \x7d);\n" ++
    "\x7d\n"

end CachePolicy.Registration
