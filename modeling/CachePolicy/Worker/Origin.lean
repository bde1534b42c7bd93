import CachePolicy.Worker.Network

/-!
# An origin in memory

An origin with answers that are set beforehand.  It knows a latency for every
answer, can be cut off, remembers every call, and can give a signal while the next
call is under way.
-/

namespace CachePolicy

/-- The answer of an origin for one URL. -/
structure OriginRoute where
  response : Response
  latency : Millis

/-- An origin with answers that are set beforehand. -/
structure Origin where
  /-- Answers by URL. -/
  routes : List (String × OriginRoute)
  offline : Bool
  /-- The method and the URL of every call. -/
  log : List String
  /-- A signal to be given while the next call is under way. -/
  armed : Option Signal

namespace Origin

/-- An origin without answers. -/
def new : Origin := ⟨[], false, [], none⟩

/-- The text under which an answer for a URL is kept. -/
def key (url : String) : String :=
  match Request.get url with
  | .ok request => request.href
  | .error _ => url

/-- Set the answer for a URL and keep its latency. -/
def respond (origin : Origin) (url : String) (response : Response) : Origin :=
  let latency := ((origin.routes.lookup (key url)).map (·.latency)).getD 0
  { origin with
    routes := (key url, ⟨response, latency⟩) :: origin.routes.filter (·.1 != key url) }

/-- Set the latency of an answer that is set. -/
def setLatency (origin : Origin) (url : String) (latency : Millis) : Origin :=
  { origin with
    routes := origin.routes.map fun (other, route) =>
      (other, if other = key url then { route with latency } else route) }

/-- How many calls were made for a URL. -/
def fetchCount (origin : Origin) (url : String) : Nat :=
  origin.log.countP fun line => (line.toList.dropWhile (· != ' ')).drop 1 = (key url).toList

/-- The answer to a call. -/
def answer (origin : Origin) (call : Call) : Except FetchError Response :=
  if origin.offline then .error .offline
  else
    match origin.routes.lookup call.request.href with
    | none => .ok ⟨404, ByteArray.empty⟩
    | some route =>
      match call.timeout with
      | some limit => if limit < route.latency then .error (.timeout limit) else .ok route.response
      | none => .ok route.response

/-- Make a call. -/
def fetch (call : Call) (origin : Origin) : Reply × Origin :=
  (⟨origin.answer call, origin.armed.isSome && origin.armed == call.signal⟩,
    { origin with log := origin.log ++ [call.request.line], armed := none })

end Origin

/-- An origin and a clock that moves only when it is told to. -/
structure Bench where
  origin : Origin
  now : Moment

/-- The world of a bench. -/
def Bench.environment : Environment Bench where
  now bench := (bench.now, bench)
  fetch call bench :=
    let (reply, origin) := Origin.fetch call bench.origin
    (reply, { bench with origin })

end CachePolicy
