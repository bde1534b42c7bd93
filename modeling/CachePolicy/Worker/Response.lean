import CachePolicy.Rule.Request
import CachePolicy.Text.Utf8

/-!
# Requests with bodies and their responses

A worker passes bodies on as bytes.  Only a complete response, with status 200, may
be stored.  Time is counted in milliseconds from some fixed moment.
-/

namespace CachePolicy

/-- A moment, in milliseconds. -/
abbrev Moment := Int

/-- A request that a page makes. -/
structure PageRequest where
  info : Request
  body : Option Bytes
  deriving DecidableEq

namespace PageRequest

/-- A plain request for a URL. -/
def get (url : String) : Except RuleError PageRequest := do
  let info ← Request.get url
  return ⟨info, none⟩

/-- The text of the URL. -/
def href (request : PageRequest) : String := request.info.href

/-- The method and the URL. -/
def line (request : PageRequest) : String := request.info.method ++ " " ++ request.href

end PageRequest

/-- An answer to a request. -/
structure Response where
  status : UInt16
  body : Bytes
  deriving DecidableEq, Inhabited

namespace Response

/-- A complete answer. -/
def ok (body : Bytes) : Response := ⟨200, body⟩

/-- Whether the answer may be stored. -/
def isCacheable (response : Response) : Bool := response.status == 200

@[simp] theorem isCacheable_ok (body : Bytes) : (ok body).isCacheable = true := rfl

end Response

end CachePolicy
