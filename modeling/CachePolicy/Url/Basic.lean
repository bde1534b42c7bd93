import CachePolicy.Url.Address

/-!
# URLs

A URL is kept in parts that are already in normal form: the scheme and a domain
are in lower case, a port that the scheme implies is left out, and what has to
be escaped is escaped.  `Url.href` joins the parts.
-/

namespace CachePolicy

/-- Where an authority leads. -/
inductive Host where
  /-- A name; the empty one where a scheme allows it. -/
  | name (text : String)
  | ipv4 (address : UInt32)
  | ipv6 (pieces : List UInt16)
  deriving DecidableEq, Repr

/-- The text of a host. -/
def Host.text : Host → String
  | .name text => text
  | .ipv4 address => String.ofList (Ipv4.text address)
  | .ipv6 pieces => "[" ++ String.ofList (Ipv6.text pieces) ++ "]"

/-- The part of a URL after `//`. -/
structure Authority where
  username : String
  password : String
  host : Host
  port : Option Nat
  deriving DecidableEq, Repr

namespace Authority

/-- An authority that is only a host. -/
def ofHost (host : Host) : Authority := ⟨"", "", host, none⟩

/-- The credentials, with the `@` that ends them if there are any. -/
def credentials (authority : Authority) : String :=
  if authority.username.isEmpty ∧ authority.password.isEmpty then ""
  else
    authority.username ++
      (if authority.password.isEmpty then "" else ":" ++ authority.password) ++ "@"

/-- The text of an authority. -/
def text (authority : Authority) : String :=
  authority.credentials ++ authority.host.text ++
    match authority.port with
    | some port => s!":{port}"
    | none => ""

end Authority

/-- A URL in its parts. -/
structure Url where
  scheme : String
  authority : Option Authority
  path : String
  query : Option String
  fragment : Option String
  deriving DecidableEq, Repr

namespace Url

/-- What stands between the scheme and the path.  A path that begins with `//`
is kept apart from the scheme by `/.`. -/
def origin (url : Url) : String :=
  match url.authority with
  | some authority => "//" ++ authority.text
  | none => if url.path.startsWith "//" then "/." else ""

/-- The text of a URL. -/
def href (url : Url) : String :=
  url.scheme ++ ":" ++ url.origin ++ url.path ++
    (match url.query with
      | some query => "?" ++ query
      | none => "") ++
    match url.fragment with
    | some fragment => "#" ++ fragment
    | none => ""

end Url

/-- Why a text is no URL. -/
inductive UrlError where
  | emptyHost
  | invalidPort
  | invalidIpv4
  | invalidIpv6
  | invalidDomain
  /-- A host of a scheme without domains has a character with another meaning. -/
  | invalidHostCharacter
  /-- There is no scheme and nothing to resolve against. -/
  | relativeWithoutBase
  deriving DecidableEq, Repr

/-- The wording of an error. -/
def UrlError.message : UrlError → String
  | .emptyHost => "empty host"
  | .invalidPort => "invalid port number"
  | .invalidIpv4 => "invalid IPv4 address"
  | .invalidIpv6 => "invalid IPv6 address"
  | .invalidDomain => "invalid international domain name"
  | .invalidHostCharacter => "invalid domain character"
  | .relativeWithoutBase => "relative URL without a base"

end CachePolicy
