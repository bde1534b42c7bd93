import CachePolicy.Text.Split
import CachePolicy.Url.Basic
import CachePolicy.Url.Percent

/-!
# Reading URLs

A text is cleaned of blanks at its ends and of line breaks, and then cut into
its parts from left to right.  How a part is read depends on the scheme: the
special schemes have domains, always a path, and read `\` as `/`; those for files
have a host that may be empty; any other scheme keeps its host as it is, and may
have an opaque path.

`Url.read` wants a scheme.  `Url.readOn` reads a text without one as a reference
from the root of a site.
-/

namespace CachePolicy

/-- How the text after a scheme is read. -/
inductive SchemeKind where
  | special
  | file
  | general
  deriving DecidableEq, Repr

namespace SchemeKind

/-- The special schemes and the ports that they imply. -/
def defaultPorts : List (String × Nat) :=
  [("ftp", 21), ("http", 80), ("https", 443), ("ws", 80), ("wss", 443)]

/-- The kind of a scheme. -/
def ofScheme (scheme : String) : SchemeKind :=
  if scheme = "file" then .file
  else if (defaultPorts.lookup scheme).isSome then .special
  else .general

/-- Whether a character separates the segments of a path. -/
def separates (kind : SchemeKind) (c : Char) : Bool :=
  c == '/' || (c == '\\' && kind != .general)

/-- Whether a character ends an authority. -/
def endsAuthority (kind : SchemeKind) (c : Char) : Bool :=
  kind.separates c || c == '?' || c == '#'

end SchemeKind

namespace Url.Reader

/-! ## Text before its parts -/

/-- Spaces and control characters. -/
def isBlank (c : Char) : Bool := c.toNat ≤ 0x20

/-- The text less blanks at its ends and less tabs and line breaks. -/
def cleaned (text : String) : List Char :=
  let trimmed := ((text.toList.dropWhile isBlank).reverse.dropWhile isBlank).reverse
  trimmed.filter fun c => !(c == '\t' || c == '\n' || c == '\r')

/-- A character of a scheme. -/
def inScheme (c : Char) : Bool := c.isAlphanum || c == '+' || c == '-' || c == '.'

/-- The scheme in lower case and the text after its colon. -/
def scheme? (text : List Char) : Option (String × List Char) :=
  match Text.cut (!inScheme ·) text with
  | (first :: more, ':' :: rest) =>
    if first.isAlpha then some (String.ofList ((first :: more).map Char.toLower), rest) else none
  | _ => none

/-! ## Paths -/

/-- A segment that stays where it is. -/
def isHere (segment : List Char) : Bool :=
  [".", "%2e"].contains (String.ofList (segment.map Char.toLower))

/-- A segment that goes up. -/
def isUp (segment : List Char) : Bool :=
  ["..", ".%2e", "%2e.", "%2e%2e"].contains (String.ofList (segment.map Char.toLower))

/-- A drive letter. -/
def isDrive : List Char → Bool
  | [letter, mark] => letter.isAlpha && (mark == ':' || mark == '|')
  | _ => false

/-- The segments above, the last one first; a drive is never left. -/
def parent : List (List Char) → List (List Char)
  | [] => []
  | last :: rest => if isDrive last then last :: rest else rest

/-- Follow segments from `reached`, which holds the last one first. -/
def follow (reached : List (List Char)) : List (List Char) → List (List Char)
  | [] => reached
  | [last] =>
    if isUp last then [] :: parent reached
    else if isHere last then [] :: reached
    else last :: reached
  | segment :: rest =>
    if isUp segment then follow (parent reached) rest
    else if isHere segment then follow reached rest
    else follow (segment :: reached) rest

/-- A path of segments. -/
def pathOf (segments : List (List Char)) : List Char :=
  '/' :: List.intercalate ['/'] segments

/-- The escaped segments of a path, of which the first is not led by a
separator. -/
def segments (kind : SchemeKind) (text : List Char) : List (List Char) :=
  let rest :=
    match text with
    | c :: rest => if kind.separates c then rest else c :: rest
    | [] => []
  (Text.split kind.separates rest).map (Percent.encode Percent.path)

/-- A path in normal form. -/
def normalPath (kind : SchemeKind) (text : List Char) : String :=
  String.ofList (pathOf (follow [] (segments kind text)).reverse)

/-- The segments of a file, with a colon after a drive at the front. -/
def fileSegments (text : List Char) : List (List Char) :=
  match segments .file text with
  | [letter, '|'] :: rest => if letter.isAlpha then [letter, ':'] :: rest else [letter, '|'] :: rest
  | other => other

/-- The path of a file, which has no empty segments at the front. -/
def filePath (text : List Char) : String :=
  String.ofList ('/' :: (pathOf (follow [] (fileSegments text)).reverse).dropWhile (· == '/'))

/-- A path that is not made of segments. -/
def opaquePath (text : List Char) : String := String.ofList (Percent.encode Percent.controls text)

/-! ## The end of a URL -/

/-- The text after the path, cut into a query and a fragment. -/
def tail (kind : SchemeKind) (text : List Char) : Option String × Option String :=
  let set := if kind = .general then Percent.query else Percent.specialQuery
  let (front, fragment) := Text.cut (· == '#') text
  let query :=
    match front with
    | [] => none
    | _ :: query => some (String.ofList (Percent.encode set query))
  let fragment :=
    match fragment with
    | [] => none
    | _ :: fragment => some (String.ofList (Percent.encode Percent.fragment fragment))
  (query, fragment)

/-- A URL of a scheme and an authority, with the path that `path` makes of the
text before the query. -/
def assemble (scheme : String) (authority : Option Authority) (path : List Char → String)
    (text : List Char) : Url :=
  let (front, rest) := Text.cut (fun c => c == '?' || c == '#') text
  let (query, fragment) := tail (.ofScheme scheme) rest
  { scheme, authority, path := path front, query, fragment }

/-! ## Authorities -/

/-- A character that a domain cannot have. -/
def forbiddenInDomain (c : Char) : Bool :=
  c.toNat ≤ 0x20 || 0x7F ≤ c.toNat || "%#/:<>?@[\\]^|".toList.contains c

/-- A character that a host of a general scheme cannot have. -/
def forbiddenInHost (c : Char) : Bool :=
  c.toNat = 0 || " #/:<>?@[\\]^|".toList.contains c

/-- An address after its opening bracket. -/
def bracketed (text : List Char) : Except UrlError Host :=
  if text.getLast? = some ']' then
    match Ipv6.read text.dropLast with
    | some pieces => .ok (.ipv6 pieces)
    | none => .error .invalidIpv6
  else .error .invalidIpv6

/-- A domain or an address. -/
def domain : List Char → Except UrlError Host
  | '[' :: rest => bracketed rest
  | text =>
    let name := (Percent.decode text).map Char.toLower
    if name.any forbiddenInDomain then .error .invalidDomain
    else if Ipv4.endsInNumber name then
      match Ipv4.read name with
      | some address => .ok (.ipv4 address)
      | none => .error .invalidIpv4
    else .ok (.name (String.ofList name))

/-- The host of a general scheme, which is kept as it is. -/
def opaqueHost : List Char → Except UrlError Host
  | '[' :: rest => bracketed rest
  | text =>
    if text.any forbiddenInHost then .error .invalidHostCharacter
    else .ok (.name (String.ofList (Percent.encode Percent.controls text)))

/-- The text of a host, which ends at a colon outside brackets, and the rest. -/
def cutHost (kind : SchemeKind) (inside : Bool) : List Char → List Char × List Char
  | [] => ([], [])
  | c :: rest =>
    if kind.endsAuthority c || (c == ':' && !inside) then ([], c :: rest)
    else
      let (host, rest) := cutHost kind (c == '[' || (inside && c != ']')) rest
      (c :: host, rest)

/-- The port after a colon and the rest; one that the scheme implies is left
out. -/
def port (scheme : String) (text : List Char) : Except UrlError (Option Nat × List Char) :=
  let (digits, rest) := Text.cut (!Char.isDigit ·) text
  let ends :=
    match rest with
    | [] => true
    | c :: _ => SchemeKind.special.endsAuthority c
  match Text.digitsValue? 10 digits with
  | some value =>
    if 65535 < value ∨ !ends then .error .invalidPort
    else if digits.isEmpty ∨ SchemeKind.defaultPorts.lookup scheme = some value then
      .ok (none, rest)
    else .ok (some value, rest)
  | none => .error .invalidPort

/-- The user name and password before an `@`. -/
def credentials (text : List Char) : String × String :=
  let (username, password) := Text.cut (· == ':') text
  let escaped := fun part => String.ofList (Percent.encode Percent.userinfo part)
  (escaped username, escaped (password.drop 1))

/-- The text before the last `@` of an authority and the text after it. -/
def cutUserinfo (kind : SchemeKind) (text : List Char) : Option (List Char × List Char) :=
  let (authority, rest) := Text.cut kind.endsAuthority text
  let (host, userinfo) := Text.cut (· == '@') authority.reverse
  match userinfo with
  | _ :: userinfo => some (userinfo.reverse, host.reverse ++ rest)
  | [] => none

/-- The host and port of an authority and the text after them. -/
def hostAndPort (scheme : String) (credentials : String × String) (text : List Char) :
    Except UrlError (Authority × List Char) := do
  let kind := SchemeKind.ofScheme scheme
  let (hostText, rest) := cutHost kind false text
  if hostText.isEmpty ∧ (kind = .special ∨ rest.head? = some ':' ∨ credentials ≠ ("", "")) then
    .error .emptyHost
  else
    let host ← if kind = .special then domain hostText else opaqueHost hostText
    let (port, rest) ←
      match rest with
      | ':' :: digits => port scheme digits
      | rest => .ok (none, rest)
    .ok (⟨credentials.1, credentials.2, host, port⟩, rest)

/-- An authority and the text after it. -/
def authority (scheme : String) (text : List Char) : Except UrlError (Authority × List Char) :=
  match cutUserinfo (.ofScheme scheme) text with
  | none => hostAndPort scheme ("", "") text
  | some ([], rest) =>
    match rest with
    | c :: _ =>
      if (SchemeKind.ofScheme scheme).endsAuthority c then .error .emptyHost
      else hostAndPort scheme ("", "") rest
    | [] => hostAndPort scheme ("", "") rest
  | some (userinfo, rest) => hostAndPort scheme (credentials userinfo) rest

/-! ## Whole URLs -/

/-- The URL of a special scheme from its authority on. -/
def special (scheme : String) (text : List Char) : Except UrlError Url := do
  let (authority, rest) ← authority scheme text
  .ok (assemble scheme (some authority) (normalPath .special) rest)

/-- The URL of a general scheme. -/
def general (scheme : String) : List Char → Except UrlError Url
  | '/' :: '/' :: text => do
    let (authority, rest) ← authority scheme text
    let path := fun front => if front.isEmpty then "" else normalPath .general front
    .ok (assemble scheme (some authority) path rest)
  | '/' :: text => .ok (assemble scheme none (normalPath .general) ('/' :: text))
  | text => .ok (assemble scheme none opaquePath text)

/-- The URL of a file on a host. -/
def fileOn (host : Host) (text : List Char) : Url :=
  assemble "file" (some (.ofHost host)) filePath text

/-- The URL of a file from its host on.  What looks like a drive is no host, and
neither `localhost` nor the host before a drive is kept. -/
def fileWithHost (text : List Char) : Except UrlError Url := do
  let (hostText, rest) := Text.cut SchemeKind.file.endsAuthority text
  if isDrive hostText then .ok (fileOn (.name "") text)
  else if hostText.isEmpty then .ok (fileOn (.name "") rest)
  else
    let host ← domain hostText
    let front := (Text.cut (fun c => c == '?' || c == '#') rest).1
    let onDrive := (segments .file front).head?.any isDrive
    if onDrive ∨ host = .name "localhost" then .ok (fileOn (.name "") rest)
    else .ok (fileOn host rest)

/-- The URL of a file. -/
def file : List Char → Except UrlError Url
  | a :: b :: text =>
    if SchemeKind.file.separates a ∧ SchemeKind.file.separates b then fileWithHost text
    else .ok (fileOn (.name "") (a :: b :: text))
  | text => .ok (fileOn (.name "") text)

/-- Read a cleaned text that has a scheme. -/
def ofScheme (scheme : String) (text : List Char) : Except UrlError Url :=
  match SchemeKind.ofScheme scheme with
  | .special => special scheme (text.dropWhile SchemeKind.special.separates)
  | .file => file text
  | .general => general scheme text

/-- Read a reference without a scheme from the root of a site. -/
def reference (site : Host) (text : List Char) : Except UrlError Url :=
  match text with
  | '/' :: '/' :: rest => special "http" rest
  | _ =>
    let rest := text.dropWhile SchemeKind.special.separates
    if rest.length + 2 ≤ text.length then special "http" rest
    else .ok (assemble "http" (some (.ofHost site)) (normalPath .special) text)

end Url.Reader

namespace Url

/-- Read a URL with its scheme. -/
def read (text : String) : Except UrlError Url :=
  match Reader.scheme? (Reader.cleaned text) with
  | some (scheme, rest) => Reader.ofScheme scheme rest
  | none => .error .relativeWithoutBase

/-- Read a URL, or a reference from the root of a site. -/
def readOn (site : Host) (text : String) : Except UrlError Url :=
  match read text with
  | .error .relativeWithoutBase => Reader.reference site (Reader.cleaned text)
  | other => other

end Url

end CachePolicy
