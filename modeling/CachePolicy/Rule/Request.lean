import CachePolicy.Rule.Error
import CachePolicy.Text.Case
import CachePolicy.Url.Reader

/-!
# Requests

What rules see of a request: its URL, its method in upper case, and its
destination, which says what kind of resource the page wants.
-/

namespace CachePolicy

/-- What a page wants a resource for. -/
inductive Destination where
  /-- A request by script names no destination. -/
  | none
  | audio
  | document
  | embed
  | font
  | frame
  | iframe
  | image
  | manifest
  | object
  | report
  | script
  | style
  | track
  | video
  | worker
  deriving DecidableEq, Repr, Inhabited

namespace Destination

/-- All destinations, in the order in which messages list them. -/
def all : List Destination :=
  [none, audio, document, embed, font, frame, iframe, image, manifest, object, report, script,
    style, track, video, worker]

/-- The name of a destination. -/
def name : Destination → String
  | none => ""
  | audio => "audio"
  | document => "document"
  | embed => "embed"
  | font => "font"
  | frame => "frame"
  | iframe => "iframe"
  | image => "image"
  | manifest => "manifest"
  | object => "object"
  | report => "report"
  | script => "script"
  | style => "style"
  | track => "track"
  | video => "video"
  | worker => "worker"

/-- Destinations by name. -/
def byName : List (String × Destination) :=
  all.map fun destination => (destination.name, destination)

/-- The destination of a name in any letter case. -/
def parse? (name : String) : Option Destination := byName.lookup (Text.lower name)

/-- A destination as JSON. -/
def toJson (destination : Destination) : Json := .str destination.name

/-- Read a destination. -/
def decode : Decoder Destination := Decode.choice byName

end Destination

/-- What rules see of a request. -/
structure Request where
  url : Url
  method : String
  destination : Destination
  deriving DecidableEq, Repr

namespace Request

/-- The site that a reference without a scheme belongs to. -/
def site : Host := .name "localhost"

/-- Read a request. -/
def read (url method : String) (destination : Destination) : Except RuleError Request :=
  match Url.readOn site url with
  | .ok parsed => .ok ⟨parsed, Text.upper method, destination⟩
  | .error reason => .error (.invalidUrl url reason)

/-- Read a plain request for a URL. -/
def get (url : String) : Except RuleError Request := read url "GET" .none

/-- The text of the URL. -/
def href (request : Request) : String := request.url.href

/-- The path of the URL. -/
def pathname (request : Request) : String := request.url.path

end Request

end CachePolicy
