/-!
# Globs

A glob is a list of tokens, each of which takes some bytes off the front of a name.
What a token can leave is a list of rests, so a glob accepts a name if taking its
tokens in order can leave nothing.

A star and a question mark take slashes like any other byte.  Two stars between
slashes take whole directories: any number of them, none included.
-/

namespace CachePolicy

/-- A part of a glob. -/
inductive GlobToken where
  | literal (c : Char)
  /-- Any one byte. -/
  | any
  /-- Any bytes. -/
  | star
  /-- Any directories, at the start. -/
  | leadingDirectories
  /-- A slash and all below it, at the end. -/
  | everythingBelow
  /-- A slash, then any directories. -/
  | innerDirectories
  /-- One byte that lies in one of the ranges, or in none of them. -/
  | class (negated : Bool) (ranges : List (Char × Char))
  /-- One of several globs. -/
  | group (branches : List (List GlobToken))
  deriving Repr, Inhabited

namespace GlobToken

/-- The bytes of a character. -/
def bytesOf (c : Char) : List UInt8 := c.toString.toUTF8.toList

/-- The suffixes of a byte sequence, itself and the empty one included. -/
def suffixes : List UInt8 → List (List UInt8)
  | [] => [[]]
  | b :: rest => (b :: rest) :: suffixes rest

/-- The byte that separates names. -/
def slash : UInt8 := 47

/-- What follows the slashes of a byte sequence. -/
def afterSlashes : List UInt8 → List (List UInt8)
  | [] => []
  | b :: rest => if b = slash then rest :: afterSlashes rest else afterSlashes rest

/-- What follows given bytes at the front. -/
def afterBytes : List UInt8 → List UInt8 → List (List UInt8)
  | [], rest => [rest]
  | _ :: _, [] => []
  | b :: bytes, c :: rest => if b = c then afterBytes bytes rest else []

/-- Whether a byte lies in a range of characters.  Only the bytes next to the dash
make a range; those before and after it stand for themselves. -/
def inRange (b : UInt8) (range : Char × Char) : Bool :=
  let low := bytesOf range.1
  let high := bytesOf range.2
  low.contains b || high.contains b ||
    (low.getLastD 0 ≤ b && b ≤ high.headD 0 && range.1 != range.2)

/-- Suffixes of one byte sequence without repetitions; two of them are the same if
they have the same length. -/
def distinct (rests : List (List UInt8)) : List (List UInt8) :=
  rests.foldr
    (fun rest kept => if kept.any (·.length == rest.length) then kept else rest :: kept) []

mutual

/-- Whether a token takes nothing, because it is a group without branches. -/
def isVoid : GlobToken → Bool
  | .group branches => areVoid branches
  | _ => false

/-- Whether no branch has a token that takes something. -/
def areVoid : List (List GlobToken) → Bool
  | [] => true
  | branch :: rest => isBlank branch && areVoid rest

/-- Whether a branch has no token that takes something. -/
def isBlank : List GlobToken → Bool
  | [] => true
  | token :: rest => isVoid token && isBlank rest

end

mutual

/-- What a token can leave of a byte sequence. -/
def rests : GlobToken → List UInt8 → List (List UInt8)
  | .literal c, bytes => afterBytes (bytesOf c) bytes
  | .any, bytes => bytes.tail?.toList
  | .star, bytes => suffixes bytes
  | .leadingDirectories, bytes => bytes :: afterSlashes bytes
  | .everythingBelow, bytes =>
    match bytes with
    | b :: rest => if b = slash then suffixes rest else []
    | [] => []
  | .innerDirectories, bytes =>
    match bytes with
    | b :: rest => if b = slash then rest :: afterSlashes rest else []
    | [] => []
  | .class negated ranges, bytes =>
    match bytes with
    | b :: rest => if ranges.any (inRange b) != negated then [rest] else []
    | [] => []
  | .group branches, bytes =>
    if areVoid branches then [bytes] else restsAny branches bytes

/-- What a list of tokens can leave of some suffixes of a byte sequence. -/
def restsAll : List GlobToken → List (List UInt8) → List (List UInt8)
  | [], starts => starts
  | token :: tokens, starts => restsAll tokens (distinct (starts.flatMap (rests token)))

/-- What some branch can leave of a byte sequence; blank ones do not count. -/
def restsAny : List (List GlobToken) → List UInt8 → List (List UInt8)
  | [], _ => []
  | branch :: branches, bytes =>
    (if isBlank branch then [] else restsAll branch [bytes]) ++ restsAny branches bytes

end

/-- The characters of tokens that are all literals. -/
def literals? (tokens : List GlobToken) : Option (List Char) :=
  tokens.mapM fun
    | .literal c => some c
    | _ => none

end GlobToken

/-- A glob, together with its text. -/
structure Glob where
  text : String
  tokens : List GlobToken
  deriving Repr

namespace Glob

/-- Whether the tokens can take a whole name. -/
def takes (tokens : List GlobToken) (name : List UInt8) : Bool :=
  match tokens with
  | [.leadingDirectories] => true
  | _ => (GlobToken.restsAll tokens [name]).any List.isEmpty

/-- Whether a glob is decided by the end of a name alone: some literals, after any
directories or a star or both. -/
def endsLiterally (tokens : List GlobToken) : Bool :=
  match tokens with
  | .leadingDirectories :: .star :: rest => decidedBy rest
  | .star :: rest => decidedBy rest
  | .leadingDirectories :: rest => (GlobToken.literals? rest).any (·.contains '/')
  | rest => (GlobToken.literals? rest).isSome
where
  /-- An end that is more than an extension without letters. -/
  decidedBy (rest : List GlobToken) : Bool :=
    (GlobToken.literals? rest).any (· != ['.'])

/-- Whether a glob passes over a name.  A name that ends in a dot has no extension
and no base name, so it is not found by a glob that has to look at one of these. -/
def passesOver (tokens : List GlobToken) (name : List UInt8) : Bool :=
  name.getLast? == some 46 && tokens.getLast? matches some (.literal '.') && !endsLiterally tokens

/-- Whether a glob accepts a name, which has slashes between its parts. -/
def accepts (glob : Glob) (name : String) : Bool :=
  let bytes := name.toUTF8.toList
  takes glob.tokens bytes && !passesOver glob.tokens bytes

end Glob

end CachePolicy
