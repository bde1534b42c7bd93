import CachePolicy.Text.Hex

/-!
# Percent-encoding

A character that has no place in a part of a URL is written as its UTF-8 bytes,
each as `%` and two upper-case digits.  Characters beyond ASCII are always
written so; which others are is given by an escape set, one for each part.
-/

namespace CachePolicy.Percent

/-- The characters that are escaped in some part of a URL. -/
abbrev EscapeSet := Char → Bool

/-- Control characters. -/
def controls : EscapeSet := fun c => c.toNat < 0x20 || c.toNat = 0x7F

/-- A set with more characters. -/
def EscapeSet.with (set : EscapeSet) (more : String) : EscapeSet :=
  fun c => set c || more.toList.contains c

/-- The set of a query. -/
def query : EscapeSet := controls.with " \"#<>"

/-- The set of a query where `'` is special too. -/
def specialQuery : EscapeSet := query.with "'"

/-- The set of a fragment. -/
def fragment : EscapeSet := controls.with " \"<>`"

/-- The set of a path. -/
def path : EscapeSet := fragment.with "#?\x7b\x7d"

/-- The set of a user name or password. -/
def userinfo : EscapeSet := path.with "/:;=@[\\]^|"

/-- A byte as `%` and two digits. -/
def escapedByte (b : UInt8) : List Char :=
  ['%', Text.upperHex (b.toNat / 16), Text.upperHex b.toNat]

/-- A character, escaped if it is in the set or beyond ASCII. -/
def encodeChar (set : EscapeSet) (c : Char) : List Char :=
  if 0x7F < c.toNat ∨ set c then (String.utf8EncodeChar c).flatMap escapedByte else [c]

/-- A text with the characters of the set escaped. -/
def encode (set : EscapeSet) (text : List Char) : List Char := text.flatMap (encodeChar set)

@[simp] theorem encode_nil (set : EscapeSet) : encode set [] = [] := rfl

@[simp] theorem encode_append (set : EscapeSet) (a b : List Char) :
    encode set (a ++ b) = encode set a ++ encode set b := by
  simp [encode]

/-- Undo the escapes of a text, where an escape stands for the character with
its number; a `%` without two digits stays. -/
def decode : List Char → List Char
  | '%' :: a :: b :: rest =>
    match Text.hexValue? a, Text.hexValue? b with
    | some high, some low => Char.ofNat (high * 16 + low) :: decode rest
    | _, _ => '%' :: decode (a :: b :: rest)
  | c :: rest => c :: decode rest
  | [] => []

end CachePolicy.Percent
