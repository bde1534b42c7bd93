import CachePolicy.Data.Instances

/-!
# Reading bytes as UTF-8

Bytes that are not well formed are met in two ways.  A file that has to be text
is refused, and the refusal names the first fault; the body of a response is
shown with every fault replaced by U+FFFD.

Both go through `Utf8.next`, which reads one character or says what is wrong at
its place.  A faulty sequence ends before the first byte that cannot continue
it, so that byte starts the next one.
-/

namespace CachePolicy

/-- Raw bytes. -/
abbrev Bytes := ByteArray

namespace Utf8

/-- What stands at the front of a byte sequence. -/
inductive Next where
  | done
  | char (c : Char) (size : Nat)
  /-- The first `size` bytes do not begin a character. -/
  | invalid (size : Nat)
  /-- The bytes end inside a character. -/
  | truncated
  deriving DecidableEq, Repr

/-- A byte of the form `10xxxxxx`. -/
def isContinuation (b : UInt8) : Bool := 0x80 ≤ b && b ≤ 0xBF

/-- The second bytes that may follow a first byte. -/
def allowsSecond (first second : UInt8) : Bool :=
  if first = 0xE0 then 0xA0 ≤ second && second ≤ 0xBF
  else if first = 0xED then 0x80 ≤ second && second ≤ 0x9F
  else if first = 0xF0 then 0x90 ≤ second && second ≤ 0xBF
  else if first = 0xF4 then 0x80 ≤ second && second ≤ 0x8F
  else isContinuation second

/-- The payload of a continuation byte. -/
def payload (b : UInt8) : Nat := b.toNat % 64

/-- Read what stands at the front. -/
def next : List UInt8 → Next
  | [] => .done
  | a :: rest =>
    if a < 0x80 then .char (Char.ofNat a.toNat) 1
    else if a < 0xC2 ∨ 0xF4 < a then .invalid 1
    else
      match rest with
      | [] => .truncated
      | b :: rest =>
        if !allowsSecond a b then .invalid 1
        else if a < 0xE0 then .char (Char.ofNat (a.toNat % 32 * 64 + payload b)) 2
        else
          match rest with
          | [] => .truncated
          | c :: rest =>
            if !isContinuation c then .invalid 2
            else if a < 0xF0 then
              .char (Char.ofNat (a.toNat % 16 * 4096 + payload b * 64 + payload c)) 3
            else
              match rest with
              | [] => .truncated
              | d :: _ =>
                if !isContinuation d then .invalid 3
                else
                  .char (Char.ofNat (a.toNat % 8 * 262144 + payload b * 4096 +
                    payload c * 64 + payload d)) 4

/-- Why bytes are not text, and where. -/
inductive Fault where
  | invalid (size index : Nat)
  | truncated (index : Nat)
  deriving DecidableEq, Repr

/-- The wording of a fault. -/
def Fault.message : Fault → String
  | .invalid size index => s!"invalid utf-8 sequence of {size} bytes from index {index}"
  | .truncated index => s!"incomplete utf-8 byte sequence from index {index}"

/-- The first fault from an index on, looking at no more than `fuel` characters. -/
def faultFrom (index : Nat) : (fuel : Nat) → List UInt8 → Option Fault
  | 0, _ => none
  | fuel + 1, bytes =>
    match next bytes with
    | .done => none
    | .char _ size => faultFrom (index + size) fuel (bytes.drop size)
    | .invalid size => some (.invalid size index)
    | .truncated => some (.truncated index)

/-- The first fault of a byte sequence. -/
def fault? (bytes : Bytes) : Option Fault :=
  faultFrom 0 (bytes.size + 1) bytes.toList

/-- The characters with every fault replaced, looking at no more than `fuel` of
them. -/
def lossyChars : (fuel : Nat) → List UInt8 → List Char
  | 0, _ => []
  | fuel + 1, bytes =>
    match next bytes with
    | .done => []
    | .char c size => c :: lossyChars fuel (bytes.drop size)
    | .invalid size => '\uFFFD' :: lossyChars fuel (bytes.drop size)
    | .truncated => ['\uFFFD']

/-- The text with every fault replaced by U+FFFD. -/
def lossy (bytes : Bytes) : String :=
  String.ofList (lossyChars (bytes.size + 1) bytes.toList)

/-- The bytes of characters. -/
def encode (chars : List Char) : List UInt8 := chars.flatMap String.utf8EncodeChar

/-- The text of well-formed bytes. -/
def text? (bytes : Bytes) : Option String := String.fromUTF8? bytes

end Utf8

end CachePolicy
