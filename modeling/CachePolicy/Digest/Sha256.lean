import CachePolicy.Data.Instances
import CachePolicy.Text.Hex

/-!
# SHA-256

The digest of a byte sequence.  The bytes are padded to whole blocks of 64, each
block is expanded to 64 words, and the words are mixed into a state of eight.

`Sha256.hex` gives the digest as 64 lower-case hexadecimal digits.
-/

namespace CachePolicy.Sha256

/-- The words that are added in the 64 rounds. -/
def roundWords : Array UInt32 :=
  #[0x428a2f98, 0x71374491, 0xb5c0fbcf, 0xe9b5dba5, 0x3956c25b, 0x59f111f1, 0x923f82a4, 0xab1c5ed5,
    0xd807aa98, 0x12835b01, 0x243185be, 0x550c7dc3, 0x72be5d74, 0x80deb1fe, 0x9bdc06a7, 0xc19bf174,
    0xe49b69c1, 0xefbe4786, 0x0fc19dc6, 0x240ca1cc, 0x2de92c6f, 0x4a7484aa, 0x5cb0a9dc, 0x76f988da,
    0x983e5152, 0xa831c66d, 0xb00327c8, 0xbf597fc7, 0xc6e00bf3, 0xd5a79147, 0x06ca6351, 0x14292967,
    0x27b70a85, 0x2e1b2138, 0x4d2c6dfc, 0x53380d13, 0x650a7354, 0x766a0abb, 0x81c2c92e, 0x92722c85,
    0xa2bfe8a1, 0xa81a664b, 0xc24b8b70, 0xc76c51a3, 0xd192e819, 0xd6990624, 0xf40e3585, 0x106aa070,
    0x19a4c116, 0x1e376c08, 0x2748774c, 0x34b0bcb5, 0x391c0cb3, 0x4ed8aa4a, 0x5b9cca4f, 0x682e6ff3,
    0x748f82ee, 0x78a5636f, 0x84c87814, 0x8cc70208, 0x90befffa, 0xa4506ceb, 0xbef9a3f7, 0xc67178f2]

/-- The eight words between two blocks. -/
structure State where
  a : UInt32
  b : UInt32
  c : UInt32
  d : UInt32
  e : UInt32
  f : UInt32
  g : UInt32
  h : UInt32
  deriving DecidableEq, Repr

/-- The state before the first block. -/
def initial : State :=
  ⟨0x6a09e667, 0xbb67ae85, 0x3c6ef372, 0xa54ff53a, 0x510e527f, 0x9b05688c, 0x1f83d9ab, 0x5be0cd19⟩

/-- The words of a state added one by one. -/
def State.add (x y : State) : State :=
  ⟨x.a + y.a, x.b + y.b, x.c + y.c, x.d + y.d, x.e + y.e, x.f + y.f, x.g + y.g, x.h + y.h⟩

/-- A word turned right by `n` bits. -/
def rotate (x n : UInt32) : UInt32 := (x >>> n) ||| (x <<< (32 - n))

/-- The next word of a block, from the words before it. -/
def expand (words : Array UInt32) : Array UInt32 :=
  let n := words.size
  let x := words.getD (n - 15) 0
  let y := words.getD (n - 2) 0
  let s0 := rotate x 7 ^^^ rotate x 18 ^^^ (x >>> 3)
  let s1 := rotate y 17 ^^^ rotate y 19 ^^^ (y >>> 10)
  words.push (words.getD (n - 16) 0 + s0 + words.getD (n - 7) 0 + s1)

/-- The 64 words of a block of sixteen. -/
def schedule (block : Array UInt32) : Array UInt32 :=
  (List.range 48).foldl (fun words _ => expand words) block

/-- One round with the word `w` of the block and the round's own word `k`. -/
def round (s : State) (w k : UInt32) : State :=
  let s1 := rotate s.e 6 ^^^ rotate s.e 11 ^^^ rotate s.e 25
  let choice := (s.e &&& s.f) ^^^ ((~~~ s.e) &&& s.g)
  let t1 := s.h + s1 + choice + k + w
  let s0 := rotate s.a 2 ^^^ rotate s.a 13 ^^^ rotate s.a 22
  let majority := (s.a &&& s.b) ^^^ (s.a &&& s.c) ^^^ (s.b &&& s.c)
  ⟨t1 + (s0 + majority), s.a, s.b, s.c, s.d + t1, s.e, s.f, s.g⟩

/-- The state after a block of sixteen words. -/
def compress (s : State) (block : Array UInt32) : State :=
  let words := schedule block
  s.add ((List.range 64).foldl (fun s i => round s (words.getD i 0) (roundWords.getD i 0)) s)

/-- The `count` low bytes of a number, the highest first. -/
def bigEndian : (count : Nat) → Nat → List UInt8
  | 0, _ => []
  | count + 1, n => UInt8.ofNat (n / 256 ^ count) :: bigEndian count n

/-- The bytes followed by a set bit, zeros, and the length in bits. -/
def padded (bytes : ByteArray) : ByteArray :=
  let zeros := (119 - bytes.size % 64) % 64
  let tail := 0x80 :: (List.replicate zeros 0 ++ bigEndian 8 (8 * bytes.size))
  tail.foldl ByteArray.push bytes

/-- A byte of a sequence; zero beyond its end. -/
def byteAt (bytes : ByteArray) (i : Nat) : UInt32 :=
  if h : i < bytes.size then bytes[i].toUInt32 else 0

/-- The word at an index, the highest byte first. -/
def wordAt (bytes : ByteArray) (i : Nat) : UInt32 :=
  (byteAt bytes i <<< 24) ||| (byteAt bytes (i + 1) <<< 16) |||
    (byteAt bytes (i + 2) <<< 8) ||| byteAt bytes (i + 3)

/-- The sixteen words of the block with a number. -/
def blockAt (bytes : ByteArray) (n : Nat) : Array UInt32 :=
  ((List.range 16).map fun i => wordAt bytes (64 * n + 4 * i)).toArray

/-- The state after all blocks. -/
def digest (bytes : ByteArray) : State :=
  let bytes := padded bytes
  (List.range (bytes.size / 64)).foldl (fun s n => compress s (blockAt bytes n)) initial

/-- The eight hexadecimal digits of a word. -/
def wordHex (x : UInt32) : List Char :=
  (bigEndian 4 x.toNat).flatMap fun b => [Text.lowerHex (b.toNat / 16), Text.lowerHex b.toNat]

/-- The digest as hexadecimal digits. -/
def hex (bytes : ByteArray) : String :=
  let s := digest bytes
  String.ofList ([s.a, s.b, s.c, s.d, s.e, s.f, s.g, s.h].flatMap wordHex)

end CachePolicy.Sha256
