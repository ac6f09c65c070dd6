import SymbolRename.Text.Hex
import SymbolRename.Text.Utf8

/-!
# SHA-256

The digest of a byte sequence, as 64 lowercase hexadecimal digits.  A message is padded to whole
blocks of 64 bytes; every block is expanded to 64 words and mixed into a state of eight words.
-/

namespace SymbolRename
namespace Sha256

/-- The eight chaining words. -/
structure State where
  a : UInt32
  b : UInt32
  c : UInt32
  d : UInt32
  e : UInt32
  f : UInt32
  g : UInt32
  h : UInt32
  deriving DecidableEq, Repr

/-- The first 32 bits of the fractional parts of the square roots of the first eight primes. -/
def initial : State :=
  ⟨0x6a09e667, 0xbb67ae85, 0x3c6ef372, 0xa54ff53a, 0x510e527f, 0x9b05688c, 0x1f83d9ab, 0x5be0cd19⟩

/-- The first 32 bits of the fractional parts of the cube roots of the first 64 primes. -/
def roundConstants : List UInt32 :=
  [0x428a2f98, 0x71374491, 0xb5c0fbcf, 0xe9b5dba5, 0x3956c25b, 0x59f111f1, 0x923f82a4, 0xab1c5ed5,
   0xd807aa98, 0x12835b01, 0x243185be, 0x550c7dc3, 0x72be5d74, 0x80deb1fe, 0x9bdc06a7, 0xc19bf174,
   0xe49b69c1, 0xefbe4786, 0x0fc19dc6, 0x240ca1cc, 0x2de92c6f, 0x4a7484aa, 0x5cb0a9dc, 0x76f988da,
   0x983e5152, 0xa831c66d, 0xb00327c8, 0xbf597fc7, 0xc6e00bf3, 0xd5a79147, 0x06ca6351, 0x14292967,
   0x27b70a85, 0x2e1b2138, 0x4d2c6dfc, 0x53380d13, 0x650a7354, 0x766a0abb, 0x81c2c92e, 0x92722c85,
   0xa2bfe8a1, 0xa81a664b, 0xc24b8b70, 0xc76c51a3, 0xd192e819, 0xd6990624, 0xf40e3585, 0x106aa070,
   0x19a4c116, 0x1e376c08, 0x2748774c, 0x34b0bcb5, 0x391c0cb3, 0x4ed8aa4a, 0x5b9cca4f, 0x682e6ff3,
   0x748f82ee, 0x78a5636f, 0x84c87814, 0x8cc70208, 0x90befffa, 0xa4506ceb, 0xbef9a3f7, 0xc67178f2]

def rotateRight (x n : UInt32) : UInt32 :=
  (x >>> n) ||| (x <<< (32 - n))

/-- The bytes of a number, most significant first. -/
def bigEndian (width n : Nat) : Bytes :=
  (List.range width).reverse.map fun i ↦ UInt8.ofNat (n >>> (8 * i))

/-- The message, one set bit, zeros up to eight bytes short of a whole block, and the length of the
message in bits. -/
def pad (message : Bytes) : Bytes :=
  let zeros := (119 - message.length % 64) % 64
  message ++ 0x80 :: List.replicate zeros 0 ++ bigEndian 8 (8 * message.length)

/-- Four bytes at a time, most significant first. -/
def words : Bytes → List UInt32
  | b₀ :: b₁ :: b₂ :: b₃ :: rest =>
    ((b₀.toUInt32 <<< 24) ||| (b₁.toUInt32 <<< 16) ||| (b₂.toUInt32 <<< 8) ||| b₃.toUInt32) ::
      words rest
  | _ => []

/-- Extends the message schedule by `n` words.  `recent` holds the words so far, newest first. -/
def extend : Nat → List UInt32 → List UInt32
  | 0, recent => recent
  | n + 1, recent =>
    let near := recent.getD 1 0
    let far := recent.getD 14 0
    let s₀ := rotateRight far 7 ^^^ rotateRight far 18 ^^^ (far >>> 3)
    let s₁ := rotateRight near 17 ^^^ rotateRight near 19 ^^^ (near >>> 10)
    extend n ((recent.getD 15 0 + s₀ + recent.getD 6 0 + s₁) :: recent)

def round (s : State) (constant word : UInt32) : State :=
  let s₁ := rotateRight s.e 6 ^^^ rotateRight s.e 11 ^^^ rotateRight s.e 25
  let choice := (s.e &&& s.f) ^^^ ((~~~s.e) &&& s.g)
  let t₁ := s.h + s₁ + choice + constant + word
  let s₀ := rotateRight s.a 2 ^^^ rotateRight s.a 13 ^^^ rotateRight s.a 22
  let majority := (s.a &&& s.b) ^^^ (s.a &&& s.c) ^^^ (s.b &&& s.c)
  ⟨t₁ + (s₀ + majority), s.a, s.b, s.c, s.d + t₁, s.e, s.f, s.g⟩

/-- Mixes one block of sixteen words into the state. -/
def compress (s : State) (block : List UInt32) : State :=
  let schedule := (extend 48 block.reverse).reverse
  let t := (roundConstants.zip schedule).foldl (fun t pair ↦ round t pair.1 pair.2) s
  ⟨s.a + t.a, s.b + t.b, s.c + t.c, s.d + t.d, s.e + t.e, s.f + t.f, s.g + t.g, s.h + t.h⟩

/-- Mixes the words in, sixteen at a time. -/
def absorb (s : State) (message : List UInt32) : State :=
  let block := message.take 16
  if block.length < 16 then s else absorb (compress s block) (message.drop 16)
termination_by message.length
decreasing_by
  rename_i h
  simp only [block, List.length_take] at h
  simp only [List.length_drop]
  omega

/-- The digest as it is shown in reports. -/
def hex (message : Bytes) : String :=
  let s := absorb initial (words (pad message))
  String.ofList <| [s.a, s.b, s.c, s.d, s.e, s.f, s.g, s.h].flatMap fun word ↦
    hexBytes (bigEndian 4 word.toNat)

example : hex [] = "e3b0c44298fc1c149afbf4c8996fb92427ae41e4649b934ca495991b7852b855" := by
  decide +kernel

-- the padding of 56 bytes takes a second block
example : hex (Utf8.encode "abcdbcdecdefdefgefghfghighijhijkijkljklmklmnlmnomnopnopq".toList) =
    "248d6a61d20638b8e5c026930c3e6039a33ce45964ff2167f6ecedd419db06c1" := by
  decide +kernel

end Sha256

/-- The SHA-256 digest of a byte sequence in lowercase hexadecimal. -/
abbrev sha256 (bytes : Bytes) : String := Sha256.hex bytes

end SymbolRename
