/-!
# UTF-8

File contents are bytes.  `Utf8.units` cuts a byte sequence into units: a well-formed encoding of
one character, or a *maximal subpart* of an ill-formed one, that is, a lead byte with the
continuation bytes that may follow it, or one byte that can start nothing.  Strict decoding asks for
characters only; lenient decoding shows every ill-formed unit as one replacement character.
-/

namespace SymbolRename

abbrev Bytes := List UInt8

namespace Utf8

def encode (text : List Char) : Bytes :=
  text.flatMap String.utf8EncodeChar

/-- What a byte that starts a multi-byte character asks of its successors. -/
structure Lead where
  /-- The bits of the code point that the lead byte carries. -/
  bits : Nat
  /-- How many continuation bytes follow. -/
  owed : Nat
  /-- The least byte that may come next. -/
  low : UInt8
  /-- The greatest byte that may come next. -/
  high : UInt8

/-- The lead bytes.  The narrower bounds after `E0`, `ED`, `F0` and `F4` keep out overlong forms,
surrogates and values above `U+10FFFF`. -/
def lead? (b : UInt8) : Option Lead :=
  let n := b.toNat
  if n < 0xC2 then none
  else if n < 0xE0 then some ⟨n - 0xC0, 1, 0x80, 0xBF⟩
  else if n = 0xE0 then some ⟨0, 2, 0xA0, 0xBF⟩
  else if n = 0xED then some ⟨0xD, 2, 0x80, 0x9F⟩
  else if n < 0xF0 then some ⟨n - 0xE0, 2, 0x80, 0xBF⟩
  else if n = 0xF0 then some ⟨0, 3, 0x90, 0xBF⟩
  else if n < 0xF4 then some ⟨n - 0xF0, 3, 0x80, 0xBF⟩
  else if n = 0xF4 then some ⟨4, 3, 0x80, 0x8F⟩
  else none

/-- A unit of a byte sequence: its character, if it is well formed, and its length in bytes. -/
structure Piece where
  char? : Option Char
  size : Nat
  deriving DecidableEq, Repr

/-- Reads the continuation bytes that `lead` asks for, as far as they go. -/
def continuation (lead : Lead) : Bytes → Piece
  | [] => ⟨if lead.owed = 0 then some (Char.ofNat lead.bits) else none, 0⟩
  | b :: rest =>
    if lead.owed = 0 then ⟨some (Char.ofNat lead.bits), 0⟩
    else if lead.low ≤ b ∧ b ≤ lead.high then
      let tail := continuation ⟨lead.bits * 64 + (b.toNat - 0x80), lead.owed - 1, 0x80, 0xBF⟩ rest
      ⟨tail.char?, tail.size + 1⟩
    else ⟨none, 0⟩

/-- The unit that starts with `b` when `rest` follows. -/
def firstPiece (b : UInt8) (rest : Bytes) : Piece :=
  if b < 0x80 then ⟨some (Char.ofNat b.toNat), 1⟩
  else match lead? b with
    | none => ⟨none, 1⟩
    | some lead =>
      let tail := continuation lead rest
      ⟨tail.char?, tail.size + 1⟩

def pieces : Bytes → List Piece
  | [] => []
  | b :: rest =>
    let piece := firstPiece b rest
    piece :: pieces (rest.drop (piece.size - 1))
termination_by bytes => bytes.length
decreasing_by simp only [List.length_drop, List.length_cons]; omega

/-- Whether the bytes encode a text. -/
def valid (bytes : Bytes) : Bool :=
  (pieces bytes).all fun piece ↦ piece.char?.isSome

/-- The number of bytes before the first ill-formed unit. -/
def wellFormedSize : List Piece → Nat
  | [] => 0
  | piece :: rest => if piece.char?.isSome then piece.size + wellFormedSize rest else 0

/-- The length of the longest well-formed start of the bytes. -/
def validUpTo (bytes : Bytes) : Nat :=
  wellFormedSize (pieces bytes)

/-- The text of the bytes, with `U+FFFD` for every ill-formed unit. -/
def decodeLossy (bytes : Bytes) : List Char :=
  (pieces bytes).map fun piece ↦ piece.char?.getD '\uFFFD'

/-- The text that the bytes encode, if they encode one. -/
def decode? (bytes : Bytes) : Option (List Char) :=
  if valid bytes then some (decodeLossy bytes) else none

end Utf8
end SymbolRename
