import Mathlib.Order.Bounds.Defs
import SymbolRename.Resolve
import SymbolRename.Proofs.Text.Decoding

/-!
# Where decoding goes wrong

Bytes that are no text are cut into the bytes of a text, as long as possible, and a rest that starts
with an ill-formed unit.  Strict decoding reports the length of the first part; lenient decoding
shows the text and a replacement character behind it.
-/

namespace SymbolRename
namespace Utf8

theorem validUpTo_encode_append (text : List Char) (rest : Bytes) :
    validUpTo (encode text ++ rest) = (encode text).length + validUpTo rest := by
  induction text with
  | nil => exact (Nat.zero_add _).symm
  | cons c text ih =>
      have hc : validUpTo (String.utf8EncodeChar c ++ (encode text ++ rest)) =
          (String.utf8EncodeChar c).length + validUpTo (encode text ++ rest) := by
        rw [validUpTo, pieces_utf8EncodeChar]
        rfl
      rw [encode_cons, List.append_assoc, hc, ih, List.length_append, Nat.add_assoc]

/-- Bytes that are no text start with an ill-formed unit behind the bytes of a text. -/
theorem exists_encode_append_of_not_valid {bytes : Bytes} (h : valid bytes = false) :
    ∃ text rest, bytes = encode text ++ rest ∧ validUpTo rest = 0 ∧
      ∃ later, decodeLossy rest = '\uFFFD' :: later := by
  induction bytes using pieces.induct with
  | case1 => simp [valid, pieces] at h
  | case2 b rest piece ih =>
      cases hpiece : (firstPiece b rest).char? with
      | none =>
          refine ⟨[], b :: rest, rfl, ?_, ?_⟩
          · rw [validUpTo, pieces, wellFormedSize, hpiece]
            rfl
          · rw [decodeLossy, pieces, List.map_cons, hpiece]
            exact ⟨_, rfl⟩
      | some c =>
          rw [valid, pieces, List.all_cons, hpiece, Option.isSome_some, Bool.true_and] at h
          obtain ⟨text, tail, htail, hstart, hlater⟩ := ih h
          refine ⟨c :: text, tail, ?_, hstart, hlater⟩
          rw [encode_cons, List.append_assoc, ← htail]
          exact append_of_firstPiece hpiece

theorem decodeLossy_encode_append (text : List Char) (rest : Bytes) :
    decodeLossy (encode text ++ rest) = text ++ decodeLossy rest := by
  rw [decodeLossy, pieces_encode_append, List.map_append, List.map_map]
  exact congrArg (· ++ decodeLossy rest) (List.map_id text)

/-- The lengths of the well-formed starts of a byte sequence. -/
def startLengths (bytes : Bytes) : Set Nat :=
  {n | ∃ text rest, bytes = encode text ++ rest ∧ (encode text).length = n}

theorem isGreatest_validUpTo {text : List Char} {rest : Bytes} (h : validUpTo rest = 0) :
    IsGreatest (startLengths (encode text ++ rest)) (encode text).length := by
  constructor
  · exact ⟨text, rest, rfl, rfl⟩
  · rintro n ⟨text', rest', hsplit, rfl⟩
    have hlength := validUpTo_encode_append text rest
    rw [h, hsplit, validUpTo_encode_append] at hlength
    omega

end Utf8

/-! ## Decoding a file -/

section

variable (path : String) {raw : Bytes}

theorem decodeFile_of_valid (policy : DecodePolicy) (h : Utf8.valid raw = true) :
    decodeFile policy path raw = .ok ⟨String.ofList (Utf8.decodeLossy raw), false⟩ := by
  simp [decodeFile, decodeBytes, h]

theorem decodeFile_encode (policy : DecodePolicy) (text : String) :
    decodeFile policy path (Utf8.encode text.toList) = .ok ⟨text, false⟩ := by
  rw [decodeFile, decodeBytes_encode, String.ofList_toList]

theorem decodeFile_strict_of_not_valid (h : Utf8.valid raw = false) :
    decodeFile .strict path raw = .error (.decode path (Utf8.validUpTo raw)) := by
  simp [decodeFile, decodeBytes, h]

theorem decodeFile_lenient (raw : Bytes) :
    decodeFile .lenient path raw =
      .ok ⟨String.ofList (Utf8.decodeLossy raw), !Utf8.valid raw⟩ := by
  cases hvalid : Utf8.valid raw <;> simp [decodeFile, decodeBytes, hvalid]

end

/-- Bytes are either those of a text, which both policies give back, or a text as long as possible
followed by an ill-formed unit: then strict decoding refuses them with the length of this start, and
lenient decoding goes on behind it with a replacement character.  What lenient decoding gives can be
encoded and decoded again. -/
theorem decodeFile_exact (path : String) (raw : Bytes) :
    (∀ text, decodeFile .strict path raw = .ok ⟨text, false⟩ ↔ Utf8.encode text.toList = raw) ∧
      ((∃ text, Utf8.encode text.toList = raw ∧ ∀ policy,
          decodeFile policy path raw = .ok ⟨text, false⟩) ∨
        ((∀ text : String, Utf8.encode text.toList ≠ raw) ∧
          ∃ n, IsGreatest (Utf8.startLengths raw) n ∧
            decodeFile .strict path raw = .error (.decode path n) ∧
            ∃ text later, Utf8.encode text = raw.take n ∧
              decodeFile .lenient path raw =
                .ok ⟨String.ofList (text ++ '\uFFFD' :: later), true⟩)) ∧
      ∃ decoded, decodeFile .lenient path raw = .ok decoded ∧
        ∀ policy path', decodeFile policy path' (Utf8.encode decoded.text.toList) =
          .ok ⟨decoded.text, false⟩ := by
  refine ⟨fun text ↦ ⟨fun h ↦ ?_, fun h ↦ h ▸ decodeFile_encode path .strict text⟩, ?_, ?_⟩
  · cases hvalid : Utf8.valid raw with
    | false => simp [decodeFile_strict_of_not_valid path hvalid] at h
    | true =>
        rw [decodeFile_of_valid path .strict hvalid] at h
        cases h
        rw [String.toList_ofList, Utf8.encode_decodeLossy hvalid]
  · cases hvalid : Utf8.valid raw with
    | true =>
        refine Or.inl ⟨_, ?_, fun policy ↦ decodeFile_of_valid path policy hvalid⟩
        rw [String.toList_ofList, Utf8.encode_decodeLossy hvalid]
    | false =>
        obtain ⟨text, rest, rfl, hstart, later, hlater⟩ :=
          Utf8.exists_encode_append_of_not_valid hvalid
        refine Or.inr ⟨?_, _, Utf8.isGreatest_validUpTo hstart, ?_, text, later, ?_, ?_⟩
        · intro text' htext'
          rw [← htext', Utf8.valid_encode] at hvalid
          cases hvalid
        · rw [decodeFile_strict_of_not_valid path hvalid, Utf8.validUpTo_encode_append, hstart,
            Nat.add_zero]
        · rw [List.take_left]
        · rw [decodeFile_lenient, hvalid, Utf8.decodeLossy_encode_append, hlater]
          rfl
  · exact ⟨_, decodeFile_lenient path raw, fun policy path' ↦ decodeFile_encode path' policy _⟩

end SymbolRename
