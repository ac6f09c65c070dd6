import SymbolRename.Proofs.Text.Exactness

/-!
# Units do not reach over a boundary

A unit grows by continuation bytes only.  Where the next byte is none, the bytes before and behind
can be cut into units apart from each other.  In particular no unit takes an ASCII byte in, and a
unit of several bytes stands for no ASCII character.
-/

namespace SymbolRename
namespace Utf8

def isContinuation (b : UInt8) : Bool := 0x80 ≤ b && b ≤ 0xBF

/-- The bytes do not start in the middle of a character. -/
def StartsUnit (bytes : Bytes) : Prop := ∀ b ∈ bytes.head?, isContinuation b = false

instance (bytes : Bytes) : Decidable (StartsUnit bytes) :=
  Option.decidableForallMem bytes.head?

/-- The lead asks for continuation bytes and nothing else. -/
structure Lead.Narrow (lead : Lead) : Prop where
  low : 0x80 ≤ lead.low
  high : lead.high ≤ 0xBF

theorem narrow_plain (bits owed : Nat) : Lead.Narrow ⟨bits, owed, 0x80, 0xBF⟩ :=
  ⟨UInt8.le_refl _, UInt8.le_refl _⟩

theorem narrow_of_lead? {b : UInt8} {lead : Lead} (h : lead? b = some lead) : lead.Narrow := by
  simp only [lead?] at h
  repeat' split at h
  all_goals simp only [reduceCtorEq, Option.some.injEq] at h
  all_goals
    subst h
    constructor <;> dsimp only <;> decide

theorem Lead.Narrow.isContinuation {lead : Lead} {b : UInt8} (narrow : lead.Narrow)
    (h : lead.low ≤ b ∧ b ≤ lead.high) : Utf8.isContinuation b = true := by
  rw [Utf8.isContinuation, Bool.and_eq_true, decide_eq_true_eq, decide_eq_true_eq]
  exact ⟨UInt8.le_trans narrow.low h.1, UInt8.le_trans h.2 narrow.high⟩

/-! ## Units on either side of a boundary -/

theorem continuation_of_startsUnit {lead : Lead} {bytes : Bytes} (narrow : lead.Narrow)
    (h : StartsUnit bytes) : continuation lead bytes = continuation lead [] := by
  cases bytes with
  | nil => rfl
  | cons b rest =>
      have hrange : ¬(lead.low ≤ b ∧ b ≤ lead.high) := by
        intro hrange
        have hb := h b rfl
        rw [narrow.isContinuation hrange] at hb
        cases hb
      by_cases howed : lead.owed = 0
      · simp [continuation, howed]
      · simp [continuation, howed, hrange]

theorem continuation_append {lead : Lead} (bytes : Bytes) {after : Bytes} (narrow : lead.Narrow)
    (h : StartsUnit after) : continuation lead (bytes ++ after) = continuation lead bytes := by
  induction bytes generalizing lead with
  | nil => exact continuation_of_startsUnit narrow h
  | cons b bytes ih =>
      rw [List.cons_append, continuation, continuation, ih (narrow_plain _ _)]

theorem firstPiece_append (b : UInt8) (bytes : Bytes) {after : Bytes} (h : StartsUnit after) :
    firstPiece b (bytes ++ after) = firstPiece b bytes := by
  simp only [firstPiece]
  split
  · rfl
  · cases hlead : lead? b with
    | none => rfl
    | some lead => simp only [continuation_append bytes (narrow_of_lead? hlead) h]

theorem size_continuation_le (lead : Lead) (bytes : Bytes) :
    (continuation lead bytes).size ≤ bytes.length := by
  induction bytes generalizing lead with
  | nil => exact Nat.le_refl 0
  | cons b bytes ih =>
      rw [continuation]
      split
      · exact Nat.zero_le _
      · split
        · exact Nat.succ_le_succ (ih _)
        · exact Nat.zero_le _

theorem size_firstPiece_le (b : UInt8) (bytes : Bytes) :
    (firstPiece b bytes).size - 1 ≤ bytes.length := by
  simp only [firstPiece]
  split
  · exact Nat.zero_le _
  · split
    · exact Nat.zero_le _
    · exact size_continuation_le _ bytes

theorem pieces_append (bytes : Bytes) {after : Bytes} (h : StartsUnit after) :
    pieces (bytes ++ after) = pieces bytes ++ pieces after := by
  induction bytes using pieces.induct with
  | case1 => simp [pieces]
  | case2 b rest piece ih =>
      have hdrop : (rest ++ after).drop ((firstPiece b rest).size - 1) =
          rest.drop ((firstPiece b rest).size - 1) ++ after :=
        List.drop_append_of_le_length (size_firstPiece_le b rest)
      rw [List.cons_append, pieces, firstPiece_append b rest h, hdrop, ih, pieces, List.cons_append]

theorem valid_append (bytes : Bytes) {after : Bytes} (h : StartsUnit after) :
    valid (bytes ++ after) = (valid bytes && valid after) := by
  rw [valid, pieces_append bytes h, List.all_append]
  rfl

theorem decodeLossy_append (bytes : Bytes) {after : Bytes} (h : StartsUnit after) :
    decodeLossy (bytes ++ after) = decodeLossy bytes ++ decodeLossy after := by
  rw [decodeLossy, pieces_append bytes h, List.map_append]
  rfl

/-! ## ASCII bytes and ASCII characters -/

theorem isContinuation_of_mem_take {lead : Lead} {bytes : Bytes} {b : UInt8} (narrow : lead.Narrow)
    (h : b ∈ bytes.take (continuation lead bytes).size) : isContinuation b = true := by
  induction bytes generalizing lead with
  | nil => simp at h
  | cons first bytes ih =>
      rw [continuation] at h
      split at h
      · simp at h
      · split at h
        · next hrange =>
          rcases List.mem_cons.mp h with rfl | h
          · exact narrow.isContinuation hrange
          · exact ih (narrow_plain _ _) h
        · simp at h

theorem isContinuation_of_mem_unit {b b' : UInt8} {bytes : Bytes}
    (h : b' ∈ bytes.take ((firstPiece b bytes).size - 1)) : isContinuation b' = true := by
  simp only [firstPiece] at h
  split at h
  · simp at h
  · cases hlead : lead? b with
    | none => simp [hlead] at h
    | some lead =>
        simp only [hlead, Nat.add_sub_cancel] at h
        exact isContinuation_of_mem_take (narrow_of_lead? hlead) h

theorem firstPiece_not_ascii {b : UInt8} (bytes : Bytes) (h : 0x80 ≤ b.toNat) :
    0x80 ≤ ((firstPiece b bytes).char?.getD '\uFFFD').toNat := by
  cases hpiece : (firstPiece b bytes).char? with
  | none => decide
  | some c =>
      refine Nat.not_lt.mp fun hc ↦ ?_
      rw [Option.getD_some] at hc
      have hunit := append_of_firstPiece hpiece
      rw [utf8EncodeChar_of_ascii hc] at hunit
      have hb : b = UInt8.ofNat c.toNat := (List.cons_eq_cons.mp hunit).1
      rw [hb, toNat_ofNat (by omega)] at h
      omega

/-- The bytes that a unit takes in behind its first one are not ASCII. -/
theorem filter_ascii_drop_unit (b : UInt8) (bytes : Bytes) :
    (bytes.drop ((firstPiece b bytes).size - 1)).filter (· < 0x80) = bytes.filter (· < 0x80) := by
  generalize hsize : (firstPiece b bytes).size - 1 = size
  have hunit : (bytes.take size).filter (· < 0x80) = [] := by
    rw [List.filter_eq_nil_iff]
    intro b' hb'
    have hcontinues := isContinuation_of_mem_unit (hsize.symm ▸ hb')
    simp only [isContinuation, Bool.and_eq_true, decide_eq_true_eq] at hcontinues
    simpa using hcontinues.1
  calc (bytes.drop size).filter (· < 0x80)
    _ = (bytes.take size).filter (· < 0x80) ++ (bytes.drop size).filter (· < 0x80) := by
      rw [hunit, List.nil_append]
    _ = bytes.filter (· < 0x80) := by rw [← List.filter_append, List.take_append_drop]

theorem filter_ascii_decodeLossy (bytes : Bytes) :
    (decodeLossy bytes).filter (fun c ↦ c.toNat < 0x80) =
      (bytes.filter (· < 0x80)).map fun b ↦ Char.ofNat b.toNat := by
  induction bytes using pieces.induct with
  | case1 => simp [decodeLossy, pieces]
  | case2 b rest piece ih =>
      have htext : decodeLossy (b :: rest) = piece.char?.getD '\uFFFD' ::
          decodeLossy (rest.drop (piece.size - 1)) := by
        rw [decodeLossy, pieces]
        rfl
      -- what the unit takes in behind `b` is not ASCII, so only `b` itself is compared
      rw [filter_ascii_drop_unit b rest] at ih
      rw [htext]
      by_cases hb : b.toNat < 0x80
      · have hsmall : b < 0x80 := UInt8.lt_iff_toNat_lt.mpr hb
        have hcode : (Char.ofNat b.toNat).toNat = b.toNat := toNat_ofNat_char (by omega)
        have hchar : piece.char?.getD '\uFFFD' = Char.ofNat b.toNat := by
          rw [show piece = _ from firstPiece_one rest hb, Option.getD_some]
        rw [hchar, List.filter_cons_of_pos (by simpa [hcode] using hb), ih,
          List.filter_cons_of_pos (by simpa using hsmall), List.map_cons]
      · have hlarge : ¬b < 0x80 := mt UInt8.lt_iff_toNat_lt.mp hb
        have hchar := firstPiece_not_ascii rest (Nat.not_lt.mp hb)
        rw [List.filter_cons_of_neg (by simpa using hchar), ih,
          List.filter_cons_of_neg (by simpa using hlarge)]

end Utf8

/-- Lenient decoding can be done apart on either side of a byte that continues nothing.  The ASCII
characters of its result are the ASCII bytes, in their order. -/
theorem lenient_decoding_local (path : String) :
    (∀ before after, Utf8.StartsUnit after →
      ∃ first second, decodeFile .lenient path before = .ok first ∧
        decodeFile .lenient path after = .ok second ∧
        decodeFile .lenient path (before ++ after) =
          .ok ⟨first.text ++ second.text, first.lossy || second.lossy⟩) ∧
      ∀ raw, ∃ decoded, decodeFile .lenient path raw = .ok decoded ∧
        decoded.text.toList.filter (fun c ↦ c.toNat < 0x80) =
          (raw.filter (· < 0x80)).map fun b ↦ Char.ofNat b.toNat := by
  constructor
  · intro before after h
    refine ⟨_, _, decodeFile_lenient path before, decodeFile_lenient path after, ?_⟩
    rw [decodeFile_lenient, Utf8.decodeLossy_append before h, Utf8.valid_append before h,
      String.ofList_append, Bool.not_and]
  · intro raw
    refine ⟨_, decodeFile_lenient path raw, ?_⟩
    rw [String.toList_ofList, Utf8.filter_ascii_decodeLossy]

/-- A character of three bytes that is cut off behind its second byte does not take the `m` of the
name that follows. -/
theorem lenient_decoding_behind_cut_character :
    Utf8.StartsUnit [0x6D, 0x61, 0x5F] ∧
      ∃ first second, decodeFile .lenient "player.h" [0xE2, 0x82] = .ok first ∧
        decodeFile .lenient "player.h" [0x6D, 0x61, 0x5F] = .ok second ∧
        decodeFile .lenient "player.h" ([0xE2, 0x82] ++ [0x6D, 0x61, 0x5F]) =
          .ok ⟨first.text ++ second.text, first.lossy || second.lossy⟩ :=
  ⟨by decide, (lenient_decoding_local "player.h").1 [0xE2, 0x82] [0x6D, 0x61, 0x5F] (by decide)⟩

end SymbolRename
