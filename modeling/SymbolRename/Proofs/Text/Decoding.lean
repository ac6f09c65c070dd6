import SymbolRename.Proofs.Text.Utf8

/-!
# Well-formed bytes

A unit that stands for a character is made of the bytes of that character.  So bytes are well formed
if and only if they are the bytes of a text, and this is the text that they decode to.
-/

namespace SymbolRename
namespace Utf8

/-! ## The character of a unit -/

theorem ofNat_eq_of_toNat {n : Nat} {b : UInt8} (h : n = b.toNat) : UInt8.ofNat n = b := by
  rw [h, UInt8.ofNat_toNat]

theorem toNat_ofNat_char {n : Nat} (h : n < 0xD800 ∨ 0xDFFF < n ∧ n < 0x110000) :
    (Char.ofNat n).val.toNat = n := by
  rw [Char.ofNat, dif_pos h]
  rfl

theorem utf8EncodeChar_one {b : UInt8} (h : b.toNat < 0x80) :
    String.utf8EncodeChar (Char.ofNat b.toNat) = [b] := by
  have hcode : (Char.ofNat b.toNat).val.toNat = b.toNat := toNat_ofNat_char (by omega)
  simp only [String.utf8EncodeChar, hcode]
  rw [if_pos (by omega), UInt8.ofNat_toNat]

theorem utf8EncodeChar_two {b b₁ : UInt8} (hlow : 0xC2 ≤ b.toNat) (hhigh : b.toNat < 0xE0)
    (h₁ : 0x80 ≤ b₁.toNat) (h₁' : b₁.toNat ≤ 0xBF) :
    String.utf8EncodeChar (Char.ofNat ((b.toNat - 0xC0) * 64 + (b₁.toNat - 0x80))) = [b, b₁] := by
  generalize hn : (b.toNat - 0xC0) * 64 + (b₁.toNat - 0x80) = n
  have hcode : (Char.ofNat n).val.toNat = n := toNat_ofNat_char (by omega)
  have hb : UInt8.ofNat (n / 64 % 32 + 192) = b := ofNat_eq_of_toNat (by omega)
  have hb₁ : UInt8.ofNat (n % 64 + 128) = b₁ := ofNat_eq_of_toNat (by omega)
  simp only [String.utf8EncodeChar, hcode]
  rw [if_neg (by omega), if_pos (by omega), hb, hb₁]

theorem utf8EncodeChar_three {b b₁ b₂ : UInt8} (hlow : 0xE0 ≤ b.toNat) (hhigh : b.toNat < 0xF0)
    (h₁ : 0x80 ≤ b₁.toNat) (h₁' : b₁.toNat ≤ 0xBF) (hfirst : b.toNat = 0xE0 → 0xA0 ≤ b₁.toNat)
    (hsurrogates : b.toNat = 0xED → b₁.toNat ≤ 0x9F) (h₂ : 0x80 ≤ b₂.toNat)
    (h₂' : b₂.toNat ≤ 0xBF) :
    String.utf8EncodeChar (Char.ofNat
      (((b.toNat - 0xE0) * 64 + (b₁.toNat - 0x80)) * 64 + (b₂.toNat - 0x80))) = [b, b₁, b₂] := by
  generalize hn : ((b.toNat - 0xE0) * 64 + (b₁.toNat - 0x80)) * 64 + (b₂.toNat - 0x80) = n
  have hcode : (Char.ofNat n).val.toNat = n := toNat_ofNat_char (by omega)
  have hb : UInt8.ofNat (n / 4096 % 16 + 224) = b := ofNat_eq_of_toNat (by omega)
  have hb₁ : UInt8.ofNat (n / 64 % 64 + 128) = b₁ := ofNat_eq_of_toNat (by omega)
  have hb₂ : UInt8.ofNat (n % 64 + 128) = b₂ := ofNat_eq_of_toNat (by omega)
  simp only [String.utf8EncodeChar, hcode]
  rw [if_neg (by omega), if_neg (by omega), if_pos (by omega), hb, hb₁, hb₂]

theorem utf8EncodeChar_four {b b₁ b₂ b₃ : UInt8} (hlow : 0xF0 ≤ b.toNat) (hhigh : b.toNat ≤ 0xF4)
    (h₁ : 0x80 ≤ b₁.toNat) (h₁' : b₁.toNat ≤ 0xBF) (hfirst : b.toNat = 0xF0 → 0x90 ≤ b₁.toNat)
    (hlast : b.toNat = 0xF4 → b₁.toNat ≤ 0x8F) (h₂ : 0x80 ≤ b₂.toNat) (h₂' : b₂.toNat ≤ 0xBF)
    (h₃ : 0x80 ≤ b₃.toNat) (h₃' : b₃.toNat ≤ 0xBF) :
    String.utf8EncodeChar (Char.ofNat ((((b.toNat - 0xF0) * 64 + (b₁.toNat - 0x80)) * 64 +
      (b₂.toNat - 0x80)) * 64 + (b₃.toNat - 0x80))) = [b, b₁, b₂, b₃] := by
  generalize hn : (((b.toNat - 0xF0) * 64 + (b₁.toNat - 0x80)) * 64 + (b₂.toNat - 0x80)) * 64 +
    (b₃.toNat - 0x80) = n
  have hcode : (Char.ofNat n).val.toNat = n := toNat_ofNat_char (by omega)
  have hb : UInt8.ofNat (n / 262144 % 8 + 240) = b := ofNat_eq_of_toNat (by omega)
  have hb₁ : UInt8.ofNat (n / 4096 % 64 + 128) = b₁ := ofNat_eq_of_toNat (by omega)
  have hb₂ : UInt8.ofNat (n / 64 % 64 + 128) = b₂ := ofNat_eq_of_toNat (by omega)
  have hb₃ : UInt8.ofNat (n % 64 + 128) = b₃ := ofNat_eq_of_toNat (by omega)
  simp only [String.utf8EncodeChar, hcode]
  rw [if_neg (by omega), if_neg (by omega), if_neg (by omega), hb, hb₁, hb₂, hb₃]

/-! ## Units that are well formed -/

/-- A lead byte that owes something is followed by a byte within its bounds. -/
theorem exists_of_continuation {bits owed : Nat} {low high : UInt8} {rest : Bytes} {c : Char}
    (h : (continuation ⟨bits, owed + 1, low, high⟩ rest).char? = some c) :
    ∃ b tail, rest = b :: tail ∧ low.toNat ≤ b.toNat ∧ b.toNat ≤ high.toNat ∧
      (continuation ⟨bits * 64 + (b.toNat - 0x80), owed, 0x80, 0xBF⟩ tail).char? = some c := by
  cases rest with
  | nil => simp [continuation] at h
  | cons b tail =>
      by_cases hrange : low ≤ b ∧ b ≤ high
      · have hlow := UInt8.le_iff_toNat_le.mp hrange.1
        have hhigh := UInt8.le_iff_toNat_le.mp hrange.2
        rw [continuation_cons bits owed tail hlow hhigh] at h
        exact ⟨b, tail, rfl, hlow, hhigh, h⟩
      · simp [continuation, hrange] at h

theorem le_of_ite_le {p : Prop} [Decidable p] {low high : UInt8} {n : Nat}
    (hle : low.toNat ≤ high.toNat) (h : (if p then high else low).toNat ≤ n) :
    low.toNat ≤ n ∧ (p → high.toNat ≤ n) := by
  split at h
  · exact ⟨Nat.le_trans hle h, fun _ ↦ h⟩
  · next hp => exact ⟨h, fun hp' ↦ absurd hp' hp⟩

theorem le_of_le_ite {p : Prop} [Decidable p] {low high : UInt8} {n : Nat}
    (hle : low.toNat ≤ high.toNat) (h : n ≤ (if p then low else high).toNat) :
    n ≤ high.toNat ∧ (p → n ≤ low.toNat) := by
  split at h
  · exact ⟨Nat.le_trans h hle, fun _ ↦ h⟩
  · next hp => exact ⟨h, fun hp' ↦ absurd hp' hp⟩

theorem eq_of_continuation_done {bits : Nat} {low high : UInt8} {rest : Bytes} {c : Char}
    (h : (continuation ⟨bits, 0, low, high⟩ rest).char? = some c) : c = Char.ofNat bits := by
  rw [continuation_done rfl] at h
  exact (Option.some.inj h).symm

theorem firstPiece_char?_eq_none {b : UInt8} (rest : Bytes) (hlarge : 0x80 ≤ b.toNat)
    (h : b.toNat < 0xC2 ∨ 0xF4 < b.toNat) : (firstPiece b rest).char? = none := by
  have hnot : ¬b < 0x80 := by
    rw [UInt8.lt_iff_toNat_lt]
    exact Nat.not_lt.mpr hlarge
  have hlead : lead? b = none := by
    simp only [lead?]
    split
    · rfl
    · rw [if_neg (by omega), if_neg (by omega), if_neg (by omega), if_neg (by omega),
        if_neg (by omega), if_neg (by omega), if_neg (by omega)]
  simp [firstPiece, hnot, hlead]

section FirstPiece

variable {b : UInt8} {rest : Bytes} {c : Char} (h : (firstPiece b rest).char? = some c)

include h

theorem exists_of_firstPiece_two (hlow : 0xC2 ≤ b.toNat) (hhigh : b.toNat < 0xE0) :
    ∃ tail, b :: rest = String.utf8EncodeChar c ++ tail := by
  rw [firstPiece_of_lead rest (by omega) (lead?_two hlow hhigh)] at h
  obtain ⟨b₁, tail, rfl, h₁, h₁', h⟩ := exists_of_continuation h
  have hc := eq_of_continuation_done h
  refine ⟨tail, ?_⟩
  rw [hc, utf8EncodeChar_two hlow hhigh h₁ h₁']
  rfl

theorem exists_of_firstPiece_three (hlow : 0xE0 ≤ b.toNat) (hhigh : b.toNat < 0xF0) :
    ∃ tail, b :: rest = String.utf8EncodeChar c ++ tail := by
  rw [firstPiece_of_lead rest (by omega) (lead?_three hlow hhigh)] at h
  obtain ⟨b₁, rest, rfl, hbelow, habove, h⟩ := exists_of_continuation h
  obtain ⟨b₂, tail, rfl, h₂, h₂', h⟩ := exists_of_continuation h
  have hc := eq_of_continuation_done h
  obtain ⟨h₁, hfirst⟩ := le_of_ite_le (by decide) hbelow
  obtain ⟨h₁', hsurrogates⟩ := le_of_le_ite (by decide) habove
  refine ⟨tail, ?_⟩
  rw [hc, utf8EncodeChar_three hlow hhigh h₁ h₁' hfirst hsurrogates h₂ h₂']
  rfl

theorem exists_of_firstPiece_four (hlow : 0xF0 ≤ b.toNat) (hhigh : b.toNat ≤ 0xF4) :
    ∃ tail, b :: rest = String.utf8EncodeChar c ++ tail := by
  rw [firstPiece_of_lead rest (by omega) (lead?_four hlow hhigh)] at h
  obtain ⟨b₁, rest, rfl, hbelow, habove, h⟩ := exists_of_continuation h
  obtain ⟨b₂, rest, rfl, h₂, h₂', h⟩ := exists_of_continuation h
  obtain ⟨b₃, tail, rfl, h₃, h₃', h⟩ := exists_of_continuation h
  have hc := eq_of_continuation_done h
  obtain ⟨h₁, hfirst⟩ := le_of_ite_le (by decide) hbelow
  obtain ⟨h₁', hlast⟩ := le_of_le_ite (by decide) habove
  refine ⟨tail, ?_⟩
  rw [hc, utf8EncodeChar_four hlow hhigh h₁ h₁' hfirst hlast h₂ h₂' h₃ h₃']
  rfl

/-- A unit that stands for a character is made of the bytes of that character. -/
theorem append_of_firstPiece :
    b :: rest = String.utf8EncodeChar c ++ rest.drop ((firstPiece b rest).size - 1) := by
  have hexists : ∃ tail, b :: rest = String.utf8EncodeChar c ++ tail := by
    by_cases hone : b.toNat < 0x80
    · rw [firstPiece_one rest hone] at h
      have hc := Option.some.inj h
      exact ⟨rest, by rw [← hc, utf8EncodeChar_one hone]; rfl⟩
    · by_cases hlead : b.toNat < 0xC2 ∨ 0xF4 < b.toNat
      · rw [firstPiece_char?_eq_none rest (by omega) hlead] at h
        cases h
      · by_cases htwo : b.toNat < 0xE0
        · exact exists_of_firstPiece_two h (by omega) htwo
        · by_cases hthree : b.toNat < 0xF0
          · exact exists_of_firstPiece_three h (by omega) hthree
          · exact exists_of_firstPiece_four h (by omega) (by omega)
  obtain ⟨tail, htail⟩ := hexists
  have hpieces := pieces_utf8EncodeChar c tail
  rw [← htail, pieces] at hpieces
  have hpiece := (List.cons_eq_cons.mp hpieces).1
  have hpos : 0 < (String.utf8EncodeChar c).length := by
    rw [String.length_utf8EncodeChar]
    exact c.utf8Size_pos
  have hdrop : rest.drop ((String.utf8EncodeChar c).length - 1) = tail := by
    have h := congrArg (List.drop (String.utf8EncodeChar c).length) htail
    rwa [List.drop_left, ← Nat.sub_add_cancel hpos, List.drop_succ_cons] at h
  rw [hpiece, hdrop]
  exact htail

end FirstPiece

/-! ## Well-formed bytes -/

theorem encode_decodeLossy {bytes : Bytes} (h : valid bytes = true) :
    encode (decodeLossy bytes) = bytes := by
  induction bytes using pieces.induct with
  | case1 => simp [decodeLossy, pieces, encode]
  | case2 b rest piece ih =>
      rw [valid, pieces, List.all_cons, Bool.and_eq_true] at h
      obtain ⟨c, hc⟩ := Option.isSome_iff_exists.mp h.1
      have htext : decodeLossy (b :: rest) =
          c :: decodeLossy (rest.drop ((firstPiece b rest).size - 1)) := by
        rw [decodeLossy, pieces, List.map_cons, hc]
        rfl
      calc encode (decodeLossy (b :: rest))
        _ = String.utf8EncodeChar c ++
            encode (decodeLossy (rest.drop ((firstPiece b rest).size - 1))) := by
          rw [htext, encode, List.flatMap_cons]
          rfl
        _ = b :: rest := by rw [ih h.2, ← append_of_firstPiece hc]

theorem valid_iff_exists_encode {bytes : Bytes} :
    valid bytes = true ↔ ∃ text, encode text = bytes := by
  constructor
  · intro h
    exact ⟨decodeLossy bytes, encode_decodeLossy h⟩
  · rintro ⟨text, rfl⟩
    exact valid_encode text

end Utf8
end SymbolRename
