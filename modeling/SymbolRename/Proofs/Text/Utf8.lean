import SymbolRename.Source

/-!
# Decoding what was encoded

The bytes of a text are cut into one well-formed unit for every character of it, so that decoding
them under any policy gives the text back.  The units are read off the bytes by the value of the
lead byte; the narrower bounds behind some lead bytes are met because a character is neither encoded
in too many bytes nor a surrogate nor too large.
-/

namespace SymbolRename
namespace Utf8

theorem lead?_two {b : UInt8} (hlow : 0xC2 ≤ b.toNat) (hhigh : b.toNat < 0xE0) :
    lead? b = some ⟨b.toNat - 0xC0, 1, 0x80, 0xBF⟩ := by
  simp only [lead?]
  rw [if_neg (by omega), if_pos hhigh]

theorem lead?_three {b : UInt8} (hlow : 0xE0 ≤ b.toNat) (hhigh : b.toNat < 0xF0) :
    lead? b = some ⟨b.toNat - 0xE0, 2, if b.toNat = 0xE0 then 0xA0 else 0x80,
      if b.toNat = 0xED then 0x9F else 0xBF⟩ := by
  simp only [lead?]
  rw [if_neg (by omega), if_neg (by omega)]
  by_cases hfirst : b.toNat = 0xE0
  · simp [hfirst]
  · by_cases hsurrogates : b.toNat = 0xED
    · simp [hsurrogates]
    · simp [hfirst, hsurrogates, hhigh]

theorem lead?_four {b : UInt8} (hlow : 0xF0 ≤ b.toNat) (hhigh : b.toNat ≤ 0xF4) :
    lead? b = some ⟨b.toNat - 0xF0, 3, if b.toNat = 0xF0 then 0x90 else 0x80,
      if b.toNat = 0xF4 then 0x8F else 0xBF⟩ := by
  simp only [lead?]
  rw [if_neg (by omega), if_neg (by omega), if_neg (by omega), if_neg (by omega),
    if_neg (by omega)]
  by_cases hfirst : b.toNat = 0xF0
  · simp [hfirst]
  · by_cases hlast : b.toNat = 0xF4
    · simp [hlast]
    · rw [if_neg hfirst, if_pos (by omega), if_neg hfirst, if_neg hlast]

theorem continuation_done {lead : Lead} (h : lead.owed = 0) (rest : Bytes) :
    continuation lead rest = ⟨some (Char.ofNat lead.bits), 0⟩ := by
  cases rest <;> simp [continuation, h]

theorem continuation_cons (bits owed : Nat) {low high b : UInt8} (rest : Bytes)
    (hlow : low.toNat ≤ b.toNat) (hhigh : b.toNat ≤ high.toNat) :
    continuation ⟨bits, owed + 1, low, high⟩ (b :: rest) =
      ⟨(continuation ⟨bits * 64 + (b.toNat - 0x80), owed, 0x80, 0xBF⟩ rest).char?,
        (continuation ⟨bits * 64 + (b.toNat - 0x80), owed, 0x80, 0xBF⟩ rest).size + 1⟩ := by
  have hrange : low ≤ b ∧ b ≤ high :=
    ⟨UInt8.le_iff_toNat_le.mpr hlow, UInt8.le_iff_toNat_le.mpr hhigh⟩
  simp [continuation, hrange]

theorem continuation_cons_plain (bits owed : Nat) {b : UInt8} (rest : Bytes)
    (hlow : 0x80 ≤ b.toNat) (hhigh : b.toNat ≤ 0xBF) :
    continuation ⟨bits, owed + 1, 0x80, 0xBF⟩ (b :: rest) =
      ⟨(continuation ⟨bits * 64 + (b.toNat - 0x80), owed, 0x80, 0xBF⟩ rest).char?,
        (continuation ⟨bits * 64 + (b.toNat - 0x80), owed, 0x80, 0xBF⟩ rest).size + 1⟩ :=
  continuation_cons bits owed rest hlow hhigh

theorem firstPiece_of_lead {b : UInt8} {lead : Lead} (rest : Bytes) (hlarge : 0x80 ≤ b.toNat)
    (hlead : lead? b = some lead) :
    firstPiece b rest = ⟨(continuation lead rest).char?, (continuation lead rest).size + 1⟩ := by
  have hnot : ¬b < 0x80 := by
    rw [UInt8.lt_iff_toNat_lt]
    exact Nat.not_lt.mpr hlarge
  simp [firstPiece, hnot, hlead]

/-! ## Units by length -/

theorem firstPiece_one {b : UInt8} (rest : Bytes) (h : b.toNat < 0x80) :
    firstPiece b rest = ⟨some (Char.ofNat b.toNat), 1⟩ := by
  have hsmall : b < 0x80 := UInt8.lt_iff_toNat_lt.mpr h
  simp [firstPiece, hsmall]

theorem firstPiece_two {b b₁ : UInt8} (rest : Bytes) (hlow : 0xC2 ≤ b.toNat)
    (hhigh : b.toNat < 0xE0) (h₁ : 0x80 ≤ b₁.toNat) (h₁' : b₁.toNat ≤ 0xBF) :
    firstPiece b (b₁ :: rest) =
      ⟨some (Char.ofNat ((b.toNat - 0xC0) * 64 + (b₁.toNat - 0x80))), 2⟩ := by
  rw [firstPiece_of_lead _ (by omega) (lead?_two hlow hhigh)]
  rw [continuation_cons_plain _ 0 rest h₁ h₁', continuation_done rfl]

theorem firstPiece_three {b b₁ b₂ : UInt8} (rest : Bytes) (hlow : 0xE0 ≤ b.toNat)
    (hhigh : b.toNat < 0xF0) (h₁ : 0x80 ≤ b₁.toNat) (h₁' : b₁.toNat ≤ 0xBF)
    (hfirst : b.toNat = 0xE0 → 0xA0 ≤ b₁.toNat) (hsurrogates : b.toNat = 0xED → b₁.toNat ≤ 0x9F)
    (h₂ : 0x80 ≤ b₂.toNat) (h₂' : b₂.toNat ≤ 0xBF) :
    firstPiece b (b₁ :: b₂ :: rest) =
      ⟨some (Char.ofNat
        (((b.toNat - 0xE0) * 64 + (b₁.toNat - 0x80)) * 64 + (b₂.toNat - 0x80))), 3⟩ := by
  have hbelow : (if b.toNat = 0xE0 then 0xA0 else 0x80 : UInt8).toNat ≤ b₁.toNat := by
    split
    · next h => exact hfirst h
    · exact h₁
  have habove : b₁.toNat ≤ (if b.toNat = 0xED then 0x9F else 0xBF : UInt8).toNat := by
    split
    · next h => exact hsurrogates h
    · exact h₁'
  rw [firstPiece_of_lead _ (by omega) (lead?_three hlow hhigh)]
  rw [continuation_cons _ 1 _ hbelow habove, continuation_cons_plain _ 0 rest h₂ h₂',
    continuation_done rfl]

theorem firstPiece_four {b b₁ b₂ b₃ : UInt8} (rest : Bytes) (hlow : 0xF0 ≤ b.toNat)
    (hhigh : b.toNat ≤ 0xF4) (h₁ : 0x80 ≤ b₁.toNat) (h₁' : b₁.toNat ≤ 0xBF)
    (hfirst : b.toNat = 0xF0 → 0x90 ≤ b₁.toNat) (hlast : b.toNat = 0xF4 → b₁.toNat ≤ 0x8F)
    (h₂ : 0x80 ≤ b₂.toNat) (h₂' : b₂.toNat ≤ 0xBF)
    (h₃ : 0x80 ≤ b₃.toNat) (h₃' : b₃.toNat ≤ 0xBF) :
    firstPiece b (b₁ :: b₂ :: b₃ :: rest) =
      ⟨some (Char.ofNat ((((b.toNat - 0xF0) * 64 + (b₁.toNat - 0x80)) * 64 +
        (b₂.toNat - 0x80)) * 64 + (b₃.toNat - 0x80))), 4⟩ := by
  have hbelow : (if b.toNat = 0xF0 then 0x90 else 0x80 : UInt8).toNat ≤ b₁.toNat := by
    split
    · next h => exact hfirst h
    · exact h₁
  have habove : b₁.toNat ≤ (if b.toNat = 0xF4 then 0x8F else 0xBF : UInt8).toNat := by
    split
    · next h => exact hlast h
    · exact h₁'
  rw [firstPiece_of_lead _ (by omega) (lead?_four hlow hhigh)]
  rw [continuation_cons _ 2 _ hbelow habove, continuation_cons_plain _ 1 _ h₂ h₂',
    continuation_cons_plain _ 0 rest h₃ h₃', continuation_done rfl]

/-! ## The bytes of a character -/

theorem toNat_ofNat {n : Nat} (h : n < 256) : (UInt8.ofNat n).toNat = n := by
  simp [Nat.mod_eq_of_lt h]

theorem utf8EncodeChar_of_ascii {c : Char} (h : c.toNat < 0x80) :
    String.utf8EncodeChar c = [UInt8.ofNat c.toNat] := by
  change c.val.toNat < 0x80 at h
  simp only [String.utf8EncodeChar]
  rw [if_pos (by omega)]
  rfl

/-- The bytes of a character are one unit, whatever follows them. -/
theorem pieces_utf8EncodeChar (c : Char) (rest : Bytes) :
    pieces (String.utf8EncodeChar c ++ rest) =
      ⟨some c, (String.utf8EncodeChar c).length⟩ :: pieces rest := by
  have hvalid : c.toNat < 0xD800 ∨ 0xDFFF < c.toNat ∧ c.toNat < 0x110000 := c.valid
  have hofNat : Char.ofNat c.toNat = c := Char.ofNat_toNat c
  have hval : c.val.toNat = c.toNat := rfl
  simp only [String.utf8EncodeChar, hval]
  generalize hn : c.toNat = n at hvalid hofNat
  split
  · next hone =>
    have hb : (UInt8.ofNat n).toNat = n := toNat_ofNat (by omega)
    have hpiece := firstPiece_one rest (show (UInt8.ofNat n).toNat < 0x80 by omega)
    simp only [List.cons_append, List.nil_append]
    rw [pieces, hpiece, hb, hofNat]
    rfl
  · split
    · next htwo =>
      have hb : (UInt8.ofNat (n / 64 % 0x20 + 0xc0)).toNat = n / 64 + 0xc0 := by
        rw [toNat_ofNat (by omega)]
        omega
      have hb₁ : (UInt8.ofNat (n % 0x40 + 0x80)).toNat = n % 0x40 + 0x80 := toNat_ofNat (by omega)
      have hpiece := @firstPiece_two (UInt8.ofNat (n / 64 % 0x20 + 0xc0))
        (UInt8.ofNat (n % 0x40 + 0x80)) rest (by omega) (by omega) (by omega) (by omega)
      have hcode : (n / 64 + 0xc0 - 0xC0) * 64 + (n % 0x40 + 0x80 - 0x80) = n := by omega
      simp only [List.cons_append, List.nil_append]
      rw [pieces, hpiece, hb, hb₁, hcode, hofNat]
      rfl
    · split
      · next hthree =>
        have hb : (UInt8.ofNat (n / 4096 % 0x10 + 0xe0)).toNat = n / 4096 + 0xe0 := by
          rw [toNat_ofNat (by omega)]
          omega
        have hb₁ : (UInt8.ofNat (n / 64 % 0x40 + 0x80)).toNat = n / 64 % 0x40 + 0x80 :=
          toNat_ofNat (by omega)
        have hb₂ : (UInt8.ofNat (n % 0x40 + 0x80)).toNat = n % 0x40 + 0x80 :=
          toNat_ofNat (by omega)
        have hpiece := @firstPiece_three (UInt8.ofNat (n / 4096 % 0x10 + 0xe0))
          (UInt8.ofNat (n / 64 % 0x40 + 0x80)) (UInt8.ofNat (n % 0x40 + 0x80)) rest
          (by omega) (by omega) (by omega) (by omega) (by omega) (by omega) (by omega) (by omega)
        have hcode : ((n / 4096 + 0xe0 - 0xE0) * 64 + (n / 64 % 0x40 + 0x80 - 0x80)) * 64 +
            (n % 0x40 + 0x80 - 0x80) = n := by
          omega
        simp only [List.cons_append, List.nil_append]
        rw [pieces, hpiece, hb, hb₁, hb₂, hcode, hofNat]
        rfl
      · next hfour =>
        have hb : (UInt8.ofNat (n / 262144 % 0x08 + 0xf0)).toNat = n / 262144 + 0xf0 := by
          rw [toNat_ofNat (by omega)]
          omega
        have hb₁ : (UInt8.ofNat (n / 4096 % 0x40 + 0x80)).toNat = n / 4096 % 0x40 + 0x80 :=
          toNat_ofNat (by omega)
        have hb₂ : (UInt8.ofNat (n / 64 % 0x40 + 0x80)).toNat = n / 64 % 0x40 + 0x80 :=
          toNat_ofNat (by omega)
        have hb₃ : (UInt8.ofNat (n % 0x40 + 0x80)).toNat = n % 0x40 + 0x80 :=
          toNat_ofNat (by omega)
        have hpiece := @firstPiece_four (UInt8.ofNat (n / 262144 % 0x08 + 0xf0))
          (UInt8.ofNat (n / 4096 % 0x40 + 0x80)) (UInt8.ofNat (n / 64 % 0x40 + 0x80))
          (UInt8.ofNat (n % 0x40 + 0x80)) rest (by omega) (by omega) (by omega) (by omega)
          (by omega) (by omega) (by omega) (by omega) (by omega) (by omega)
        have hcode : (((n / 262144 + 0xf0 - 0xF0) * 64 + (n / 4096 % 0x40 + 0x80 - 0x80)) * 64 +
            (n / 64 % 0x40 + 0x80 - 0x80)) * 64 + (n % 0x40 + 0x80 - 0x80) = n := by
          omega
        simp only [List.cons_append, List.nil_append]
        rw [pieces, hpiece, hb, hb₁, hb₂, hb₃, hcode, hofNat]
        rfl

theorem encode_cons (c : Char) (text : List Char) :
    encode (c :: text) = String.utf8EncodeChar c ++ encode text :=
  List.flatMap_cons

theorem pieces_encode_append (text : List Char) (rest : Bytes) :
    pieces (encode text ++ rest) =
      text.map (fun c ↦ ⟨some c, (String.utf8EncodeChar c).length⟩) ++ pieces rest := by
  induction text with
  | nil => rfl
  | cons c text ih =>
      rw [encode_cons, List.append_assoc, pieces_utf8EncodeChar, ih, List.map_cons,
        List.cons_append]

theorem pieces_encode (text : List Char) :
    pieces (encode text) = text.map fun c ↦ ⟨some c, (String.utf8EncodeChar c).length⟩ := by
  have h := pieces_encode_append text []
  rwa [List.append_nil, pieces, List.append_nil] at h

theorem valid_encode (text : List Char) : valid (encode text) = true := by
  rw [valid, pieces_encode]
  simp

theorem decodeLossy_encode (text : List Char) : decodeLossy (encode text) = text := by
  rw [decodeLossy, pieces_encode, List.map_map]
  exact List.map_id text

end Utf8

theorem decodeBytes_encode (policy : DecodePolicy) (text : List Char) :
    decodeBytes policy (Utf8.encode text) = .ok ⟨String.ofList text, false⟩ := by
  unfold decodeBytes
  rw [if_pos (Utf8.valid_encode text), Utf8.decodeLossy_encode]

end SymbolRename
