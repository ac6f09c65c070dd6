import Mathlib.Algebra.Ring.Nat
import SymbolRename.Text.Decimal

/-!
# Numbers from their digits

The decimal digits of a number stand for that number.  Zeros in front of digits do not count, and
zeros behind them multiply by ten.
-/

namespace SymbolRename

theorem decimalValue_decimal (n : Nat) : decimalValue (decimal n) = n :=
  Nat.ofDigitChars_ten_toDigits

theorem decimalValue_zeros_append (k : Nat) (digits : List Char) :
    decimalValue (List.replicate k '0' ++ digits) = decimalValue digits := by
  have hzeros : Nat.ofDigitChars 10 (List.replicate k '0') 0 = 0 := by simp
  calc
    decimalValue (List.replicate k '0' ++ digits) =
        Nat.ofDigitChars 10 digits (Nat.ofDigitChars 10 (List.replicate k '0') 0) :=
      Nat.ofDigitChars_append 0
    _ = decimalValue digits := by rw [hzeros]; rfl

theorem decimalValue_append_zeros (digits : List Char) (k : Nat) :
    decimalValue (digits ++ List.replicate k '0') = 10 ^ k * decimalValue digits := by
  calc
    decimalValue (digits ++ List.replicate k '0') =
        Nat.ofDigitChars 10 (List.replicate k '0') (Nat.ofDigitChars 10 digits 0) :=
      Nat.ofDigitChars_append 0
    _ = 10 ^ k * decimalValue digits := Nat.ofDigitChars_replicate_zero

theorem decimal_ne_nil (n : Nat) : decimal n ≠ [] :=
  Nat.toDigits_ne_nil

theorem isDigit_of_mem_decimal {n : Nat} {c : Char} (h : c ∈ decimal n) : c.isDigit = true :=
  Nat.isDigit_of_mem_toDigits (by decide) (by decide) h

theorem length_decimal_le {n width : Nat} (hwidth : 0 < width) (h : n < 10 ^ width) :
    (decimal n).length ≤ width :=
  (Nat.length_toDigits_le_iff (by decide) hwidth).mpr h

/-- Only zero itself starts with a zero. -/
theorem head?_decimal_ne_zero {n : Nat} (h : 0 < n) : (decimal n).head? ≠ some '0' := by
  rw [decimal]
  induction n using Nat.strongRecOn with
  | ind n ih =>
      by_cases hlt : n < 10
      · rw [Nat.toDigits_of_lt_base hlt]
        simpa using Nat.ne_of_gt h
      · have hhead := ih (n / 10) (by omega) (by omega)
        rw [Nat.toDigits_of_base_le (by decide) (Nat.not_lt.mp hlt)]
        obtain ⟨c, digits, hdigits⟩ :=
          List.exists_cons_of_ne_nil (@Nat.toDigits_ne_nil (n / 10) 10)
        rw [hdigits] at hhead ⊢
        simpa using hhead

theorem decimal_ne_leading_zero (n : Nat) (c : Char) (digits : List Char) :
    decimal n ≠ '0' :: c :: digits := by
  intro h
  rcases Nat.eq_zero_or_pos n with rfl | hpos
  · rw [decimal, Nat.toDigits_zero] at h
    simp at h
  · apply head?_decimal_ne_zero hpos
    rw [h, List.head?_cons]

end SymbolRename
