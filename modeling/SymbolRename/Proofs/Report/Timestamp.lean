import SymbolRename.Proofs.Text.Decimal
import SymbolRename.Timestamp

/-!
# Timestamps are read back

The text of a timestamp has fields of fixed width, so every reader stops where its field ends.  Only
the fraction and a year with a sign vary in width, and what stands behind them is no digit.
-/

namespace SymbolRename
namespace Timestamp

/-! ## Fields -/

theorem length_padded {width n : Nat} (hwidth : 0 < width) (h : n < 10 ^ width) :
    (padded width n).length = width := by
  have hle := length_decimal_le hwidth h
  rw [padded, List.length_append, List.length_replicate]
  omega

theorem isDigit_of_mem_padded {width n : Nat} {c : Char} (h : c ∈ padded width n) :
    c.isDigit = true := by
  rcases List.mem_append.mp h with h | h
  · rw [(List.mem_replicate.mp h).2]
    rfl
  · exact isDigit_of_mem_decimal h

theorem decimalValue_padded (width n : Nat) : decimalValue (padded width n) = n := by
  rw [padded, decimalValue_zeros_append, decimalValue_decimal]

theorem padded_ne_nil (width n : Nat) : padded width n ≠ [] :=
  List.append_ne_nil_of_right_ne_nil _ (decimal_ne_nil n)

theorem exists_digit_padded (width n : Nat) :
    ∃ c cs, padded width n = c :: cs ∧ c.isDigit = true := by
  obtain ⟨c, cs, hcs⟩ := List.exists_cons_of_ne_nil (padded_ne_nil width n)
  exact ⟨c, cs, hcs, isDigit_of_mem_padded (by rw [hcs]; simp)⟩

/-! ## Reading fields -/

theorem skipSpace_cons {c : Char} (h : isSpace c = false) (cs : List Char) :
    skipSpace (c :: cs) = c :: cs := by
  simp [skipSpace, h]

theorem isSpace_of_isDigit {c : Char} (h : c.isDigit = true) : isSpace c = false := by
  obtain ⟨hlow, hhigh⟩ := Char.isDigit_iff_toNat.mp h
  have hlow' : 48 ≤ c.toNat := hlow
  have hhigh' : c.toNat ≤ 57 := hhigh
  simp [isSpace]
  omega

theorem skipSpace_padded (width n : Nat) (rest : List Char) :
    skipSpace (padded width n ++ rest) = padded width n ++ rest := by
  obtain ⟨c, cs, hcs, hdigit⟩ := exists_digit_padded width n
  rw [hcs, List.cons_append, skipSpace_cons (isSpace_of_isDigit hdigit)]

/-- Digits end at the greatest number of them or where no digit follows. -/
theorem readDigits_append {digits rest : List Char} {most : Nat} (hne : digits ≠ [])
    (hdigits : ∀ c ∈ digits, c.isDigit = true) (hmost : digits.length ≤ most)
    (hrest : digits.length < most → ∀ c ∈ rest.head?, c.isDigit = false) :
    readDigits most (digits ++ rest) = some (digits, rest) := by
  have hstop : (rest.take (most - digits.length)).takeWhile Char.isDigit = [] := by
    rcases Nat.eq_or_lt_of_le hmost with hlength | hlt
    · simp [hlength]
    · cases rest with
      | nil => simp
      | cons c rest =>
          obtain ⟨k, hk⟩ := Nat.exists_eq_add_of_lt hlt
          have hdigit := hrest hlt c rfl
          rw [show most - digits.length = k + 1 by omega, List.take_succ_cons]
          simp [hdigit]
  have htaken : ((digits ++ rest).take most).takeWhile Char.isDigit = digits := by
    rw [List.take_append, List.take_of_length_le hmost,
      List.takeWhile_append_of_pos hdigits, hstop, List.append_nil]
  simp only [readDigits, htaken, if_neg hne, List.drop_left]

theorem readDigits_padded {width most n : Nat} {rest : List Char} (hwidth : 0 < width)
    (hn : n < 10 ^ width) (hmost : width ≤ most)
    (hrest : width < most → ∀ c ∈ rest.head?, c.isDigit = false) :
    readDigits most (padded width n ++ rest) = some (padded width n, rest) := by
  rw [← length_padded hwidth hn] at hmost hrest
  exact readDigits_append (padded_ne_nil width n) (fun _ ↦ isDigit_of_mem_padded) hmost hrest

theorem readNumber_padded {width n : Nat} (hwidth : 0 < width) (hn : n < 10 ^ width)
    (rest : List Char) : readNumber width (padded width n ++ rest) = some (n, rest) := by
  have hread := @readDigits_padded width width n rest hwidth hn (Nat.le_refl _)
    (fun h ↦ absurd h (Nat.lt_irrefl _))
  rw [readNumber, skipSpace_padded, hread]
  simp [decimalValue_padded]

theorem readYear_padded {n : Nat} (hn : n < 10000) (rest : List Char) :
    readYear (padded 4 n ++ rest) = some ((n : Int), rest) := by
  have hread := @readDigits_padded 4 4 n rest (by decide) hn (Nat.le_refl _)
    (fun h ↦ absurd h (Nat.lt_irrefl _))
  obtain ⟨c, cs, hcs, hdigit⟩ := exists_digit_padded 4 n
  have hsign : c ≠ '-' ∧ c ≠ '+' := by
    constructor <;> (rintro rfl; revert hdigit; decide)
  rw [readYear, skipSpace_padded]
  split
  · next heq =>
    rw [hcs] at heq
    exact absurd (List.cons.inj heq).1 hsign.1
  · next heq =>
    rw [hcs] at heq
    exact absurd (List.cons.inj heq).1 hsign.2
  · simp [hread, decimalValue_padded]

/-- With a sign, the digits of a year end where no digit follows. -/
theorem readDigits_year (n : Nat) (rest : List Char) :
    readDigits (padded 4 n ++ '-' :: rest).length (padded 4 n ++ '-' :: rest) =
      some (padded 4 n, '-' :: rest) := by
  refine readDigits_append (padded_ne_nil 4 n) (fun _ ↦ isDigit_of_mem_padded) (by simp) ?_
  intro _ c hc
  cases hc
  decide

theorem readYear_yearText (year : Int) (rest : List Char) :
    readYear (yearText year ++ '-' :: rest) = some (year, '-' :: rest) := by
  rw [yearText]
  split
  · next hyear =>
    rw [readYear_padded (by omega), Int.toNat_of_nonneg hyear.1]
  · split
    · next hnegative =>
      rw [List.cons_append, readYear, skipSpace_cons (by decide)]
      simp only [readDigits_year, Option.map_some, decimalValue_padded]
      rw [Int.ofNat_natAbs_of_nonpos (by omega), Int.neg_neg]
    · next hpositive =>
      rw [List.cons_append, readYear, skipSpace_cons (by decide)]
      simp only [readDigits_year, Option.map_some, decimalValue_padded]
      rw [Int.natAbs_of_nonneg (by omega)]

theorem readSeparator_cons {separator : Char} (h : isSpace separator = false) (rest : List Char) :
    readSeparator separator (separator :: rest) = some rest := by
  simp [readSeparator, skipSpace_cons h]

theorem readFraction_padded {width n : Nat} {rest : List Char} (hwidth : 0 < width)
    (hn : n < 10 ^ width) (hmost : width ≤ 9) (hrest : ∀ c ∈ rest.head?, c.isDigit = false) :
    readFraction ('.' :: (padded width n ++ rest)) = some (10 ^ (9 - width) * n, rest) := by
  have hread := readDigits_padded hwidth hn hmost fun _ ↦ hrest
  have hstop : rest.dropWhile Char.isDigit = rest := by
    cases rest with
    | nil => rfl
    | cons c rest => simp [hrest c rfl]
  simp [readFraction, hread, length_padded hwidth hn, decimalValue_append_zeros,
    decimalValue_padded, hstop]

theorem readFraction_fractionText {nanosecond : Nat} (h : nanosecond < 1000000000)
    (rest : List Char) :
    readFraction (fractionText nanosecond ++ 'Z' :: rest) = some (nanosecond, 'Z' :: rest) := by
  have hstop : ∀ c ∈ ('Z' :: rest).head?, c.isDigit = false := by
    intro c hc
    cases hc
    rfl
  rw [fractionText]
  split
  · next hzero =>
    rw [hzero]
    rfl
  · split
    · next hmilli =>
      rw [List.cons_append, readFraction_padded (by decide) (by omega) (by decide) hstop]
      simp
      omega
    · split
      · next hmicro =>
        rw [List.cons_append, readFraction_padded (by decide) (by omega) (by decide) hstop]
        simp
        omega
      · rw [List.cons_append, readFraction_padded (by decide) (by omega) (by decide) hstop]
        simp

/-! ## Reading timestamps -/

/-- The timestamp is a time of a day in a year of at most four digits. -/
def Ordinary (t : Timestamp) : Prop := t.Valid ∧ 0 ≤ t.year ∧ t.year ≤ 9999

instance (t : Timestamp) : Decidable t.Ordinary :=
  inferInstanceAs (Decidable (_ ∧ _))

theorem Valid.behind_zero {t : Timestamp} (h : t.Valid) : t.behind 0 = t := by
  obtain ⟨_, _, _, hhour, hminute, _⟩ := h
  have hminutes : ((60 * t.hour + t.minute - 0 : Int) % 1440).toNat = 60 * t.hour + t.minute := by
    omega
  simp only [behind, hminutes]
  rw [if_neg (by omega), if_neg (by omega)]
  have hhours : (60 * t.hour + t.minute) / 60 = t.hour := by omega
  have hrest : (60 * t.hour + t.minute) % 60 = t.minute := by omega
  rw [hhours, hrest]

theorem daysInMonth_le (year : Int) (month : Nat) : daysInMonth year month ≤ 31 := by
  rw [daysInMonth]
  split
  · split <;> decide
  · split <;> decide

theorem bind_eq_some {α β : Type} {x : Option α} {next : α → Option β} {a : α} {b : β}
    (hx : x = some a) (hnext : next a = some b) : x.bind next = some b := by
  rw [hx, Option.bind_some, hnext]

theorem Valid.ofText?_toText {t : Timestamp} (hvalid : t.Valid) : ofText? t.toText = some t := by
  have hbehind := hvalid.behind_zero
  have hlongest := daysInMonth_le t.year t.month
  have hfields := hvalid
  obtain ⟨_, _, ⟨_, hmonth, _, hday⟩, hhour, hminute, hsecond, hnanosecond⟩ := hfields
  have hyears := readYear_yearText t.year
  have htwo {n : Nat} (hn : n < 100) (rest : List Char) :=
    @readNumber_padded 2 n (by decide) hn rest
  have hmonths := @htwo t.month (by omega)
  have hdays := @htwo t.day (by omega)
  have hhours := @htwo t.hour (by omega)
  have hminutes := @htwo t.minute (by omega)
  have hseconds := @htwo t.second (by omega)
  have hfraction := readFraction_fractionText hnanosecond []
  have hdash (rest : List Char) := @readSeparator_cons '-' rfl rest
  have hcolon (rest : List Char) := @readSeparator_cons ':' rfl rest
  have hmark (rest : List Char) : readTimeMark ('T' :: rest) = some rest := rfl
  have hoffset : readOffset (skipSpace ['Z']) = some (0, []) := by decide
  rw [ofText?, toText, String.toList_ofList, chars]
  simp only [List.append_assoc, List.cons_append]
  -- the fields one after the other, each with the rest of the text behind it
  apply bind_eq_some (hyears _)
  apply bind_eq_some (hdash _)
  apply bind_eq_some (hmonths _)
  apply bind_eq_some (hdash _)
  apply bind_eq_some (hdays _)
  apply bind_eq_some (hmark _)
  apply bind_eq_some (hhours _)
  apply bind_eq_some (hcolon _)
  apply bind_eq_some (hminutes _)
  apply bind_eq_some (hcolon _)
  apply bind_eq_some (hseconds _)
  apply bind_eq_some hfraction
  apply bind_eq_some hoffset
  dsimp only
  rw [hbehind]
  exact if_pos ⟨rfl, hvalid, hvalid⟩

end Timestamp
end SymbolRename
