import Mathlib.Data.List.TakeDrop
import SymbolRename.Json.Reader
import SymbolRename.Json.Writer
import SymbolRename.Proofs.Text.Decimal

/-!
# Written values are read back

Reading takes exactly the text of a value off the front, whatever stands behind it, as long as this
does not go on with a number.  The text of a value is at least as long as the number of steps that
are nested in reading it, so that the reader never runs out of them.
-/

namespace SymbolRename
namespace JsonValue

/-! ## Blanks -/

theorem skipBlanks_cons {c : Char} (h : isBlank c = false) (cs : List Char) :
    skipBlanks (c :: cs) = c :: cs := by
  simp [skipBlanks, h]

@[simp] theorem skipBlanks_newline (level : Nat) (cs : List Char) :
    skipBlanks (newline level ++ cs) = skipBlanks cs := by
  have hblank : ∀ c ∈ newline level, isBlank c = true := by
    intro c hc
    rw [newline, List.mem_cons, List.mem_replicate] at hc
    rcases hc with rfl | ⟨_, rfl⟩ <;> rfl
  exact List.dropWhile_append_of_pos hblank

/-! ## Numbers -/

/-- What stands behind a number and is not part of it. -/
def EndsNumber (rest : List Char) : Prop :=
  ∀ c ∈ rest.head?, c.isDigit = false ∧ c ≠ '.' ∧ c ≠ 'e' ∧ c ≠ 'E'

theorem endsNumber_nil : EndsNumber [] := by
  intro c hc
  cases hc

theorem endsNumber_newline (level : Nat) (cs : List Char) : EndsNumber (newline level ++ cs) := by
  intro c hc
  cases hc
  decide

theorem endsNumber_comma (cs : List Char) : EndsNumber (',' :: cs) := by
  intro c hc
  cases hc
  decide

theorem exists_digit_decimal (n : Nat) :
    ∃ c cs, decimal n = c :: cs ∧ c.isDigit = true := by
  obtain ⟨c, cs, hcs⟩ := List.exists_cons_of_ne_nil (decimal_ne_nil n)
  exact ⟨c, cs, hcs, isDigit_of_mem_decimal (by rw [hcs]; simp)⟩

theorem readNumber_of_isDigit {c : Char} (h : c.isDigit = true) (cs : List Char) :
    readNumber (c :: cs) = readUnsigned (c :: cs) := by
  rw [readNumber.eq_def]
  split
  · next heq =>
    cases heq
    exact absurd h (by decide)
  · rfl

theorem readDigits_append {digits rest : List Char} (hne : digits ≠ [])
    (hdigits : ∀ c ∈ digits, c.isDigit = true) (hrest : ∀ c ∈ rest.head?, c.isDigit = false) :
    readDigits (digits ++ rest) = some (digits, rest) := by
  have hspan : (digits ++ rest).span Char.isDigit = (digits, rest) := by
    rw [List.span_eq_takeWhile_dropWhile, List.takeWhile_append_of_pos hdigits,
      List.dropWhile_append_of_pos hdigits]
    cases rest with
    | nil => simp
    | cons c rest => simp [hrest c rfl]
  rw [readDigits, hspan]
  split
  · next heq => cases heq; exact absurd rfl hne
  · rfl

theorem readInteger_decimal (n : Nat) {rest : List Char}
    (hrest : ∀ c ∈ rest.head?, c.isDigit = false) :
    readInteger (decimal n ++ rest) = some (decimal n, rest) := by
  have hread := readDigits_append (decimal_ne_nil n) (fun _ ↦ isDigit_of_mem_decimal) hrest
  rw [readInteger, hread]
  split
  · next c digits _ heq =>
    exact absurd (congrArg Prod.fst (Option.some.inj heq)) (decimal_ne_leading_zero n c digits)
  · rfl

theorem readFraction_of_endsNumber {rest : List Char} (h : EndsNumber rest) :
    readFraction rest = some ([], rest) := by
  unfold readFraction
  split
  · obtain ⟨_, hdot, _⟩ := h '.' rfl
    exact absurd rfl hdot
  · rfl

theorem readExponent_of_endsNumber {rest : List Char} (h : EndsNumber rest) :
    readExponent rest = some ([], rest) := by
  cases rest with
  | nil => rfl
  | cons c rest =>
      obtain ⟨_, _, hlower, hupper⟩ := h c rfl
      simp [readExponent, hlower, hupper]

theorem readUnsigned_decimal (n : Nat) {rest : List Char} (hrest : EndsNumber rest) :
    readUnsigned (decimal n ++ rest) = some (.nat n, rest) := by
  have hinteger := readInteger_decimal n fun c hc ↦ (hrest c hc).1
  simp [readUnsigned, hinteger, readFraction_of_endsNumber hrest,
    readExponent_of_endsNumber hrest, decimalValue_decimal]

/-- One or more digits. -/
def IsDigits (digits : List Char) : Prop :=
  digits ≠ [] ∧ ∀ c ∈ digits, c.isDigit = true

/-- A fraction, or nothing. -/
inductive IsFraction : List Char → Prop where
  | none : IsFraction []
  | digits {digits : List Char} (h : IsDigits digits) : IsFraction ('.' :: digits)

/-- An exponent, or nothing. -/
inductive IsExponent : List Char → Prop where
  | none : IsExponent []
  | digits {e : Char} {sign digits : List Char} (he : e = 'e' ∨ e = 'E')
      (hsign : sign = [] ∨ sign = ['+'] ∨ sign = ['-']) (h : IsDigits digits) :
      IsExponent (e :: (sign ++ digits))

/-- A number with a sign, a fraction or an exponent. -/
inductive IsNumber : List Char → Prop where
  | unsigned {n : Nat} {fraction exponent : List Char} (hfraction : IsFraction fraction)
      (hexponent : IsExponent exponent) (hparts : fraction ≠ [] ∨ exponent ≠ []) :
      IsNumber (decimal n ++ fraction ++ exponent)
  | negative {n : Nat} {fraction exponent : List Char} (hfraction : IsFraction fraction)
      (hexponent : IsExponent exponent) : IsNumber ('-' :: (decimal n ++ fraction ++ exponent))

theorem IsExponent.head?_append {exponent rest : List Char} (h : IsExponent exponent)
    (hrest : EndsNumber rest) :
    ∀ c ∈ (exponent ++ rest).head?, c.isDigit = false ∧ c ≠ '.' := by
  cases h with
  | none => exact fun c hc ↦ ⟨(hrest c hc).1, (hrest c hc).2.1⟩
  | digits he =>
      intro c hc
      cases hc
      rcases he with rfl | rfl <;> decide

theorem IsFraction.head?_append {fraction rest : List Char} (h : IsFraction fraction)
    (hrest : ∀ c ∈ rest.head?, c.isDigit = false) :
    ∀ c ∈ (fraction ++ rest).head?, c.isDigit = false := by
  cases h with
  | none => exact hrest
  | digits _ =>
      intro c hc
      cases hc
      decide

theorem readFraction_append {fraction rest : List Char} (h : IsFraction fraction)
    (hrest : ∀ c ∈ rest.head?, c.isDigit = false ∧ c ≠ '.') :
    readFraction (fraction ++ rest) = some (fraction, rest) := by
  cases h with
  | none =>
      rw [List.nil_append, readFraction.eq_def]
      split
      · exact absurd rfl (hrest '.' rfl).2
      · rfl
  | digits h =>
      have hread := readDigits_append h.1 h.2 fun c hc ↦ (hrest c hc).1
      simp [readFraction, hread]

theorem readExponent_append {exponent rest : List Char} (h : IsExponent exponent)
    (hrest : EndsNumber rest) : readExponent (exponent ++ rest) = some (exponent, rest) := by
  cases h with
  | none => exact readExponent_of_endsNumber hrest
  | @digits e sign digits he hsign h =>
      have hread := readDigits_append h.1 h.2 fun c hc ↦ (hrest c hc).1
      have hmark : (e = 'e' || e = 'E') = true := by simpa using he
      obtain ⟨c, cs, rfl⟩ := List.exists_cons_of_ne_nil h.1
      have hdigit := h.2 c (by simp)
      have hplus : c ≠ '+' := by rintro rfl; revert hdigit; decide
      have hminus : c ≠ '-' := by rintro rfl; revert hdigit; decide
      rw [List.cons_append] at hread
      rcases hsign with rfl | rfl | rfl <;> simp [readExponent, hmark, hread, hplus, hminus]

/-- A number is taken off the front as it is written. -/
theorem IsNumber.readNumber_append {literal rest : List Char} (h : IsNumber literal)
    (hrest : EndsNumber rest) : readNumber (literal ++ rest) = some (.number literal, rest) := by
  cases h with
  | @unsigned n fraction exponent hfraction hexponent hparts =>
      have hexponentHead := hexponent.head?_append hrest
      have hinteger := readInteger_decimal n
        (hfraction.head?_append fun c hc ↦ (hexponentHead c hc).1)
      have hread := readFraction_append hfraction hexponentHead
      have hne : ¬(fraction = [] ∧ exponent = []) := by tauto
      have hunsigned : readUnsigned (decimal n ++ (fraction ++ (exponent ++ rest))) =
          some (.number (decimal n ++ fraction ++ exponent), rest) := by
        simp [readUnsigned, hinteger, hread, readExponent_append hexponent hrest, hne]
      obtain ⟨c, cs, hcs, hdigit⟩ := exists_digit_decimal n
      rw [List.append_assoc, List.append_assoc]
      rw [hcs, List.cons_append] at hunsigned ⊢
      rw [readNumber_of_isDigit hdigit, hunsigned]
  | @negative n fraction exponent hfraction hexponent =>
      have hexponentHead := hexponent.head?_append hrest
      have hinteger := readInteger_decimal n
        (hfraction.head?_append fun c hc ↦ (hexponentHead c hc).1)
      have hread := readFraction_append hfraction hexponentHead
      simp [readNumber, hinteger, hread, readExponent_append hexponent hrest]

/-! ## Strings -/

theorem readStringItems_quote (rest : List Char) :
    readStringItems ('"' :: rest) = some ([], rest) := by
  rw [readStringItems.eq_def]
  rfl

theorem readStringItems_short {e x : Char} (h : unescape? e = some x) (he : e ≠ 'u')
    (cs : List Char) :
    readStringItems ('\\' :: e :: cs) =
      (readStringItems cs).map fun (items, rest) ↦ (.char x :: items, rest) := by
  rw [readStringItems.eq_def]
  simp only [Char.reduceEq, if_false, if_true, if_neg he, h]
  cases readStringItems cs <;> rfl

theorem readStringItems_unit {h₁ h₂ h₃ h₄ : Char} {n : Nat} (h : unit? h₁ h₂ h₃ h₄ = some n)
    (cs : List Char) :
    readStringItems ('\\' :: 'u' :: h₁ :: h₂ :: h₃ :: h₄ :: cs) =
      (readStringItems cs).map fun (items, rest) ↦ (.unit n :: items, rest) := by
  rw [readStringItems.eq_def]
  simp only [Char.reduceEq, if_false, if_true, h]
  cases readStringItems cs <;> rfl

theorem readStringItems_plain {c : Char} (hquote : c ≠ '"') (hslash : c ≠ '\\')
    (hcontrol : ¬c.toNat < 0x20) (cs : List Char) :
    readStringItems (c :: cs) =
      (readStringItems cs).map fun (items, rest) ↦ (.char c :: items, rest) := by
  rw [readStringItems.eq_def]
  simp only [if_neg hquote, if_neg hslash, if_neg hcontrol]
  cases readStringItems cs <;> rfl

/-- What the escape of a character is read as. -/
def escapedItem (c : Char) : StringItem :=
  if c.toNat < 0x20 ∧ c ∉ ['\x08', '\x0C', '\n', '\r', '\t'] then .unit c.toNat else .char c

theorem unit?_of_lt {n : Nat} (h : n < 0x20) :
    unit? '0' '0' (hexDigit (n / 16)) (hexDigit (n % 16)) = some n := by
  have hzero : hexValue? '0' = some 0 := by decide
  have hhigh := @hexValue?_hexDigit (n / 16) (by omega)
  have hlow := @hexValue?_hexDigit (n % 16) (by omega)
  simp only [unit?, hzero, hhigh, hlow, bind, Option.bind, Option.some.injEq]
  omega

theorem readStringItems_escape (c : Char) (cs : List Char) :
    readStringItems (escape c ++ cs) =
      (readStringItems cs).map fun (items, rest) ↦ (escapedItem c :: items, rest) := by
  by_cases hshort : c ∈ ['"', '\\', '\x08', '\x0C', '\n', '\r', '\t']
  · simp only [List.mem_cons, List.not_mem_nil, or_false] at hshort
    rcases hshort with rfl | rfl | rfl | rfl | rfl | rfl | rfl <;>
      exact readStringItems_short (by decide) (by decide) cs
  · simp only [List.mem_cons, List.not_mem_nil, or_false, not_or] at hshort
    obtain ⟨hquote, hslash, hback, hfeed, hnewline, hreturn, htab⟩ := hshort
    by_cases hcontrol : c.toNat < 0x20
    · have hitem : escapedItem c = .unit c.toNat := by
        simp [escapedItem, hcontrol, hback, hfeed, hnewline, hreturn, htab]
      rw [hitem, ← readStringItems_unit (unit?_of_lt hcontrol)]
      simp [escape, hcontrol, hquote, hslash, hback, hfeed, hnewline, hreturn, htab]
    · have hitem : escapedItem c = .char c := by simp [escapedItem, hcontrol]
      rw [hitem, ← readStringItems_plain hquote hslash hcontrol]
      simp [escape, hcontrol, hquote, hslash, hback, hfeed, hnewline, hreturn, htab]

theorem assemble_unit_cons {n : Nat} (h : n < 0xD800) (items : List StringItem) :
    assemble (.unit n :: items) = (assemble items).map (Char.ofNat n :: ·) := by
  have hhigh : isHighSurrogate n = false := by simp [isHighSurrogate]; omega
  have hlow : isLowSurrogate n = false := by simp [isLowSurrogate]; omega
  cases items with
  | nil => simp [assemble, hhigh, hlow]
  | cons item items => cases item <;> simp [assemble, hhigh, hlow]

theorem assemble_escapedItem_cons (c : Char) (items : List StringItem) :
    assemble (escapedItem c :: items) = (assemble items).map (c :: ·) := by
  rw [escapedItem]
  split
  · next hcontrol => rw [assemble_unit_cons (by omega), Char.ofNat_toNat]
  · rw [assemble]

theorem assemble_map_escapedItem (cs : List Char) : assemble (cs.map escapedItem) = some cs := by
  induction cs with
  | nil => rw [List.map_nil, assemble]
  | cons c cs ih => rw [List.map_cons, assemble_escapedItem_cons, ih, Option.map_some]

theorem readStringItems_flatMap_escape (cs rest : List Char) :
    readStringItems (cs.flatMap escape ++ '"' :: rest) = some (cs.map escapedItem, rest) := by
  induction cs with
  | nil => exact readStringItems_quote rest
  | cons c cs ih =>
      rw [List.flatMap_cons, List.append_assoc, readStringItems_escape, ih, Option.map_some,
        List.map_cons]

/-- A string literal is read back, also one that has no text. -/
theorem readString_literal (text? : Option String) (rest : List Char) :
    ∃ cs, literal text? ++ rest = '"' :: cs ∧ readString cs = some (text?, rest) := by
  cases text? with
  | none =>
      refine ⟨'\\' :: 'u' :: 'd' :: '8' :: '0' :: '0' :: '"' :: rest, rfl, ?_⟩
      have hunit : unit? 'd' '8' '0' '0' = some 0xD800 := by decide
      rw [readString, readStringItems_unit hunit, readStringItems_quote]
      rfl
  | some s =>
      refine ⟨s.toList.flatMap escape ++ '"' :: rest, by simp [literal], ?_⟩
      simp [readString, readStringItems_flatMap_escape, assemble_map_escapedItem]

/-! ## Values -/

/-- All numbers in the value are written as numbers. -/
inductive Plain : JsonValue → Prop where
  | null : Plain .null
  | bool (value : Bool) : Plain (.bool value)
  | nat (value : Nat) : Plain (.nat value)
  | number {literal : List Char} (hliteral : IsNumber literal) : Plain (.number literal)
  | string (text? : Option String) : Plain (.string text?)
  | array {items : List JsonValue} (hitems : ∀ item ∈ items, Plain item) : Plain (.array items)
  | object {members : List (Option String × JsonValue)}
      (hmembers : ∀ member ∈ members, Plain member.2) : Plain (.object members)

/-- The text of the value is read back, with steps to spare. -/
def ReadsBack (value : JsonValue) : Prop :=
  ∀ level fuel rest, EndsNumber rest → (write level value).length ≤ fuel →
    readValue fuel (write level value ++ rest) = some (value, rest)

theorem readValue_of_skipBlanks {cs others : List Char} (h : skipBlanks cs = skipBlanks others)
    (fuel : Nat) : readValue fuel cs = readValue fuel others := by
  cases fuel with
  | zero => rw [readValue, readValue]
  | succ fuel => rw [readValue, readValue, h]

theorem readValue_newline (fuel level : Nat) (cs : List Char) :
    readValue fuel (newline level ++ cs) = readValue fuel cs :=
  readValue_of_skipBlanks (skipBlanks_newline level cs) fuel

theorem readValue_blank (fuel : Nat) (cs : List Char) :
    readValue fuel (' ' :: cs) = readValue fuel cs :=
  readValue_of_skipBlanks (by simp [skipBlanks, isBlank]) fuel

/-- The characters with which a number starts are those of no other value. -/
theorem ne_of_startsNumber {c : Char} (h : c.isDigit = true ∨ c = '-') :
    isBlank c = false ∧ c ≠ '"' ∧ c ≠ '[' ∧ c ≠ ']' ∧ c ≠ '\x7b' ∧ c ≠ 'n' ∧ c ≠ 't' ∧ c ≠ 'f' := by
  have hblank : isBlank c = false := by
    rw [isBlank]
    simp only [Bool.or_eq_false_iff, decide_eq_false_iff_not]
    refine ⟨⟨⟨?_, ?_⟩, ?_⟩, ?_⟩ <;> (rintro rfl; revert h; decide)
  refine ⟨hblank, ?_, ?_, ?_, ?_, ?_, ?_, ?_⟩ <;> (rintro rfl; revert h; decide)

theorem IsNumber.exists_start {literal : List Char} (h : IsNumber literal) :
    ∃ c cs, literal = c :: cs ∧ (c.isDigit = true ∨ c = '-') := by
  cases h with
  | @unsigned n _ _ _ _ _ =>
      obtain ⟨c, cs, hcs, hdigit⟩ := exists_digit_decimal n
      exact ⟨c, _, by rw [hcs, List.cons_append, List.cons_append], Or.inl hdigit⟩
  | negative _ _ => exact ⟨'-', _, rfl, Or.inr rfl⟩

theorem Plain.exists_write {value : JsonValue} (h : value.Plain) (level : Nat) :
    ∃ c cs, write level value = c :: cs ∧ isBlank c = false ∧ c ≠ ']' := by
  cases h with
  | null => exact ⟨_, _, by rw [write], by decide, by decide⟩
  | bool value => cases value <;> exact ⟨_, _, by rw [write], by decide, by decide⟩
  | nat n =>
      obtain ⟨c, cs, hcs, hdigit⟩ := exists_digit_decimal n
      obtain ⟨hblank, _, _, hclose, _⟩ := ne_of_startsNumber (Or.inl hdigit)
      exact ⟨c, cs, by rw [write, hcs], hblank, hclose⟩
  | number hliteral =>
      obtain ⟨c, cs, hcs, hstart⟩ := hliteral.exists_start
      obtain ⟨hblank, _, _, hclose, _⟩ := ne_of_startsNumber hstart
      exact ⟨c, cs, by rw [write, hcs], hblank, hclose⟩
  | string text? =>
      obtain ⟨cs, hcs, _⟩ := readString_literal text? []
      exact ⟨'"', cs, by rw [write, ← hcs, List.append_nil], by decide, by decide⟩
  | @array items _ =>
      cases items with
      | nil => exact ⟨_, _, by rw [write], by decide, by decide⟩
      | cons item items => exact ⟨'[', _, by rw [write]; rfl, by decide, by decide⟩
  | @object members _ =>
      cases members with
      | nil => exact ⟨_, _, by rw [write], by decide, by decide⟩
      | cons member members => exact ⟨'\x7b', _, by rw [write]; rfl, by decide, by decide⟩

theorem readsBack_word {value : JsonValue} {c : Char} {word : List Char}
    (hwrite : ∀ level, write level value = c :: word)
    (hread : ∀ fuel cs, readValue (fuel + 1) (c :: cs) = readWord word value cs) :
    ReadsBack value := by
  intro level fuel rest _ hfuel
  rw [hwrite] at hfuel ⊢
  cases fuel with
  | zero => simp at hfuel
  | succ fuel => simp [hread, readWord]

theorem readsBack_null : ReadsBack .null :=
  readsBack_word (fun _ ↦ write.eq_1 _) fun fuel cs ↦ by
    rw [readValue, skipBlanks_cons (by decide)]
    simp

theorem readsBack_bool (value : Bool) : ReadsBack (.bool value) := by
  cases value with
  | false =>
      refine readsBack_word (fun _ ↦ write.eq_3 _) fun fuel cs ↦ ?_
      rw [readValue, skipBlanks_cons (by decide)]
      simp
  | true =>
      refine readsBack_word (fun _ ↦ write.eq_2 _) fun fuel cs ↦ ?_
      rw [readValue, skipBlanks_cons (by decide)]
      simp

theorem readsBack_of_readNumber {value : JsonValue} {c : Char} {cs : List Char}
    (hwrite : ∀ level, write level value = c :: cs) (hstart : c.isDigit = true ∨ c = '-')
    (hread : ∀ rest, EndsNumber rest → readNumber (c :: cs ++ rest) = some (value, rest)) :
    ReadsBack value := by
  intro level fuel rest hrest hfuel
  obtain ⟨hblank, hquote, hopen, _, hbrace, hn, ht, hf⟩ := ne_of_startsNumber hstart
  rw [hwrite] at hfuel ⊢
  cases fuel with
  | zero => simp at hfuel
  | succ fuel =>
      rw [readValue, List.cons_append, skipBlanks_cons hblank]
      simp only [if_neg hquote, if_neg hopen, if_neg hbrace, if_neg hn, if_neg ht, if_neg hf]
      exact hread rest hrest

theorem readsBack_nat (n : Nat) : ReadsBack (.nat n) := by
  obtain ⟨c, cs, hcs, hdigit⟩ := exists_digit_decimal n
  refine readsBack_of_readNumber (fun _ ↦ by rw [write, hcs]) (Or.inl hdigit) fun rest hrest ↦ ?_
  rw [List.cons_append, readNumber_of_isDigit hdigit, ← List.cons_append, ← hcs,
    readUnsigned_decimal n hrest]

theorem readsBack_number {literal : List Char} (h : IsNumber literal) :
    ReadsBack (.number literal) := by
  obtain ⟨c, cs, hcs, hstart⟩ := h.exists_start
  refine readsBack_of_readNumber (fun _ ↦ by rw [write, hcs]) hstart fun rest hrest ↦ ?_
  rw [← hcs, h.readNumber_append hrest]

theorem readsBack_string (text? : Option String) : ReadsBack (.string text?) := by
  intro level fuel rest _ hfuel
  obtain ⟨cs, hcs, hread⟩ := readString_literal text? rest
  rw [write] at hfuel ⊢
  cases fuel with
  | zero => cases text? <;> simp [literal] at hfuel
  | succ fuel =>
      rw [hcs, readValue, skipBlanks_cons (by decide)]
      simp [hread]

theorem length_newline_pos (level : Nat) : 0 < (newline level).length := by
  simp [newline]

theorem readItems_write {item : JsonValue} {items : List JsonValue} (hitem : ReadsBack item)
    (hitems : ∀ other ∈ items, ReadsBack other) (level outer : Nat) {fuel : Nat}
    (rest : List Char)
    (hfuel : (write level item).length + (writeItems level items).length < fuel) :
    readItems fuel (newline level ++ (write level item ++ (writeItems level items ++
      (newline outer ++ ']' :: rest)))) = some (item :: items, rest) := by
  induction items generalizing item fuel with
  | nil =>
      cases fuel with
      | zero => cases hfuel
      | succ fuel =>
          have hread := hitem level fuel (newline outer ++ ']' :: rest) (endsNumber_newline outer _)
            (by omega)
          rw [readItems, readValue_newline, writeItems, List.nil_append, hread]
          simp [skipBlanks_cons, isBlank]
  | cons next items ih =>
      have hnewline := length_newline_pos level
      simp only [writeItems, List.cons_append, List.append_assoc, List.length_cons,
        List.length_append] at hfuel ⊢
      cases fuel with
      | zero => cases hfuel
      | succ fuel =>
          have hread := hitem level fuel _ (endsNumber_comma (newline level ++ (write level next ++
            (writeItems level items ++ (newline outer ++ ']' :: rest))))) (by omega)
          have hlater := ih (hitems next (by simp))
            (fun other hother ↦ hitems other (List.mem_cons_of_mem next hother))
            (by omega : (write level next).length + (writeItems level items).length < fuel)
          rw [readItems, readValue_newline, hread]
          simp [skipBlanks_cons, isBlank, hlater]

theorem readsBack_array {items : List JsonValue} (hplain : ∀ item ∈ items, item.Plain)
    (hitems : ∀ item ∈ items, ReadsBack item) : ReadsBack (.array items) := by
  intro level fuel rest _ hfuel
  cases items with
  | nil =>
      rw [write] at hfuel ⊢
      cases fuel with
      | zero => simp at hfuel
      | succ fuel =>
          rw [readValue, List.cons_append, skipBlanks_cons (by decide)]
          simp [skipBlanks_cons, isBlank]
  | cons item items =>
      have hnewline := length_newline_pos (level + 1)
      simp only [write, List.cons_append, List.append_assoc, List.length_cons,
        List.length_append, List.nil_append] at hfuel ⊢
      cases fuel with
      | zero => cases hfuel
      | succ fuel =>
          have hread := readItems_write (hitems item (by simp))
            (fun other hother ↦ hitems other (List.mem_cons_of_mem item hother)) (level + 1) level
            rest (by omega : _ < fuel)
          obtain ⟨c, cs, hcs, hblank, hclose⟩ :=
            (hplain item (by simp)).exists_write (level + 1)
          rw [hcs, List.cons_append] at hread ⊢
          rw [readValue, skipBlanks_cons (by decide)]
          simp [skipBlanks_cons hblank, hclose, hread]

theorem readName_literal (level : Nat) (name : Option String) (cs : List Char) :
    readName (newline level ++ (literal name ++ ':' :: cs)) = some (name, cs) := by
  obtain ⟨tail, htail, hread⟩ := readString_literal name (':' :: cs)
  rw [readName, skipBlanks_newline, htail, skipBlanks_cons (by decide)]
  simp [hread, skipBlanks_cons, isBlank]

theorem readMembers_write {name : Option String} {value : JsonValue}
    {members : List (Option String × JsonValue)} (hvalue : ReadsBack value)
    (hmembers : ∀ member ∈ members, ReadsBack member.2) (level outer : Nat) {fuel : Nat}
    (rest : List Char)
    (hfuel : (write level value).length + (writeMembers level members).length < fuel) :
    readMembers fuel (newline level ++ (literal name ++ ':' :: ' ' :: (write level value ++
      (writeMembers level members ++ (newline outer ++ '\x7d' :: rest))))) =
        some ((name, value) :: members, rest) := by
  induction members generalizing name value fuel with
  | nil =>
      cases fuel with
      | zero => cases hfuel
      | succ fuel =>
          have hread := hvalue level fuel (newline outer ++ '\x7d' :: rest)
            (endsNumber_newline outer _) (by omega)
          rw [readMembers, readName_literal, writeMembers, List.nil_append]
          simp [readValue_blank, hread, skipBlanks_cons, isBlank]
  | cons next members ih =>
      obtain ⟨name', value'⟩ := next
      have hnewline := length_newline_pos level
      simp only [writeMembers, List.cons_append, List.append_assoc, List.length_cons,
        List.length_append, List.nil_append] at hfuel ⊢
      cases fuel with
      | zero => cases hfuel
      | succ fuel =>
          have hread := hvalue level fuel _ (endsNumber_comma (newline level ++ (literal name' ++
            ':' :: ' ' :: (write level value' ++ (writeMembers level members ++
              (newline outer ++ '\x7d' :: rest)))))) (by omega)
          have hlater := @ih name' value' (hmembers (name', value') (by simp))
            (fun other hother ↦ hmembers other (List.mem_cons_of_mem _ hother)) fuel (by omega)
          rw [readMembers, readName_literal]
          simp [readValue_blank, hread, skipBlanks_cons, isBlank, hlater]

theorem readsBack_object {members : List (Option String × JsonValue)}
    (hmembers : ∀ member ∈ members, ReadsBack member.2) : ReadsBack (.object members) := by
  intro level fuel rest _ hfuel
  cases members with
  | nil =>
      rw [write] at hfuel ⊢
      cases fuel with
      | zero => simp at hfuel
      | succ fuel =>
          rw [readValue, List.cons_append, skipBlanks_cons (by decide)]
          simp [skipBlanks_cons, isBlank]
  | cons member members =>
      obtain ⟨name, value⟩ := member
      have hnewline := length_newline_pos (level + 1)
      simp only [write, List.cons_append, List.append_assoc, List.length_cons,
        List.length_append, List.nil_append] at hfuel ⊢
      cases fuel with
      | zero => cases hfuel
      | succ fuel =>
          have hread := @readMembers_write name value members (hmembers (name, value) (by simp))
            (fun other hother ↦ hmembers other (List.mem_cons_of_mem _ hother)) (level + 1) level
            fuel rest (by omega)
          obtain ⟨tail, htail, _⟩ := readString_literal name (':' :: ' ' ::
            (write (level + 1) value ++ (writeMembers (level + 1) members ++
              (newline level ++ '\x7d' :: rest))))
          rw [htail] at hread ⊢
          rw [readValue, skipBlanks_cons (by decide)]
          simp [skipBlanks_cons, isBlank, hread]

theorem Plain.readsBack {value : JsonValue} (h : value.Plain) : ReadsBack value := by
  induction h with
  | null => exact readsBack_null
  | bool value => exact readsBack_bool value
  | nat n => exact readsBack_nat n
  | number hliteral => exact readsBack_number hliteral
  | string text? => exact readsBack_string text?
  | array hitems ih => exact readsBack_array hitems ih
  | object _ ih => exact readsBack_object ih

/-- The text that is written for a value stands for this value. -/
theorem Plain.ofText?_pretty {value : JsonValue} (h : value.Plain) :
    ofText? value.pretty = some value := by
  have hread := h.readsBack 0 (2 * (write 0 value).length + 2) [] endsNumber_nil (by omega)
  rw [List.append_nil] at hread
  simp only [ofText?, pretty, String.toList_ofList, hread, Option.bind_eq_bind, Option.bind_some]
  exact if_pos rfl

end JsonValue
end SymbolRename
