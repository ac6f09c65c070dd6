import Mathlib.Algebra.Group.Nat.Defs
import SymbolRename.Proofs.Toml.Layout

/-!
# Spellings of strings and arrays

Every character of a string may be written as it is or escaped, and the items of an array may be
spread over lines.  Whatever the spelling, the reader finds the value.
-/

namespace SymbolRename
namespace TomlReader

/-! ## Strings -/

/-- The letters that may stand behind a backslash, and the characters they stand for. -/
def escapeLetters : List (Char × Char) :=
  [('"', '"'), ('\\', '\\'), ('b', '\x08'), ('t', '\t'), ('n', '\n'), ('f', '\x0C'),
    ('r', '\r'), ('e', '\x1B')]

/-- The letters that announce a code point, and the number of its digits. -/
def escapeMarks : List (Char × Nat) := [('x', 2), ('u', 4), ('U', 8)]

/-- The number that hexadecimal digits stand for, behind a number already read. -/
def hexNumber? (value : Nat) (digits : List Char) : Option Nat :=
  digits.foldlM (fun n digit ↦ (hexValue? digit).map (16 * n + ·)) value

/-- What may stand behind a backslash for a character. -/
inductive IsEscape (c : Char) : List Char → Prop where
  | letter {letter : Char} (h : (letter, c) ∈ escapeLetters) : IsEscape c [letter]
  | code {mark : Char} {digits : List Char} (hmark : (mark, digits.length) ∈ escapeMarks)
      (hdigits : hexNumber? 0 digits = some c.toNat) : IsEscape c (mark :: digits)

/-- What may stand between double quotes for the characters of a text. -/
inductive IsQuoted : List Char → List Char → Prop where
  | nil : IsQuoted [] []
  | plain {c : Char} {text cs : List Char} (hc : isPrintable c = true) (hquote : c ≠ '"')
      (hbackslash : c ≠ '\\') (h : IsQuoted text cs) : IsQuoted (c :: text) (c :: cs)
  | escape {c : Char} {text escape cs : List Char} (hescape : IsEscape c escape)
      (h : IsQuoted text cs) : IsQuoted (c :: text) ('\\' :: (escape ++ cs))

inductive IsString (text : String) : List Char → Prop where
  | intro {cs : List Char} (h : IsQuoted text.toList cs) : IsString text ('"' :: (cs ++ ['"']))

theorem readHex_append (digits rest : List Char) (value : Nat) :
    readHex digits.length value (digits ++ rest) =
      (hexNumber? value digits).map (·, rest) := by
  induction digits generalizing value with
  | nil => rfl
  | cons digit digits ih =>
      cases hvalue : hexValue? digit with
      | none => simp [readHex, hexNumber?, hvalue]
      | some n => simpa [readHex, hexNumber?, hvalue] using ih (16 * value + n)

theorem scalarChar?_toNat (c : Char) : scalarChar? c.toNat = some c := by
  have hvalid : c.toNat < 0xD800 ∨ (0xDFFF < c.toNat ∧ c.toNat < 0x110000) := c.valid
  rw [scalarChar?, if_pos hvalid, Char.ofNat_toNat]

theorem IsEscape.readEscape_append {c : Char} {escape : List Char} (h : IsEscape c escape)
    (rest : List Char) : readEscape (escape ++ rest) = some (c, rest) := by
  cases h with
  | letter h =>
      simp only [escapeLetters, List.mem_cons, List.not_mem_nil, Prod.mk.injEq, or_false] at h
      rcases h with ⟨rfl, rfl⟩ | ⟨rfl, rfl⟩ | ⟨rfl, rfl⟩ | ⟨rfl, rfl⟩ | ⟨rfl, rfl⟩ | ⟨rfl, rfl⟩ |
        ⟨rfl, rfl⟩ | ⟨rfl, rfl⟩ <;> rfl
  | @code mark digits hmark hdigits =>
      have hread := readHex_append digits rest 0
      rw [hdigits] at hread
      simp only [escapeMarks, List.mem_cons, List.not_mem_nil, Prod.mk.injEq, or_false] at hmark
      rcases hmark with ⟨rfl, hlength⟩ | ⟨rfl, hlength⟩ | ⟨rfl, hlength⟩ <;>
        rw [hlength] at hread <;> simp [readEscape, hread, scalarChar?_toNat]

-- One step is made for each character of the text, and its spelling is at least as long.
theorem IsQuoted.readBasic_append {text cs : List Char} (h : IsQuoted text cs) (rest : List Char)
    {fuel : Nat} (hfuel : cs.length < fuel) :
    readBasic fuel (cs ++ '"' :: rest) = some (text, rest) := by
  induction h generalizing fuel with
  | nil =>
      obtain ⟨fuel, rfl⟩ : ∃ n, fuel = n + 1 := ⟨fuel - 1, by simp at hfuel; omega⟩
      simp [readBasic]
  | plain hc hquote hbackslash _ ih =>
      obtain ⟨fuel, rfl⟩ : ∃ n, fuel = n + 1 := ⟨fuel - 1, by omega⟩
      simp [readBasic, hc, hquote, hbackslash, ih (Nat.lt_of_succ_lt_succ hfuel)]
  | escape hescape _ ih =>
      obtain ⟨fuel, rfl⟩ : ∃ n, fuel = n + 1 := ⟨fuel - 1, by omega⟩
      rw [List.length_cons, List.length_append] at hfuel
      simp [readBasic, hescape.readEscape_append, @ih fuel (by omega)]

theorem IsQuoted.head?_ne {text cs : List Char} (h : IsQuoted text cs) : cs.head? ≠ some '"' := by
  cases h with
  | nil => simp
  | plain _ hquote => simpa using hquote
  | escape => simp

theorem IsString.readString_append {text : String} {cs rest : List Char} (h : IsString text cs)
    (hrest : rest.head? ≠ some '"') : readString (cs ++ rest) = some (text.toList, rest) := by
  obtain @⟨inside, h⟩ := h
  have hread : readBasic ((inside ++ '"' :: rest).length + 1) (inside ++ '"' :: rest) =
      some (text.toList, rest) :=
    h.readBasic_append rest (by rw [List.length_append]; omega)
  rw [List.cons_append, List.append_assoc, List.singleton_append, readString.eq_def]
  split
  · next later heq =>
    -- Three quotes at the front: nothing would be inside, and a quote would follow.
    cases inside with
    | nil =>
        cases heq
        exact absurd rfl hrest
    | cons c inside =>
        obtain ⟨hc, _⟩ := List.cons.inj (List.cons.inj heq).2
        exact absurd (congrArg some hc) h.head?_ne
  · next heq => cases heq
  · exact hread

/-- The last digits of a number. -/
def hexDigits : (count n : Nat) → List Char
  | 0, _ => []
  | count + 1, n => hexDigits count (n / 16) ++ [hexDigit (n % 16)]

theorem length_hexDigits (count n : Nat) : (hexDigits count n).length = count := by
  induction count generalizing n with
  | zero => rfl
  | succ count ih => simp [hexDigits, ih]

theorem hexNumber?_hexDigits (count n : Nat) :
    hexNumber? 0 (hexDigits count n) = some (n % 16 ^ count) := by
  induction count generalizing n with
  | zero => simp [hexDigits, hexNumber?, Nat.mod_one]
  | succ count ih =>
      have hdigit := hexValue?_hexDigit (Nat.mod_lt n (Nat.succ_pos 15))
      have hsplit : 16 * (n / 16 % 16 ^ count) + n % 16 = n % 16 ^ (count + 1) := by
        rw [Nat.pow_succ', Nat.mod_mul, Nat.add_comm]
      simp only [hexNumber?] at ih
      simp [hexDigits, hexNumber?, List.foldlM_append, ih, hdigit, hsplit]

/-- Every character can be escaped. -/
theorem exists_isEscape (c : Char) : ∃ escape, IsEscape c escape := by
  refine ⟨'U' :: hexDigits 8 c.toNat, .code ?_ ?_⟩
  · rw [length_hexDigits]
    simp [escapeMarks]
  · have hvalid : c.toNat < 0xD800 ∨ (0xDFFF < c.toNat ∧ c.toNat < 0x110000) := c.valid
    rw [hexNumber?_hexDigits, Nat.mod_eq_of_lt (by omega)]

theorem exists_isString (text : String) : ∃ cs, IsString text cs := by
  have hquoted : ∀ text, ∃ cs, IsQuoted text cs := by
    intro text
    induction text with
    | nil => exact ⟨[], .nil⟩
    | cons c text ih =>
        obtain ⟨cs, hcs⟩ := ih
        obtain ⟨escape, hescape⟩ := exists_isEscape c
        exact ⟨_, .escape hescape hcs⟩
  obtain ⟨cs, hcs⟩ := hquoted text.toList
  exact ⟨_, .intro hcs⟩

/-! ## Values -/

/-- The items of an array of strings, with the closing bracket.  There may be a comma behind the
last. -/
inductive IsItems : List String → List Char → Prop where
  | none {gap : List Char} (hgap : IsGap gap) : IsItems [] (gap ++ [']'])
  | last {text : String} {before cs after : List Char} (hbefore : IsGap before)
      (htext : IsString text cs) (hafter : IsGap after) :
      IsItems [text] (before ++ (cs ++ (after ++ [']'])))
  | more {text : String} {texts : List String} {before cs after items : List Char}
      (hbefore : IsGap before) (htext : IsString text cs) (hafter : IsGap after)
      (hitems : IsItems texts items) :
      IsItems (text :: texts) (before ++ (cs ++ (after ++ ',' :: items)))

/-- A string or an array of strings. -/
inductive IsValue : TomlValue → List Char → Prop where
  | string {text : String} {cs : List Char} (h : IsString text cs) : IsValue (.string text) cs
  | array {texts : List String} {cs : List Char} (h : IsItems texts cs) :
      IsValue (.array (texts.map .string)) ('[' :: cs)

theorem IsString.exists_cons {text : String} {cs : List Char} (h : IsString text cs) :
    ∃ inside, cs = '"' :: inside := by
  obtain ⟨_⟩ := h
  exact ⟨_, rfl⟩

theorem IsString.readValue_append {text : String} {cs rest : List Char} (h : IsString text cs)
    (hrest : rest.head? ≠ some '"') (fuel depth : Nat) :
    readValue (fuel + 1) depth (cs ++ rest) = some (.string text, rest) := by
  have hread := h.readString_append hrest
  obtain ⟨inside, rfl⟩ := h.exists_cons
  rw [List.cons_append] at hread ⊢
  simp [readValue, hread]

theorem IsString.endsLayout {text : String} {cs : List Char} (h : IsString text cs)
    (rest : List Char) : EndsLayout (cs ++ rest) := by
  obtain ⟨inside, rfl⟩ := h.exists_cons
  exact endsLayout_cons (by simp [layoutStarts]) _

theorem IsGap.head?_append_ne_quote {gap : List Char} (h : IsGap gap) {c : Char} (hc : c ≠ '"')
    (rest : List Char) : (gap ++ c :: rest).head? ≠ some '"' :=
  h.startsAsLayout.head?_append_ne (by simp [layoutStarts]) fun _ ↦ by simpa using hc

/-- One item of an array is read, up to the comma or the bracket behind it. -/
theorem readItems_item {text : String} {before cs after : List Char} (hbefore : IsGap before)
    (htext : IsString text cs) (hafter : IsGap after) (c : Char) (rest : List Char)
    (hc : c = ',' ∨ c = ']') (fuel depth : Nat) :
    readItems (fuel + 2) depth (before ++ (cs ++ (after ++ c :: rest))) =
      if c = ',' then
        (readItems (fuel + 1) depth rest).map fun (items, rest) ↦ (.string text :: items, rest)
      else some ([.string text], rest) := by
  have hquote : c ≠ '"' := by rcases hc with rfl | rfl <;> simp
  have hlayout : c ∉ layoutStarts := by rcases hc with rfl | rfl <;> simp [layoutStarts]
  have hvalue := htext.readValue_append (hafter.head?_append_ne_quote hquote rest) fuel depth
  have hends := htext.endsLayout (after ++ c :: rest)
  obtain ⟨inside, rfl⟩ := htext.exists_cons
  rw [readItems, hbefore.skipLines_append hends]
  split
  · next heq => cases heq
  · simp only [hvalue, Option.bind_eq_bind, Option.bind_some,
      hafter.skipLines_append (endsLayout_cons hlayout rest)]
    rcases hc with rfl | rfl <;> rfl

theorem IsItems.readItems_append {texts : List String} {cs : List Char} (h : IsItems texts cs)
    (rest : List Char) {fuel : Nat} (depth : Nat) (hfuel : cs.length < fuel) :
    readItems fuel depth (cs ++ rest) = some (texts.map .string, rest) := by
  induction h generalizing fuel with
  | none hgap =>
      obtain ⟨fuel, rfl⟩ : ∃ n, fuel = n + 1 := ⟨fuel - 1, by omega⟩
      have hclose : EndsLayout (']' :: rest) := endsLayout_cons (by simp [layoutStarts]) rest
      rw [readItems, List.append_assoc, List.singleton_append, hgap.skipLines_append hclose]
      rfl
  | last hbefore htext hafter =>
      simp only [List.length_append, List.length_singleton] at hfuel
      obtain ⟨fuel, rfl⟩ : ∃ n, fuel = n + 2 := ⟨fuel - 2, by omega⟩
      simp only [List.append_assoc, List.singleton_append]
      rw [readItems_item hbefore htext hafter ']' rest (.inr rfl)]
      rfl
  | @more text texts before cs after items hbefore htext hafter _ ih =>
      simp only [List.length_append, List.length_cons] at hfuel
      obtain ⟨fuel, rfl⟩ : ∃ n, fuel = n + 2 := ⟨fuel - 2, by omega⟩
      simp only [List.append_assoc, List.cons_append]
      rw [readItems_item hbefore htext hafter ',' (items ++ rest) (.inl rfl), if_pos rfl,
        ih (by omega)]
      rfl

theorem IsValue.readValue_append {value : TomlValue} {cs rest : List Char} (h : IsValue value cs)
    (hrest : rest.head? ≠ some '"') {fuel : Nat} (depth : Nat) (hfuel : cs.length < fuel) :
    readValue fuel (depth + 1) (cs ++ rest) = some (value, rest) := by
  obtain ⟨fuel, rfl⟩ : ∃ n, fuel = n + 1 := ⟨fuel - 1, by omega⟩
  cases h with
  | string h => exact h.readValue_append hrest fuel (depth + 1)
  | array h =>
      have hitems := h.readItems_append rest depth (Nat.lt_of_succ_lt_succ hfuel)
      simp [readValue, hitems]

theorem IsValue.endsLayout {value : TomlValue} {cs : List Char} (h : IsValue value cs)
    (rest : List Char) : EndsLayout (cs ++ rest) := by
  cases h with
  | string h => exact h.endsLayout rest
  | array _ => exact endsLayout_cons (by simp [layoutStarts]) _

theorem exists_isItems (texts : List String) : ∃ cs, IsItems texts cs := by
  induction texts with
  | nil => exact ⟨_, .none isGap_nil⟩
  | cons text texts ih =>
      obtain ⟨items, hitems⟩ := ih
      obtain ⟨cs, hcs⟩ := exists_isString text
      exact ⟨_, .more isGap_nil hcs isGap_nil hitems⟩

end TomlReader
end SymbolRename
