import SymbolRename.Proofs.Rename.Namespacing
import SymbolRename.Proofs.Rename.Places
import SymbolRename.Proofs.Text.Utf8

/-!
# ASCII texts byte by byte

On ASCII a word character is one byte of `[A-Za-z0-9_]`, so that the engine can be described by a
loop over the bytes of a text that looks back by one byte only.  The loop advances by one byte where
nothing is replaced; the scan of the engine jumps over the literal in any case.
-/

namespace SymbolRename

/-! ## The loop -/

def isWordByte (b : UInt8) : Bool :=
  (0x41 ≤ b && b ≤ 0x5A) || (0x61 ≤ b && b ≤ 0x7A) || (0x30 ≤ b && b ≤ 0x39) || b == 0x5F

/-- What the loop looks for, what it writes instead, and what must not stand before. -/
structure ByteRule where
  literal : List Char
  replacement : List Char
  guard? : Option (List Char)
  nonempty : literal ≠ []

namespace ByteRule

/-- The number of bytes of the literal. -/
def width (rule : ByteRule) : Nat := (Utf8.encode rule.literal).length

theorem width_pos (rule : ByteRule) : 0 < rule.width :=
  Nat.lt_of_lt_of_le (List.length_pos_iff.mpr rule.nonempty)
    (Utf8.length_le_length_encode rule.literal)

/-- Whether the bytes before place `i` end with the guard. -/
def guardedAt (rule : ByteRule) (bytes : Bytes) (i : Nat) : Bool :=
  match rule.guard? with
  | none => false
  | some guard => (Utf8.encode guard).isSuffixOf (bytes.take i)

/-- Whether the literal is replaced at place `i`. -/
def appliesAt (rule : ByteRule) (bytes : Bytes) (i : Nat) : Bool :=
  (Utf8.encode rule.literal).isPrefixOf (bytes.drop i) &&
    (i == 0 || !isWordByte (bytes.getD (i - 1) 0)) && !rule.guardedAt bytes i

def replaceFrom (rule : ByteRule) (bytes : Bytes) (i : Nat) : List Char :=
  if h : i < bytes.length then
    if rule.appliesAt bytes i then rule.replacement ++ rule.replaceFrom bytes (i + rule.width)
    else Char.ofNat bytes[i].toNat :: rule.replaceFrom bytes (i + 1)
  else []
termination_by bytes.length - i
decreasing_by
  · have := rule.width_pos
    omega
  · omega

/-- Goes over the bytes of a text from left to right. -/
def replace (rule : ByteRule) (text : List Char) : List Char :=
  rule.replaceFrom (Utf8.encode text) 0

end ByteRule

/-! ## Bytes of ASCII characters -/

/-- A text of ASCII characters only. -/
def IsAscii (text : List Char) : Prop := ∀ c ∈ text, c.toNat < 0x80

instance (text : List Char) : Decidable (IsAscii text) :=
  List.decidableBAll _ text

theorem isAscii_append {text text' : List Char} :
    IsAscii (text ++ text') ↔ IsAscii text ∧ IsAscii text' :=
  List.forall_mem_append

theorem isAscii_reverse {text : List Char} : IsAscii text.reverse ↔ IsAscii text := by
  simp [IsAscii]

def asciiByte (c : Char) : UInt8 := UInt8.ofNat c.toNat

theorem ofNat_toNat_asciiByte {c : Char} (h : c.toNat < 0x80) :
    Char.ofNat (asciiByte c).toNat = c := by
  have hbyte : (asciiByte c).toNat = c.toNat := Utf8.toNat_ofNat (by omega)
  rw [hbyte, Char.ofNat_toNat]

theorem isWordByte_asciiByte {c : Char} (h : c.toNat < 0x80) :
    isWordByte (asciiByte c) = isWordChar c := by
  have hall : ∀ n < 0x80, isWordByte (UInt8.ofNat n) = isAsciiWordChar (Char.ofNat n) := by
    decide
  rw [isWordChar_of_ascii h, asciiByte, hall c.toNat h, Char.ofNat_toNat]

theorem Utf8.encode_of_isAscii {text : List Char} (h : IsAscii text) :
    encode text = text.map asciiByte := by
  induction text with
  | nil => rfl
  | cons c text ih =>
      obtain ⟨hc, htext⟩ := List.forall_mem_cons.mp h
      rw [encode_cons, utf8EncodeChar_of_ascii hc, ih htext]
      rfl

theorem map_asciiByte_prefix_iff {text text' : List Char} (h : IsAscii text) (h' : IsAscii text') :
    text.map asciiByte <+: text'.map asciiByte ↔ text <+: text' := by
  have hback {text : List Char} (h : IsAscii text) :
      (text.map asciiByte).map (fun b ↦ Char.ofNat b.toNat) = text := by
    rw [List.map_map]
    exact (List.map_congr_left fun c hc ↦ ofNat_toNat_asciiByte (h c hc)).trans (List.map_id text)
  constructor
  · intro hprefix
    have hchars := hprefix.map fun b ↦ Char.ofNat b.toNat
    rwa [hback h, hback h'] at hchars
  · exact fun hprefix ↦ hprefix.map asciiByte

/-! ## One step of the loop -/

namespace RenameRule

/-- All texts of the rule are ASCII. -/
structure Ascii (rule : RenameRule) : Prop where
  literal : IsAscii rule.literal
  replacement : IsAscii rule.replacement
  guard : ∀ guard ∈ rule.guard?, IsAscii guard

/-- The rule as the loop takes it. -/
def byteRule {rule : RenameRule} (pattern : WordPattern rule.literal rule.guard?) : ByteRule :=
  ⟨rule.literal, rule.replacement, rule.guard?, pattern.nonempty⟩

theorem width_byteRule {rule : RenameRule} (pattern : WordPattern rule.literal rule.guard?)
    (h : rule.Ascii) : (byteRule pattern).width = rule.literal.length := by
  rw [ByteRule.width, show (byteRule pattern).literal = rule.literal from rfl,
    Utf8.encode_of_isAscii h.literal, List.length_map]

section Step

variable {rule : RenameRule} {before rest : List Char}
  (pattern : WordPattern rule.literal rule.guard?) (h : rule.Ascii) (hbefore : IsAscii before)

include hbefore in
theorem boundary_byteRule :
    (before.length == 0 ||
      !isWordByte (((before.reverse ++ rest).map asciiByte).getD (before.length - 1) 0)) =
      atBoundary before := by
  cases before with
  | nil => rfl
  | cons c before =>
      have hc : c.toNat < 0x80 := hbefore c (by simp)
      simp [atBoundary, isWordByte_asciiByte hc]

include h hbefore

theorem guardedAt_byteRule :
    (byteRule pattern).guardedAt ((before.reverse ++ rest).map asciiByte) before.length =
      endsWithGuard rule.guard? before := by
  have htake : ((before.reverse ++ rest).map asciiByte).take before.length =
      before.reverse.map asciiByte := by
    rw [List.map_append, List.take_left' (by simp)]
  simp only [ByteRule.guardedAt, byteRule, htake, endsWithGuard]
  cases hguard : rule.guard? with
  | none => rfl
  | some guard =>
      have hascii := h.guard guard hguard
      rw [Bool.eq_iff_iff, List.isSuffixOf_iff_suffix, List.isPrefixOf_iff_prefix,
        Utf8.encode_of_isAscii hascii, ← List.reverse_prefix, ← List.map_reverse,
        ← List.map_reverse, List.reverse_reverse]
      exact map_asciiByte_prefix_iff (isAscii_reverse.mpr hascii) hbefore

/-- The loop replaces the literal where the scan finds it; at a boundary the guard never stands
before. -/
theorem appliesAt_byteRule (hrest : IsAscii rest) :
    (byteRule pattern).appliesAt ((before.reverse ++ rest).map asciiByte) before.length =
      (atBoundary before && rule.literal.isPrefixOf rest) := by
  have hdrop : ((before.reverse ++ rest).map asciiByte).drop before.length =
      rest.map asciiByte := by
    rw [List.map_append, List.drop_left' (by simp)]
  have hliteral : (Utf8.encode rule.literal).isPrefixOf (rest.map asciiByte) =
      rule.literal.isPrefixOf rest := by
    rw [Bool.eq_iff_iff, List.isPrefixOf_iff_prefix, List.isPrefixOf_iff_prefix,
      Utf8.encode_of_isAscii h.literal]
    exact map_asciiByte_prefix_iff h.literal hrest
  rw [ByteRule.appliesAt, guardedAt_byteRule pattern h hbefore, boundary_byteRule hbefore, hdrop,
    show (byteRule pattern).literal = rule.literal from rfl, hliteral]
  cases hboundary : atBoundary before with
  | false => simp
  | true => simp [pattern.endsWithGuard_eq_false hboundary]

/-- Behind a literal that it replaces, the loop goes on. -/
theorem replaceFrom_literal {later : List Char} (hboundary : atBoundary before = true)
    (hlater : IsAscii later) :
    (byteRule pattern).replaceFrom ((before.reverse ++ (rule.literal ++ later)).map asciiByte)
        before.length =
      rule.replacement ++ (byteRule pattern).replaceFrom
        (((rule.literal.reverse ++ before).reverse ++ later).map asciiByte)
        (rule.literal.reverse ++ before).length := by
  have hpos := List.length_pos_iff.mpr pattern.nonempty
  have happlies : (byteRule pattern).appliesAt
      ((before.reverse ++ (rule.literal ++ later)).map asciiByte) before.length = true := by
    rw [appliesAt_byteRule pattern h hbefore (isAscii_append.mpr ⟨h.literal, hlater⟩), hboundary,
      Bool.true_and, List.isPrefixOf_iff_prefix]
    exact List.prefix_append _ _
  have hlt : before.length < ((before.reverse ++ (rule.literal ++ later)).map asciiByte).length := by
    simp only [List.length_map, List.length_append, List.length_reverse]
    omega
  rw [ByteRule.replaceFrom, dif_pos hlt, if_pos happlies, width_byteRule pattern h]
  simp [byteRule, Nat.add_comm]

/-- Where it replaces nothing, the loop copies one character. -/
theorem replaceFrom_other {c : Char} (hrest : IsAscii (c :: rest))
    (hother : (atBoundary before && rule.literal.isPrefixOf (c :: rest)) = false) :
    (byteRule pattern).replaceFrom ((before.reverse ++ c :: rest).map asciiByte) before.length =
      c :: (byteRule pattern).replaceFrom (((c :: before).reverse ++ rest).map asciiByte)
        (c :: before).length := by
  have hlt : before.length < ((before.reverse ++ c :: rest).map asciiByte).length := by simp
  have happlies := appliesAt_byteRule pattern h hbefore hrest
  rw [hother] at happlies
  rw [ByteRule.replaceFrom, dif_pos hlt, happlies]
  simp [ofNat_toNat_asciiByte (hrest c (by simp))]

end Step

/-! ## The whole loop -/

theorem replaceFrom_byteRule {rule : RenameRule} (pattern : WordPattern rule.literal rule.guard?)
    (h : rule.Ascii) {before rest : List Char} (hbefore : IsAscii before) (hrest : IsAscii rest) :
    (byteRule pattern).replaceFrom ((before.reverse ++ rest).map asciiByte) before.length =
      (scanFrom rule.literal rule.guard? before rest).flatMap rule.target := by
  -- the bytes stay the same while the place moves from the end of `before` on
  induction hsize : rest.length using Nat.strongRecOn generalizing before rest with
  | ind size ih =>
  subst hsize
  cases rest with
  | nil =>
      rw [ByteRule.replaceFrom, dif_neg (by simp), scanFrom]
      rfl
  | cons c rest =>
      rw [scanFrom]
      split
      · next hhere =>
        obtain ⟨hboundary, hprefix⟩ := Bool.and_eq_true_iff.mp hhere
        obtain ⟨later, hlater⟩ := List.isPrefixOf_iff_prefix.mp hprefix
        have hpos := List.length_pos_iff.mpr pattern.nonempty
        have hdrop : rest.drop (rule.literal.length - 1) = later := by
          rw [← List.drop_succ_cons, Nat.sub_add_cancel hpos, ← hlater, List.drop_left]
        have hascii : IsAscii later := (isAscii_append.mp (hlater ▸ hrest)).2
        have hlength : later.length < (c :: rest).length := by
          rw [← hlater, List.length_append]
          omega
        rw [hdrop, pattern.endsWithGuard_eq_false hboundary, ← hlater,
          replaceFrom_literal pattern h hbefore hboundary hascii,
          ih later.length hlength
            (isAscii_append.mpr ⟨isAscii_reverse.mpr h.literal, hbefore⟩) hascii rfl]
        rfl
      · next hhere =>
        obtain ⟨hc, hrest'⟩ := List.forall_mem_cons.mp hrest
        rw [replaceFrom_other pattern h hbefore hrest (Bool.eq_false_iff.mpr hhere),
          ih rest.length (by simp) (List.forall_mem_cons.mpr ⟨hc, hbefore⟩) hrest' rfl]
        rfl

theorem replace_byteRule {rule : RenameRule} (pattern : WordPattern rule.literal rule.guard?)
    (h : rule.Ascii) {text : List Char} (htext : IsAscii text) :
    (byteRule pattern).replace text = rule.rename text := by
  rw [ByteRule.replace, Utf8.encode_of_isAscii htext]
  exact @replaceFrom_byteRule rule pattern h [] text (List.forall_mem_nil _) htext

theorem Prepends.isAscii_rename {rule : RenameRule} {added : List Char}
    (hrule : rule.Prepends added) (h : rule.Ascii) {text : List Char} (htext : IsAscii text) :
    IsAscii (rule.rename text) := by
  have hsplit := wordSplit_tokens text
  have hadded : IsAscii added := (isAscii_append.mp (hrule.replacement ▸ h.replacement)).1
  rw [← hsplit.flatMap_chars] at htext
  rw [hrule.rename_eq hsplit, List.flatMap_map]
  intro c hc
  obtain ⟨token, htoken, hc⟩ := List.mem_flatMap.mp hc
  have hchars : IsAscii token.chars := fun d hd ↦ htext d (List.mem_flatMap_of_mem htoken hd)
  cases token with
  | other d => exact hchars c hc
  | word run =>
      simp only [Token.extend, Token.chars] at hc hchars
      split at hc
      · exact isAscii_append.mpr ⟨hadded, hchars⟩ c hc
      · exact hchars c hc

end RenameRule

/-! ## The engine -/

def macroByteRule : ByteRule :=
  ⟨"MA_".toList, "SOLOUD_MA_".toList, none, by decide⟩

def identifierByteRule : ByteRule :=
  ⟨"ma_".toList, "soloud_ma_".toList, some "soloud_".toList, by decide⟩

theorem macroRule_ascii : macroRule.Ascii :=
  ⟨by decide, by decide, by simp [macroRule]⟩

theorem identifierRule_ascii : identifierRule.Ascii :=
  ⟨by decide, by decide, by
    rintro guard ⟨⟩
    decide⟩

/-- On ASCII the engine is the loop for macros followed by the loop for identifiers. -/
theorem namespaceText_eq_byte_loops {text : List Char} (h : IsAscii text) :
    (namespaceText text).text = identifierByteRule.replace (macroByteRule.replace text) := by
  have hmacros : macroByteRule.replace text = macroRule.rename text :=
    RenameRule.replace_byteRule macroRule_prepends.pattern macroRule_ascii h
  have hidentifiers : identifierByteRule.replace (macroRule.rename text) =
      identifierRule.rename (macroRule.rename text) :=
    RenameRule.replace_byteRule identifierRule_prepends.pattern identifierRule_ascii
      (macroRule_prepends.isAscii_rename macroRule_ascii h)
  rw [namespaceText_eq, hmacros, hidentifiers]

/-- A line with a bare name, a guarded one, one inside a word and a macro. -/
theorem byte_loops_on_call :
    IsAscii "ma_open(&soloud_ma_x, gamma_, MA_OK);\n".toList ∧
      (namespaceText "ma_open(&soloud_ma_x, gamma_, MA_OK);\n".toList).text =
        identifierByteRule.replace
          (macroByteRule.replace "ma_open(&soloud_ma_x, gamma_, MA_OK);\n".toList) :=
  ⟨by decide, namespaceText_eq_byte_loops (by decide)⟩

example : identifierByteRule.replace (macroByteRule.replace "gamma_ ma_x(MA_Y)".toList) =
    "gamma_ soloud_ma_x(SOLOUD_MA_Y)".toList := by
  cbv

end SymbolRename
