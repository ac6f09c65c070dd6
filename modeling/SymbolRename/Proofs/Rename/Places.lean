import SymbolRename.Proofs.Rename.Namespacing

/-!
# Where the bare names stand

The offsets that a rule reports are the bytes of the text at which one of its words starts with the
literal, each of them once and in increasing order.  The scan jumps over the literal when it has
found one; what it jumps over stands inside a word, so that it misses nothing.
-/

namespace SymbolRename

/-- Behind the first `offset` bytes the text goes on with `literal`, and a word may start there. -/
def WordStartsAt (literal text : List Char) (offset : Nat) : Prop :=
  ∃ before after, text = before ++ after ∧ (Utf8.encode before).length = offset ∧
    literal <+: after ∧ ∀ c ∈ before.getLast?, isWordChar c = false

/-! ## Sizes in bytes -/

namespace Utf8

theorem length_encode_append (before after : List Char) :
    (encode (before ++ after)).length = (encode before).length + (encode after).length := by
  rw [encode, List.flatMap_append, List.length_append]
  rfl

theorem length_le_length_encode (text : List Char) : text.length ≤ (encode text).length := by
  induction text with
  | nil => exact Nat.le_refl 0
  | cons c text ih =>
      have hc : 0 < c.utf8Size := c.utf8Size_pos
      rw [← List.singleton_append, length_encode_append, List.length_append]
      simp only [encode, List.flatMap_singleton, String.length_utf8EncodeChar,
        List.length_singleton] at ih ⊢
      omega

theorem eq_nil_of_length_encode_append {before between : List Char}
    (h : (encode (before ++ between)).length = (encode before).length) : between = [] := by
  have hle := length_le_length_encode between
  rw [length_encode_append] at h
  exact List.eq_nil_of_length_eq_zero (by omega)

/-- What follows a start of a text is known by the size of that start. -/
theorem append_cancel_of_length_encode {before after before' after' : List Char}
    (h : before ++ after = before' ++ after')
    (hsize : (encode before).length = (encode before').length) : after = after' := by
  rcases List.append_eq_append_iff.mp h with ⟨between, rfl, rfl⟩ | ⟨between, rfl, rfl⟩
  · rw [eq_nil_of_length_encode_append hsize.symm, List.nil_append]
  · rw [eq_nil_of_length_encode_append hsize, List.nil_append]

end Utf8

/-! ## Places ahead of a scan -/

/-- `place` is the offset of an occurrence at a boundary in a text that starts at `offset` and
follows `past`, given last character first. -/
def StandsAhead (literal past text : List Char) (offset place : Nat) : Prop :=
  ∃ before after, text = before ++ after ∧ offset + (Utf8.encode before).length = place ∧
    literal <+: after ∧ atBoundary (before.reverse ++ past) = true

theorem atBoundary_reverse_iff (before : List Char) :
    atBoundary before.reverse = true ↔ ∀ c ∈ before.getLast?, isWordChar c = false := by
  rw [List.getLast?_eq_head?_reverse]
  cases before.reverse with
  | nil => simp [atBoundary]
  | cons c rest => simp [atBoundary]

theorem standsAhead_start_iff {literal text : List Char} {place : Nat} :
    StandsAhead literal [] text 0 place ↔ WordStartsAt literal text place := by
  simp only [StandsAhead, WordStartsAt, List.append_nil, Nat.zero_add, atBoundary_reverse_iff]

section

variable {literal past rest : List Char} {guard? : Option (List Char)} {offset place : Nat}

theorem not_standsAhead_nil (nonempty : literal ≠ []) :
    ¬StandsAhead literal past [] offset place := by
  rintro ⟨before, after, htext, -, hliteral, -⟩
  obtain ⟨-, rfl⟩ := List.append_eq_nil_iff.mp htext.symm
  exact nonempty (List.prefix_nil.mp hliteral)

theorem standsAhead_cons_iff {c : Char}
    (hhere : ¬(atBoundary past = true ∧ literal <+: c :: rest)) :
    StandsAhead literal past (c :: rest) offset place ↔
      StandsAhead literal (c :: past) rest (offset + (Utf8.encode [c]).length) place := by
  constructor
  · rintro ⟨before, after, htext, hplace, hliteral, hboundary⟩
    cases before with
    | nil =>
        rw [List.nil_append] at htext
        exact absurd ⟨hboundary, htext ▸ hliteral⟩ hhere
    | cons d before =>
        obtain ⟨rfl, rfl⟩ := List.cons_eq_cons.mp htext
        refine ⟨before, after, rfl, ?_, hliteral, by simpa using hboundary⟩
        rw [← List.singleton_append, Utf8.length_encode_append] at hplace
        omega
  · rintro ⟨before, after, rfl, hplace, hliteral, hboundary⟩
    refine ⟨c :: before, after, rfl, ?_, hliteral, by simpa using hboundary⟩
    rw [← List.singleton_append, Utf8.length_encode_append]
    omega

/-- An occurrence hides no other one: every place inside it follows one of its word characters. -/
theorem WordPattern.standsAhead_append_iff (pattern : WordPattern literal guard?)
    (hhere : atBoundary past = true) :
    StandsAhead literal past (literal ++ rest) offset place ↔
      place = offset ∨ StandsAhead literal (literal.reverse ++ past) rest
        (offset + (Utf8.encode literal).length) place := by
  constructor
  · rintro ⟨before, after, htext, hplace, hliteral, hboundary⟩
    rcases List.append_eq_append_iff.mp htext with ⟨between, rfl, rfl⟩ | ⟨between, hcut, -⟩
    · refine Or.inr ⟨between, after, rfl, ?_, hliteral, by simpa using hboundary⟩
      rw [Utf8.length_encode_append] at hplace
      omega
    · -- the place is the start of the literal or lies within it
      cases hlast : before.reverse with
      | nil =>
          rw [List.reverse_eq_nil_iff.mp hlast] at hplace
          exact Or.inl hplace.symm
      | cons c earlier =>
          have hmem : c ∈ literal := by
            rw [hcut, List.mem_append, ← List.mem_reverse, hlast]
            simp
          rw [hlast] at hboundary
          simp [atBoundary, pattern.inside c hmem] at hboundary
  · rintro (rfl | ⟨before, after, rfl, hplace, hliteral, hboundary⟩)
    · exact ⟨[], literal ++ rest, rfl, rfl, List.prefix_append literal rest, hhere⟩
    · refine ⟨literal ++ before, after, by simp, ?_, hliteral, by simpa using hboundary⟩
      rw [Utf8.length_encode_append]
      omega

end

/-! ## The offsets of a rule -/

namespace RenameRule

variable {rule : RenameRule} {text : List Char}

/-- What a scan still reports is what stands ahead of it. -/
theorem mem_offsetsFrom_scanFrom_iff (pattern : WordPattern rule.literal rule.guard?)
    (past text : List Char) (offset place : Nat) :
    place ∈ rule.offsetsFrom offset (scanFrom rule.literal rule.guard? past text) ↔
      StandsAhead rule.literal past text offset place := by
  fun_induction scanFrom rule.literal rule.guard? past text generalizing offset with
  | case1 past => simpa [offsetsFrom] using not_standsAhead_nil pattern.nonempty
  | case2 past c rest hhere ih =>
      obtain ⟨hboundary, hliteral⟩ := Bool.and_eq_true_iff.mp hhere
      obtain ⟨later, hlater⟩ := List.isPrefixOf_iff_prefix.mp hliteral
      -- the scan goes on right behind the literal, where nothing has been missed
      have hdrop : rest.drop (rule.literal.length - 1) = later := by
        have hpos := List.length_pos_iff.mpr pattern.nonempty
        calc
          rest.drop (rule.literal.length - 1) = (c :: rest).drop rule.literal.length := by
            rw [← List.drop_succ_cons, Nat.sub_add_cancel hpos]
          _ = later := by rw [← hlater, List.drop_left]
      simp only [List.unattach_reverse, List.unattach_attach] at ih
      rw [pattern.endsWithGuard_eq_false hboundary, offsetsFrom, if_pos rfl, List.mem_cons, ih,
        hdrop, ← hlater, pattern.standsAhead_append_iff hboundary]
      rfl
  | case3 past c rest hhere ih =>
      rw [offsetsFrom, if_neg Mark.noConfusion, ih, standsAhead_cons_iff]
      · rfl
      · rwa [Bool.and_eq_true, List.isPrefixOf_iff_prefix] at hhere

theorem mem_offsets_iff (pattern : WordPattern rule.literal rule.guard?) {place : Nat} :
    place ∈ rule.offsets text ↔ WordStartsAt rule.literal text place :=
  (mem_offsetsFrom_scanFrom_iff pattern [] text 0 place).trans standsAhead_start_iff

theorem le_of_mem_offsetsFrom {marks : List Mark} {offset place : Nat}
    (h : place ∈ rule.offsetsFrom offset marks) : offset ≤ place := by
  induction marks generalizing offset with
  | nil => simp [offsetsFrom] at h
  | cons mark marks ih =>
      rw [offsetsFrom] at h
      split at h
      · rcases List.mem_cons.mp h with rfl | h
        · exact Nat.le_refl place
        · exact Nat.le_of_add_right_le (ih h)
      · exact Nat.le_of_add_right_le (ih h)

theorem pairwise_offsetsFrom (nonempty : rule.literal ≠ []) (offset : Nat) (marks : List Mark) :
    (rule.offsetsFrom offset marks).Pairwise (· < ·) := by
  induction marks generalizing offset with
  | nil => exact .nil
  | cons mark marks ih =>
      rw [offsetsFrom]
      split
      · next hmark =>
        refine List.pairwise_cons.mpr ⟨fun place hplace ↦ ?_, ih _⟩
        have hle := le_of_mem_offsetsFrom hplace
        have hpos := List.length_pos_iff.mpr nonempty
        have hsize := Utf8.length_le_length_encode rule.literal
        rw [hmark, source] at hle
        omega
      · exact ih _

theorem pairwise_offsets (nonempty : rule.literal ≠ []) (text : List Char) :
    (rule.offsets text).Pairwise (· < ·) :=
  pairwise_offsetsFrom nonempty 0 (rule.marks text)

def unguarded (rule : RenameRule) : RenameRule :=
  { rule with guard? := none }

theorem offsetsFrom_unguarded (rule : RenameRule) (offset : Nat) (marks : List Mark) :
    rule.unguarded.offsetsFrom offset marks = rule.offsetsFrom offset marks := by
  induction marks generalizing offset with
  | nil => rfl
  | cons mark marks ih =>
      have hsource : rule.unguarded.source mark = rule.source mark := rfl
      rw [offsetsFrom, offsetsFrom, hsource, ih]

/-- The guard never keeps a word from being renamed. -/
theorem offsets_unguarded (pattern : WordPattern rule.literal rule.guard?) (text : List Char) :
    rule.unguarded.offsets text = rule.offsets text := by
  have hunguarded : WordPattern rule.literal none := ⟨pattern.nonempty, pattern.inside, by simp⟩
  have hsplit := wordSplit_tokens text
  have hmarks : rule.unguarded.marks text = rule.marks text :=
    (hunguarded.scan_eq hsplit).trans (pattern.scan_eq hsplit).symm
  rw [offsets, hmarks, offsetsFrom_unguarded, offsets]

end RenameRule

/-! ## The offsets of all bare names -/

/-- No place starts words of both kinds. -/
theorem disjoint_offsets (text : List Char) :
    ∀ place ∈ macroRule.offsets text, ∀ other ∈ identifierRule.offsets text, place ≠ other := by
  rintro place hmacro _ hidentifier rfl
  obtain ⟨before, after, rfl, hsize, hupper, -⟩ :=
    (RenameRule.mem_offsets_iff macroRule_prepends.pattern).mp hmacro
  obtain ⟨before', after', htext, hsize', hlower, -⟩ :=
    (RenameRule.mem_offsets_iff identifierRule_prepends.pattern).mp hidentifier
  obtain rfl := Utf8.append_cancel_of_length_encode htext (hsize.trans hsize'.symm)
  obtain ⟨rest, rfl⟩ := hupper
  have hneither := macroRule_spares_identifiers.before rest
  rw [List.isPrefixOf_iff_prefix.mpr hlower] at hneither
  exact Bool.noConfusion hneither

theorem nodup_append_offsets (text : List Char) :
    (macroRule.offsets text ++ identifierRule.offsets text).Nodup := by
  have hmacros := RenameRule.pairwise_offsets macroRule_prepends.pattern.nonempty text
  have hidentifiers := RenameRule.pairwise_offsets identifierRule_prepends.pattern.nonempty text
  exact List.nodup_append.mpr
    ⟨hmacros.imp Nat.ne_of_lt, hidentifiers.imp Nat.ne_of_lt, disjoint_offsets text⟩

theorem bareOffsets_perm (text : List Char) :
    (bareOffsets text).Perm (macroRule.offsets text ++ identifierRule.offsets text) := by
  simpa [bareOffsets, renameRules] using List.mergeSort_perm _ _

theorem pairwise_bareOffsets (text : List Char) : (bareOffsets text).Pairwise (· < ·) := by
  have htrans (i j k : Nat) (hij : decide (i ≤ j) = true) (hjk : decide (j ≤ k) = true) :
      decide (i ≤ k) = true :=
    decide_eq_true (Nat.le_trans (of_decide_eq_true hij) (of_decide_eq_true hjk))
  have htotal (i j : Nat) : (decide (i ≤ j) || decide (j ≤ i)) = true := by
    simpa using Nat.le_total i j
  have hsorted : (bareOffsets text).Pairwise (· ≤ ·) := by
    simpa [bareOffsets] using
      List.pairwise_mergeSort htrans htotal (renameRules.flatMap fun rule ↦ rule.offsets text)
  have hnodup : (bareOffsets text).Nodup :=
    (bareOffsets_perm text).nodup_iff.mpr (nodup_append_offsets text)
  exact hsorted.imp₂ (fun _ _ ↦ Nat.lt_of_le_of_ne) hnodup

theorem mem_bareOffsets_iff {text : List Char} {place : Nat} :
    place ∈ bareOffsets text ↔
      WordStartsAt "MA_".toList text place ∨ WordStartsAt "ma_".toList text place := by
  rw [(bareOffsets_perm text).mem_iff, List.mem_append,
    RenameRule.mem_offsets_iff macroRule_prepends.pattern,
    RenameRule.mem_offsets_iff identifierRule_prepends.pattern]
  rfl

/-! ## Offsets and replacements -/

theorem length_bareOffsets (text : List Char) :
    (bareOffsets text).length = (namespaceText text).macros + (namespaceText text).identifiers := by
  have hsplit := wordSplit_tokens text
  rw [(bareOffsets_perm text).length_eq, List.length_append, RenameRule.length_offsets,
    RenameRule.length_offsets, RenameRule.count_eq macroRule_prepends.pattern hsplit,
    RenameRule.count_eq identifierRule_prepends.pattern hsplit, hsplit.macros_namespaceText,
    hsplit.identifiers_namespaceText]
  rfl

theorem Token.length_chars_extend (literal added : List Char) (token : Token) :
    (token.extend literal added).chars.length =
      token.chars.length + if token.startsWith literal then added.length else 0 := by
  cases token with
  | other c => rfl
  | word run =>
      by_cases hstart : literal.isPrefixOf run = true
      · simp [Token.extend, Token.chars, Token.startsWith, hstart, Nat.add_comm]
      · simp [Token.extend, Token.chars, Token.startsWith, hstart]

theorem length_flatMap_extend (literal added : List Char) (ts : List Token) :
    ((ts.map (Token.extend literal added)).flatMap Token.chars).length =
      (ts.flatMap Token.chars).length + ts.countP (Token.startsWith literal) * added.length := by
  induction ts with
  | nil => simp
  | cons token ts ih =>
      rw [List.map_cons, List.flatMap_cons, List.flatMap_cons, List.length_append,
        List.length_append, ih, Token.length_chars_extend, List.countP_cons, Nat.add_mul]
      split
      · omega
      · omega

/-- Every replacement makes the text longer. -/
theorem RenameRule.Prepends.length_rename {rule : RenameRule} {added : List Char}
    (h : rule.Prepends added) (text : List Char) :
    (rule.rename text).length = text.length + rule.count text * added.length := by
  have hsplit := wordSplit_tokens text
  rw [h.rename_eq hsplit, length_flatMap_extend, hsplit.flatMap_chars, count_eq h.pattern hsplit]

theorem length_namespaceText (text : List Char) :
    (namespaceText text).text.length = text.length + 7 * (bareOffsets text).length := by
  have hmacros : (macroRule.rename text).length =
      text.length + macroRule.count text * 7 := macroRule_prepends.length_rename text
  have hidentifiers : (identifierRule.rename (macroRule.rename text)).length =
      (macroRule.rename text).length + identifierRule.count (macroRule.rename text) * 7 :=
    identifierRule_prepends.length_rename (macroRule.rename text)
  rw [length_bareOffsets, namespaceText_eq]
  dsimp only
  omega

theorem isBare_of_bareOffsets_eq_nil {text : List Char} (h : bareOffsets text = []) :
    ∀ token ∈ tokens text, token.isBare = false := by
  have hsplit := wordSplit_tokens text
  have hcounts := length_bareOffsets text
  rw [h, hsplit.macros_namespaceText, hsplit.identifiers_namespaceText] at hcounts
  obtain ⟨hmacros, hidentifiers⟩ := Nat.add_eq_zero_iff.mp hcounts.symm
  intro token htoken
  have hupper := List.countP_eq_zero.mp hmacros token htoken
  have hlower := List.countP_eq_zero.mp hidentifiers token htoken
  rw [Token.isBare, Bool.eq_false_iff.mpr hupper, Bool.eq_false_iff.mpr hlower, Bool.or_false]

theorem changed_namespaceText_iff (text : List Char) :
    (namespaceText text).changed = true ↔ bareOffsets text ≠ [] := by
  have hsame : (namespaceText text).text = text ↔ bareOffsets text = [] := by
    constructor
    · intro hsame
      have hlength := length_namespaceText text
      rw [hsame] at hlength
      exact List.eq_nil_of_length_eq_zero (by omega)
    · intro hnone
      rw [(wordSplit_tokens text).namespaceText_eq_self (isBare_of_bareOffsets_eq_nil hnone)]
  exact bne_iff_ne.trans (not_congr hsame)

/-- The offsets of the bare names are exactly the places where a word starts with one of the two
literals, whatever the guard says; there are as many as the engine makes replacements, and the
engine changes a text just if there is one. -/
theorem bareOffsets_exact (text : List Char) :
    (bareOffsets text).Pairwise (· < ·) ∧
      (∀ place, place ∈ bareOffsets text ↔
        WordStartsAt "MA_".toList text place ∨ WordStartsAt "ma_".toList text place) ∧
      identifierRule.unguarded.offsets text = identifierRule.offsets text ∧
      (bareOffsets text).length =
        (namespaceText text).macros + (namespaceText text).identifiers ∧
      ((namespaceText text).changed = true ↔ bareOffsets text ≠ []) := by
  refine ⟨pairwise_bareOffsets text, fun place ↦ mem_bareOffsets_iff, ?_, ?_, ?_⟩
  · exact RenameRule.offsets_unguarded identifierRule_prepends.pattern text
  · exact length_bareOffsets text
  · exact changed_namespaceText_iff text

end SymbolRename
