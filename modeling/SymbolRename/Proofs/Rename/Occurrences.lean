import SymbolRename.Proofs.Rename.Independence

/-!
# What a pass adds

A replacement adds one word under the namespace to those that were there, and no other word comes or
goes.  It never puts a name under the namespace twice: a text of word characters occurs inside
single words only, so that new occurrences can be ruled out word by word.
-/

namespace SymbolRename

/-! ## Words under the namespace -/

namespace RenameRule.Prepends

variable {rule : RenameRule} {added : List Char}

theorem pattern_replacement (h : rule.Prepends added) : WordPattern rule.replacement none where
  nonempty := by
    rw [h.replacement]
    exact List.append_ne_nil_of_right_ne_nil added h.pattern.nonempty
  inside := by
    intro c hc
    rw [h.replacement, List.mem_append] at hc
    rcases hc with hc | hc
    · exact h.inside c hc
    · exact h.pattern.inside c hc
  guard := by simp

variable (h : rule.Prepends added)
  (fresh : ∀ rest, rule.replacement.isPrefixOf (rule.literal ++ rest) = false)

include h fresh

theorem startsWith_replacement_extend (token : Token) :
    (if (token.extend rule.literal added).startsWith rule.replacement then 1 else 0) =
      (if token.startsWith rule.replacement then 1 else 0) +
        if token.startsWith rule.literal then 1 else 0 := by
  by_cases hstart : token.startsWith rule.literal = true
  · cases token with
    | other c => exact absurd hstart Bool.false_ne_true
    | word run =>
        obtain ⟨rest, rfl⟩ := List.isPrefixOf_iff_prefix.mp hstart
        have hextended : rule.replacement.isPrefixOf (added ++ (rule.literal ++ rest)) = true := by
          rw [← List.append_assoc, ← h.replacement]
          exact List.isPrefixOf_iff_prefix.mpr (List.prefix_append _ rest)
        have hliteral : rule.literal.isPrefixOf (rule.literal ++ rest) = true := hstart
        simp [Token.extend, Token.startsWith, hliteral, fresh, hextended]
  · rw [Token.extend_eq_self added (Bool.eq_false_iff.mpr hstart), if_neg hstart,
      Nat.add_zero]

theorem countWordStarts_rename (text : List Char) :
    countWordStarts rule.replacement (rule.rename text) =
      countWordStarts rule.replacement text + rule.count text := by
  have hsplit := wordSplit_tokens text
  rw [countWordStarts, countWordStarts, h.pattern_replacement.count_scan (h.split_rename hsplit),
    h.pattern_replacement.count_scan hsplit, count_eq h.pattern hsplit]
  clear hsplit
  induction tokens text with
  | nil => rfl
  | cons token ts ih =>
      have htoken := h.startsWith_replacement_extend fresh token
      rw [List.map_cons, List.countP_cons, List.countP_cons, List.countP_cons, ih, htoken]
      omega

end RenameRule.Prepends

theorem macroRule_spares_namespaced : macroRule.Spares identifierRule.replacement :=
  ⟨fun _ ↦ rfl, fun _ ↦ rfl⟩

theorem identifierRule_spares_namespaced : identifierRule.Spares macroRule.replacement :=
  ⟨fun _ ↦ rfl, fun _ ↦ rfl⟩

/-- Each replacement adds exactly one word of its kind to those under the namespace. -/
theorem countNamespaced_namespaceText (text : List Char) :
    (countNamespaced (namespaceText text).text).lowercase =
        (countNamespaced text).lowercase + (namespaceText text).identifiers ∧
      (countNamespaced (namespaceText text).text).uppercase =
        (countNamespaced text).uppercase + (namespaceText text).macros := by
  rw [namespaceText_eq]
  constructor
  · calc
      countWordStarts identifierRule.replacement (identifierRule.rename (macroRule.rename text)) =
          countWordStarts identifierRule.replacement (macroRule.rename text) +
            identifierRule.count (macroRule.rename text) :=
        identifierRule_prepends.countWordStarts_rename (fun _ ↦ rfl) (macroRule.rename text)
      _ = (countNamespaced text).lowercase + identifierRule.count (macroRule.rename text) := by
        rw [countWordStarts, macroRule_prepends.count_scan_rename macroRule_spares_namespaced
          identifierRule_prepends.pattern_replacement]
        rfl
  · calc
      countWordStarts macroRule.replacement (identifierRule.rename (macroRule.rename text)) =
          countWordStarts macroRule.replacement (macroRule.rename text) :=
        identifierRule_prepends.count_scan_rename identifierRule_spares_namespaced
          macroRule_prepends.pattern_replacement (macroRule.rename text)
      _ = (countNamespaced text).uppercase + macroRule.count text :=
        macroRule_prepends.countWordStarts_rename (fun _ ↦ rfl) text

/-! ## Occurrences anywhere -/

/-- The number of places where the text goes on with `pattern`, inside a word or not. -/
def occurrences (pattern : List Char) : List Char → Nat
  | [] => 0
  | c :: text => occurrences pattern text + if pattern.isPrefixOf (c :: text) then 1 else 0

namespace WordPattern

variable {literal : List Char} {guard? : Option (List Char)}

theorem occurrences_append (pattern : WordPattern literal guard?) (run : List Char)
    {text : List Char} (stops : startsInWord text = false) :
    occurrences literal (run ++ text) = occurrences literal run + occurrences literal text := by
  induction run with
  | nil => simp [occurrences]
  | cons c run ih =>
      have hstart : literal.isPrefixOf (c :: (run ++ text)) = literal.isPrefixOf (c :: run) :=
        isPrefixOf_append (c :: run) pattern.inside stops
      rw [List.cons_append, occurrences, occurrences, ih, hstart, Nat.add_right_comm]

end WordPattern

namespace RenameRule.Prepends

variable {rule : RenameRule} {added literal : List Char} {guard? : Option (List Char)}

/-- It is enough to compare what stands in front of a word with what the rule puts there. -/
theorem occurrences_rename (h : rule.Prepends added) (pattern : WordPattern literal guard?)
    (same : ∀ rest, occurrences literal (rule.replacement ++ rest) =
      occurrences literal (rule.literal ++ rest)) (text : List Char) :
    occurrences literal (rule.rename text) = occurrences literal text := by
  have hrun (run : List Char) :
      occurrences literal (if rule.literal.isPrefixOf run then added ++ run else run) =
        occurrences literal run := by
    split
    · next hstart =>
      obtain ⟨rest, rfl⟩ := List.isPrefixOf_iff_prefix.mp hstart
      rw [← List.append_assoc, ← h.replacement, same]
    · rfl
  have hsplit := wordSplit_tokens text
  rw [h.rename_eq hsplit]
  generalize tokens text = ts at hsplit
  induction hsplit with
  | nil => rfl
  | @other c text ts outside later ih =>
      rw [List.map_cons, Token.extend, List.flatMap_cons, Token.chars, List.singleton_append,
        occurrences, occurrences, pattern.isPrefixOf_cons outside, pattern.isPrefixOf_cons outside,
        ih]
  | @word run text ts nonempty inside stops later ih =>
      have hstops := (later.startsInWord_extend rule.literal h.inside).trans stops
      rw [List.map_cons, Token.extend, List.flatMap_cons, Token.chars,
        pattern.occurrences_append _ hstops, pattern.occurrences_append run stops, hrun, ih]

end RenameRule.Prepends

theorem occurrences_namespaceText {literal : List Char} (pattern : WordPattern literal none)
    (hmacros : ∀ rest, occurrences literal (macroRule.replacement ++ rest) =
      occurrences literal (macroRule.literal ++ rest))
    (hidentifiers : ∀ rest, occurrences literal (identifierRule.replacement ++ rest) =
      occurrences literal (identifierRule.literal ++ rest)) (text : List Char) :
    occurrences literal (namespaceText text).text = occurrences literal text := by
  rw [namespaceText_eq]
  calc
    occurrences literal (identifierRule.rename (macroRule.rename text)) =
        occurrences literal (macroRule.rename text) :=
      identifierRule_prepends.occurrences_rename pattern hidentifiers (macroRule.rename text)
    _ = occurrences literal text := macroRule_prepends.occurrences_rename pattern hmacros text

/-- A pass puts no name under the namespace twice, and it leaves those that were so as they are. -/
theorem occurrences_doubled_namespaceText (text : List Char) :
    occurrences "soloud_soloud_ma_".toList (namespaceText text).text =
        occurrences "soloud_soloud_ma_".toList text ∧
      occurrences "SOLOUD_SOLOUD_MA_".toList (namespaceText text).text =
        occurrences "SOLOUD_SOLOUD_MA_".toList text := by
  have hlower : WordPattern "soloud_soloud_ma_".toList none :=
    ⟨by decide, List.all_eq_true.mp (by decide), by simp⟩
  have hupper : WordPattern "SOLOUD_SOLOUD_MA_".toList none :=
    ⟨by decide, List.all_eq_true.mp (by decide), by simp⟩
  -- at each of the added characters the doubled name differs from what follows
  constructor
  · exact occurrences_namespaceText hlower (fun _ ↦ rfl) (fun _ ↦ rfl) text
  · exact occurrences_namespaceText hupper (fun _ ↦ rfl) (fun _ ↦ rfl) text

end SymbolRename
