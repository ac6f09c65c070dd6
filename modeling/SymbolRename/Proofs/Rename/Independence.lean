import SymbolRename.Proofs.Rename.Namespacing

/-!
# Rules in either order

A rule that spares a literal neither makes nor unmakes a word that starts with it.  Two rules that
spare each other's literals therefore work on different words, and it does not matter which of them
goes over the text first.
-/

namespace SymbolRename

theorem Token.extend_eq_self {literal : List Char} (added : List Char) {token : Token}
    (h : token.startsWith literal = false) : token.extend literal added = token := by
  cases token with
  | other c => rfl
  | word run =>
      have hstart : literal.isPrefixOf run = false := h
      rw [Token.extend, hstart, if_neg Bool.false_ne_true]

namespace RenameRule

theorem Spares.startsWith_eq_false {rule : RenameRule} {literal : List Char} {token : Token}
    (spares : rule.Spares literal) (h : token.startsWith rule.literal = true) :
    token.startsWith literal = false := by
  cases token with
  | other c => rfl
  | word run =>
      obtain ⟨rest, rfl⟩ := List.isPrefixOf_iff_prefix.mp h
      exact spares.before rest

namespace Prepends

/-- What is counted of a spared literal does not depend on whether the rule has been applied. -/
theorem count_scan_rename {rule : RenameRule} {added literal : List Char}
    {guard? : Option (List Char)} (h : rule.Prepends added) (spares : rule.Spares literal)
    (pattern : WordPattern literal guard?) (text : List Char) :
    (scan literal guard? (rule.rename text)).count (.hit false) =
      (scan literal guard? text).count (.hit false) := by
  have hsplit := wordSplit_tokens text
  rw [pattern.count_scan (h.split_rename hsplit), pattern.count_scan hsplit, List.countP_map]
  exact List.countP_congr fun token _ ↦ by rw [Function.comp_apply, h.startsWith_extend spares]

section

variable {first second : RenameRule} {added added' : List Char}

theorem extend_comm (h : first.Prepends added) (h' : second.Prepends added')
    (spares : first.Spares second.literal) (spares' : second.Spares first.literal)
    (token : Token) :
    (token.extend first.literal added).extend second.literal added' =
      (token.extend second.literal added').extend first.literal added := by
  by_cases hfirst : token.startsWith first.literal = true
  · have hsecond := spares.startsWith_eq_false hfirst
    have hextended := (h.startsWith_extend spares token).trans hsecond
    rw [Token.extend_eq_self added' hextended, Token.extend_eq_self added' hsecond]
  · have hfirst := Bool.eq_false_iff.mpr hfirst
    have hextended := (h'.startsWith_extend spares' token).trans hfirst
    rw [Token.extend_eq_self added hfirst, Token.extend_eq_self added hextended]

theorem rename_comm (h : first.Prepends added) (h' : second.Prepends added')
    (spares : first.Spares second.literal) (spares' : second.Spares first.literal)
    (text : List Char) :
    second.rename (first.rename text) = first.rename (second.rename text) := by
  have hsplit := wordSplit_tokens text
  rw [h'.rename_eq (h.split_rename hsplit), h.rename_eq (h'.split_rename hsplit), List.map_map,
    List.map_map]
  congr 1
  exact List.map_congr_left fun token _ ↦ h.extend_comm h' spares spares' token

end

end Prepends
end RenameRule

theorem identifierRule_spares_macros : identifierRule.Spares macroRule.literal :=
  ⟨fun _ ↦ rfl, fun _ ↦ rfl⟩

/-- The two rules give the same text in either order, and neither of them finds more or fewer words
to rename when the other one has gone first. -/
theorem rules_commute (text : List Char) :
    identifierRule.rename (macroRule.rename text) = macroRule.rename (identifierRule.rename text) ∧
      macroRule.count (identifierRule.rename text) = macroRule.count text ∧
      identifierRule.count (macroRule.rename text) = identifierRule.count text := by
  refine ⟨?_, ?_, ?_⟩
  · exact macroRule_prepends.rename_comm identifierRule_prepends macroRule_spares_identifiers
      identifierRule_spares_macros text
  · exact identifierRule_prepends.count_scan_rename identifierRule_spares_macros
      macroRule_prepends.pattern text
  · exact macroRule_prepends.count_scan_rename macroRule_spares_identifiers
      identifierRule_prepends.pattern text

end SymbolRename
