import SymbolRename.Rename.Rule

/-!
# The rename engine

Two rules put the names of the audio library under the namespace: first its macros, then its
identifiers, each over the whole text.
-/

namespace SymbolRename

def macroLiteral : String := "MA_"
def namespacedMacroLiteral : String := "SOLOUD_MA_"
def identifierLiteral : String := "ma_"
def namespacedIdentifierLiteral : String := "soloud_ma_"
def identifierGuard : String := "soloud_"

def macroRule : RenameRule :=
  ⟨.macros, macroLiteral.toList, namespacedMacroLiteral.toList, none⟩

def identifierRule : RenameRule :=
  ⟨.identifiers, identifierLiteral.toList, namespacedIdentifierLiteral.toList,
    some identifierGuard.toList⟩

/-- The rules in the order in which they are applied. -/
def renameRules : List RenameRule := [macroRule, identifierRule]

/-- A renamed text with the number of replacements of either kind. -/
structure Renaming where
  text : List Char
  changed : Bool
  macros : Nat
  identifiers : Nat
  deriving DecidableEq, Repr

/-- A text between two rules, with the replacements that the rules so far have made. -/
structure Pass where
  text : List Char
  macros : Nat
  identifiers : Nat
  deriving DecidableEq, Repr

def Pass.add (pass : Pass) (kind : SymbolKind) (replaced : Nat) : Pass :=
  match kind with
  | .macros => { pass with macros := pass.macros + replaced }
  | .identifiers => { pass with identifiers := pass.identifiers + replaced }

/-- Applies one more rule.  A rule that replaces nothing is passed over. -/
def Pass.apply (pass : Pass) (rule : RenameRule) : Pass :=
  let replaced := rule.count pass.text
  if replaced = 0 then pass
  else { pass.add rule.kind replaced with text := rule.rename pass.text }

/-- Applies rules in order, each to what those before it leave. -/
def applyRules (rules : List RenameRule) (text : List Char) : Renaming :=
  let pass := rules.foldl Pass.apply ⟨text, 0, 0⟩
  { text := pass.text
    changed := pass.text != text
    macros := pass.macros
    identifiers := pass.identifiers }

def namespaceText (text : List Char) : Renaming := applyRules renameRules text

@[simp] theorem Pass.add_zero (pass : Pass) (kind : SymbolKind) : pass.add kind 0 = pass := by
  cases kind <;> rfl

/-- Passing over a rule comes to the same as applying it. -/
theorem Pass.apply_eq {rule : RenameRule} (h : rule.literal ≠ []) (pass : Pass) :
    pass.apply rule =
      { pass.add rule.kind (rule.count pass.text) with text := rule.rename pass.text } := by
  rw [apply]
  split
  · next hcount => rw [hcount, add_zero, rule.rename_of_count_eq_zero h hcount]
  · rfl

/-- The first rule replaces and counts macros, the second one identifiers. -/
theorem namespaceText_eq (text : List Char) :
    namespaceText text =
      { text := identifierRule.rename (macroRule.rename text)
        changed := identifierRule.rename (macroRule.rename text) != text
        macros := macroRule.count text
        identifiers := identifierRule.count (macroRule.rename text) } := by
  have hmacros : macroRule.literal ≠ [] := by decide
  have hidentifiers : identifierRule.literal ≠ [] := by decide
  simp only [namespaceText, applyRules, renameRules, List.foldl_cons, List.foldl_nil,
    Pass.apply_eq hmacros, Pass.apply_eq hidentifiers]
  rw [show macroRule.kind = .macros from rfl, show identifierRule.kind = .identifiers from rfl]
  simp only [Pass.add, Nat.zero_add]

/-- The byte offsets of all names that are not under the namespace yet, in increasing order. -/
def bareOffsets (text : List Char) : List Nat :=
  (renameRules.flatMap fun rule ↦ rule.offsets text).mergeSort

/-- How many names of either kind are under the namespace. -/
structure NamespaceCounts where
  lowercase : Nat
  uppercase : Nat
  deriving DecidableEq, Repr

def countNamespaced (text : List Char) : NamespaceCounts where
  lowercase := countWordStarts namespacedIdentifierLiteral.toList text
  uppercase := countWordStarts namespacedMacroLiteral.toList text

end SymbolRename
