import SymbolRename.Rename.Scan

/-!
# Rename rules

A rule puts one literal under a namespace wherever the literal starts a word.  The renamed text, the
number of replacements and the places of the replacements are three readings of the same scan.
-/

namespace SymbolRename

/-- What a name stands for. -/
inductive SymbolKind where
  | macros
  | identifiers
  deriving DecidableEq, Repr

/-- Replaces `literal` by `replacement` at the start of a word, unless the guard stands before. -/
structure RenameRule where
  kind : SymbolKind
  literal : List Char
  replacement : List Char
  guard? : Option (List Char)
  deriving DecidableEq, Repr

namespace RenameRule

def marks (rule : RenameRule) (text : List Char) : List Mark :=
  scan rule.literal rule.guard? text

/-- What a mark stands for in the text. -/
def source (rule : RenameRule) : Mark → List Char
  | .char c => [c]
  | .hit _ => rule.literal

/-- What a mark becomes. -/
def target (rule : RenameRule) : Mark → List Char
  | .char c => [c]
  | .hit true => rule.literal
  | .hit false => rule.replacement

def rename (rule : RenameRule) (text : List Char) : List Char :=
  (rule.marks text).flatMap rule.target

def count (rule : RenameRule) (text : List Char) : Nat :=
  (rule.marks text).count (.hit false)

/-- The byte offsets of the marks that are replaced, where the first mark stands at `offset`. -/
def offsetsFrom (rule : RenameRule) (offset : Nat) : List Mark → List Nat
  | [] => []
  | mark :: rest =>
    let later := rule.offsetsFrom (offset + (Utf8.encode (rule.source mark)).length) rest
    if mark = .hit false then offset :: later else later

/-- The byte offsets of the occurrences that the rule replaces, in increasing order. -/
def offsets (rule : RenameRule) (text : List Char) : List Nat :=
  rule.offsetsFrom 0 (rule.marks text)

/-! ## A rule that replaces nothing -/

variable {rule : RenameRule}

/-- Nothing of a text is lost by marking it. -/
theorem flatMap_source_scanFrom (h : rule.literal ≠ []) (before text : List Char) :
    (scanFrom rule.literal rule.guard? before text).flatMap rule.source = text := by
  fun_induction scanFrom rule.literal rule.guard? before text with
  | case1 => rfl
  | case2 before c rest hmatch ih =>
      obtain ⟨-, hprefix⟩ := Bool.and_eq_true_iff.mp hmatch
      obtain ⟨later, hlater⟩ := List.isPrefixOf_iff_prefix.mp hprefix
      obtain ⟨first, others, hliteral⟩ := List.exists_cons_of_ne_nil h
      rw [hliteral, List.cons_append, List.cons.injEq] at hlater
      obtain ⟨rfl, rfl⟩ := hlater
      simp only [List.unattach_reverse, List.unattach_attach] at ih
      rw [List.flatMap_cons, ih, source, hliteral, List.length_cons, Nat.add_sub_cancel,
        List.drop_left, List.cons_append]
  | case3 before c rest _ ih => rw [List.flatMap_cons, ih, source, List.singleton_append]

theorem target_eq_source {mark : Mark} (h : mark ≠ .hit false) :
    rule.target mark = rule.source mark := by
  match mark with
  | .char c => rfl
  | .hit true => rfl
  | .hit false => exact absurd rfl h

theorem rename_of_count_eq_zero (h : rule.literal ≠ []) {text : List Char}
    (hcount : rule.count text = 0) : rule.rename text = text := by
  have hmarks : ∀ mark ∈ rule.marks text, rule.target mark = rule.source mark := by
    intro mark hmark
    apply target_eq_source
    rintro rfl
    exact List.count_eq_zero.mp hcount hmark
  rw [rename, List.flatMap_def, List.map_congr_left hmarks, ← List.flatMap_def]
  exact flatMap_source_scanFrom h [] text

end RenameRule
end SymbolRename
