import Mathlib.Data.List.TakeDrop
import SymbolRename.Toml.Reader

/-!
# Layout of documents

Blanks, comments and empty lines may stand around everything in a document.  The reader passes over
them up to the first character that is none of them.
-/

namespace SymbolRename
namespace TomlReader

/-! ## Blanks, comments and newlines -/

def IsBlanks (cs : List Char) : Prop := ∀ c ∈ cs, c = ' ' ∨ c = '\t'

inductive IsComment : List Char → Prop where
  | none : IsComment []
  | text {cs : List Char} (h : ∀ c ∈ cs, isPrintable c = true) : IsComment ('#' :: cs)

inductive IsNewline : List Char → Prop where
  | feed : IsNewline ['\n']
  | returnFeed : IsNewline ['\r', '\n']

/-- What may stand behind a statement on its line, with the newline. -/
inductive IsLineEnd : List Char → Prop where
  | intro {blanks comment newline : List Char} (hblanks : IsBlanks blanks)
      (hcomment : IsComment comment) (hnewline : IsNewline newline) :
      IsLineEnd (blanks ++ (comment ++ newline))

/-- Lines without a statement, and the blanks at the front of another line. -/
inductive IsGap : List Char → Prop where
  | blanks {blanks : List Char} (h : IsBlanks blanks) : IsGap blanks
  | line {line gap : List Char} (hline : IsLineEnd line) (hgap : IsGap gap) : IsGap (line ++ gap)

theorem isBlanks_nil : IsBlanks [] := by simp [IsBlanks]

theorem isGap_nil : IsGap [] := .blanks isBlanks_nil

/-- Layout ends in front of this text. -/
structure EndsLayout (rest : List Char) : Prop where
  blanks : skipBlanks rest = rest
  newline : readNewline (skipComment rest) = none

/-- The characters that layout starts with. -/
def layoutStarts : List Char := [' ', '\t', '#', '\r', '\n']

theorem skipBlanks_append {blanks : List Char} (h : IsBlanks blanks) (rest : List Char) :
    skipBlanks (blanks ++ rest) = skipBlanks rest := by
  refine List.dropWhile_append_of_pos fun c hc ↦ ?_
  rcases h c hc with rfl | rfl <;> rfl

theorem skipBlanks_cons {c : Char} (h : c ∉ layoutStarts) (rest : List Char) :
    skipBlanks (c :: rest) = c :: rest := by
  simp only [layoutStarts, List.mem_cons, not_or] at h
  simp [skipBlanks, isBlank, h]

theorem endsLayout_cons {c : Char} (h : c ∉ layoutStarts) (rest : List Char) :
    EndsLayout (c :: rest) := by
  refine ⟨skipBlanks_cons h rest, ?_⟩
  simp only [layoutStarts, List.mem_cons, not_or] at h
  simp [skipComment, readNewline, h]

theorem IsComment.skipComment_eq {comment : List Char} (h : IsComment comment) :
    skipComment comment = [] := by
  cases h with
  | none => rfl
  | @text cs hcs =>
      have hdrop := @List.dropWhile_append_of_pos _ isPrintable cs [] hcs
      simpa [skipComment] using hdrop

theorem IsComment.skipBlanks_append {comment rest : List Char} (h : IsComment comment)
    (hrest : skipBlanks rest = rest) : skipBlanks (comment ++ rest) = comment ++ rest := by
  cases h with
  | none => exact hrest
  | text _ => rfl

theorem IsComment.endsLayout {comment : List Char} (h : IsComment comment) :
    EndsLayout comment := by
  refine ⟨?_, by rw [h.skipComment_eq]; rfl⟩
  cases h <;> rfl

theorem IsComment.readNewline_append {comment newline : List Char} (hcomment : IsComment comment)
    (hnewline : IsNewline newline) (rest : List Char) :
    readNewline (skipComment (comment ++ (newline ++ rest))) = some rest := by
  cases hcomment with
  | none => cases hnewline <;> rfl
  | text hcs =>
      rw [List.cons_append, skipComment, List.dropWhile_append_of_pos hcs]
      cases hnewline <;> rfl

theorem IsLineEnd.readNewline_append {line : List Char} (h : IsLineEnd line) (rest : List Char) :
    readNewline (skipComment (skipBlanks (line ++ rest))) = some rest := by
  obtain @⟨blanks, comment, newline, hblanks, hcomment, hnewline⟩ := h
  have hfront : skipBlanks (newline ++ rest) = newline ++ rest := by cases hnewline <;> rfl
  rw [List.append_assoc, List.append_assoc, skipBlanks_append hblanks,
    hcomment.skipBlanks_append hfront, hcomment.readNewline_append hnewline]

theorem IsLineEnd.readLineEnd_append {line : List Char} (h : IsLineEnd line) (rest : List Char) :
    readLineEnd (line ++ rest) = some rest := by
  have hread := h.readNewline_append rest
  rw [readLineEnd]
  split
  · next heq =>
    rw [heq] at hread
    cases hread
  · exact hread

theorem readLineEnd_last {blanks comment : List Char} (hblanks : IsBlanks blanks)
    (hcomment : IsComment comment) : readLineEnd (blanks ++ comment) = some [] := by
  rw [readLineEnd, skipBlanks_append hblanks, hcomment.endsLayout.blanks, hcomment.skipComment_eq]

theorem IsLineEnd.ne_nil {line : List Char} (h : IsLineEnd line) : line ≠ [] := by
  obtain ⟨_, _, hnewline⟩ := h
  cases hnewline <;> simp

theorem EndsLayout.skipLines_eq {rest : List Char} (h : EndsLayout rest) (fuel : Nat) :
    skipLines fuel rest = rest := by
  cases fuel with
  | zero => rfl
  | succ fuel => simp only [skipLines, h.blanks, h.newline]

theorem IsGap.skipLines_append_of_le {gap rest : List Char} (hgap : IsGap gap)
    (hrest : EndsLayout rest) {fuel : Nat} (hfuel : gap.length ≤ fuel) :
    skipLines fuel (gap ++ rest) = rest := by
  induction hgap generalizing fuel with
  | blanks hblanks =>
      cases fuel with
      | zero => rw [List.length_eq_zero_iff.mp (Nat.le_zero.mp hfuel)]; rfl
      | succ fuel => simp only [skipLines, skipBlanks_append hblanks, hrest.blanks, hrest.newline]
  | line hline _ ih =>
      -- A line end is at least a newline, so that one step is left for each line.
      have hpos := List.length_pos_iff.mpr hline.ne_nil
      rw [List.length_append] at hfuel
      obtain ⟨fuel, rfl⟩ : ∃ n, fuel = n + 1 := ⟨fuel - 1, by omega⟩
      simp only [List.append_assoc, skipLines, hline.readNewline_append]
      exact ih (by omega)

theorem IsGap.skipLines_append {gap rest : List Char} (hgap : IsGap gap)
    (hrest : EndsLayout rest) : skipLines (gap ++ rest).length (gap ++ rest) = rest :=
  hgap.skipLines_append_of_le hrest (by simp)

/-! ## The first character of layout -/

def StartsAsLayout (cs : List Char) : Prop := ∀ c ∈ cs.head?, c ∈ layoutStarts

theorem StartsAsLayout.append {first second : List Char} (hfirst : StartsAsLayout first)
    (hsecond : StartsAsLayout second) : StartsAsLayout (first ++ second) := by
  cases first with
  | nil => exact hsecond
  | cons c first => exact hfirst

theorem IsBlanks.startsAsLayout {blanks : List Char} (h : IsBlanks blanks) :
    StartsAsLayout blanks := by
  intro c hc
  rcases h c (List.mem_of_mem_head? hc) with rfl | rfl <;> simp [layoutStarts]

theorem IsComment.startsAsLayout {comment : List Char} (h : IsComment comment) :
    StartsAsLayout comment := by
  cases h <;> simp [StartsAsLayout, layoutStarts]

theorem IsLineEnd.startsAsLayout {line : List Char} (h : IsLineEnd line) :
    StartsAsLayout line := by
  obtain ⟨hblanks, hcomment, hnewline⟩ := h
  refine hblanks.startsAsLayout.append (hcomment.startsAsLayout.append ?_)
  cases hnewline <;> simp [StartsAsLayout, layoutStarts]

theorem IsGap.startsAsLayout {gap : List Char} (h : IsGap gap) : StartsAsLayout gap := by
  induction h with
  | blanks hblanks => exact hblanks.startsAsLayout
  | line hline _ ih => exact hline.startsAsLayout.append ih

theorem StartsAsLayout.head?_ne {layout : List Char} (h : StartsAsLayout layout) {x : Char}
    (hx : x ∉ layoutStarts) : layout.head? ≠ some x := by
  intro hhead
  exact hx (h x hhead)

/-- Another character stands at the front only if it stands behind the layout. -/
theorem StartsAsLayout.head?_append_ne {layout rest : List Char} (h : StartsAsLayout layout)
    {x : Char} (hx : x ∉ layoutStarts) (hrest : layout = [] → rest.head? ≠ some x) :
    (layout ++ rest).head? ≠ some x := by
  cases layout with
  | nil => exact hrest rfl
  | cons c layout => exact h.head?_ne hx

end TomlReader
end SymbolRename
