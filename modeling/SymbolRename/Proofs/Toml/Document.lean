import SymbolRename.Proofs.Toml.Spelling
import SymbolRename.Proofs.Toml.Table

/-!
# Documents and their statements

A document opens tables and assigns values, each on lines of its own.  Whatever the layout, the
reader finds its statements, and what they name is in the table that the document describes.
-/

namespace SymbolRename
namespace TomlReader

/-! ## Statements -/

structure IsBareKey (name : String) : Prop where
  ne_nil : name.toList ≠ []
  keyChar : ∀ c ∈ name.toList, isKeyChar c = true

/-- A header with one name, or a value under one name. -/
inductive IsStatement : TomlStatement → List Char → Prop where
  | openTable {name : String} {left right : List Char} (hname : IsBareKey name)
      (hleft : IsBlanks left) (hright : IsBlanks right) :
      IsStatement (.openTable [name]) ('[' :: (left ++ (name.toList ++ (right ++ [']']))))
  | assign {name : String} {value : TomlValue} {left right cs : List Char} (hname : IsBareKey name)
      (hleft : IsBlanks left) (hright : IsBlanks right) (hvalue : IsValue value cs) :
      IsStatement (.assign [name] value) (name.toList ++ (left ++ '=' :: (right ++ cs)))

theorem not_mem_layoutStarts_of_isKeyChar {c : Char} (h : isKeyChar c = true) :
    c ∉ layoutStarts := by
  intro hc
  simp only [layoutStarts, List.mem_cons, List.not_mem_nil, or_false] at hc
  rcases hc with rfl | rfl | rfl | rfl | rfl <;> cases h

theorem IsBareKey.exists_cons {name : String} (h : IsBareKey name) :
    ∃ c cs, name.toList = c :: cs ∧ isKeyChar c = true := by
  obtain ⟨c, cs, hcs⟩ := List.exists_cons_of_ne_nil h.ne_nil
  exact ⟨c, cs, hcs, h.keyChar c (by simp [hcs])⟩

theorem IsBareKey.endsLayout {name : String} (h : IsBareKey name) (rest : List Char) :
    EndsLayout (name.toList ++ rest) := by
  obtain ⟨c, cs, hcs, hc⟩ := h.exists_cons
  rw [hcs]
  exact endsLayout_cons (not_mem_layoutStarts_of_isKeyChar hc) _

theorem IsBareKey.readKeyPart_append {name : String} (h : IsBareKey name) {rest : List Char}
    (hrest : ∀ c ∈ rest.head?, isKeyChar c = false) :
    readKeyPart (name.toList ++ rest) = some (name, rest) := by
  have hspan : (name.toList ++ rest).span isKeyChar = (name.toList, rest) := by
    rw [List.span_eq_takeWhile_dropWhile, List.takeWhile_append_of_pos h.keyChar,
      List.dropWhile_append_of_pos h.keyChar]
    cases rest with
    | nil => simp
    | cons c rest => simp [hrest c rfl]
  obtain ⟨c, cs, hcs, hc⟩ := h.exists_cons
  have hquote : ¬ (c = '"' ∨ c = '\'') := by
    rintro (rfl | rfl) <;> cases hc
  rw [hcs, List.cons_append] at hspan ⊢
  simp only [readKeyPart, if_neg hquote, hspan]
  rw [← hcs, String.ofList_toList]

theorem IsBareKey.readKey_append {name : String} (h : IsBareKey name) {left right : List Char}
    (hleft : IsBlanks left) (hright : IsBlanks right) {c : Char} (hc : c = ']' ∨ c = '=')
    (rest : List Char) :
    readKey (left ++ (name.toList ++ (right ++ c :: rest))) = some ([name], c :: rest) := by
  have hlayout : c ∉ layoutStarts := by rcases hc with rfl | rfl <;> simp [layoutStarts]
  have hkeyChar : ∀ d ∈ (right ++ c :: rest).head?, isKeyChar d = false := by
    intro d hd
    by_contra hkey
    rw [Bool.not_eq_false] at hkey
    refine hright.startsAsLayout.head?_append_ne (not_mem_layoutStarts_of_isKeyChar hkey) ?_ hd
    rintro - heq
    cases heq
    rcases hc with rfl | rfl <;> cases hkey
  have hpart := h.readKeyPart_append hkeyChar
  have hblanks : skipBlanks (right ++ c :: rest) = c :: rest := by
    rw [skipBlanks_append hright, skipBlanks_cons hlayout]
  rw [readKey, maxKeyParts, readKeyParts, skipBlanks_append hleft, (h.endsLayout _).blanks]
  simp only [hpart, Option.bind_eq_bind, Option.bind_some, hblanks]
  rcases hc with rfl | rfl <;> rfl

theorem IsBareKey.head?_append_ne {name : String} (h : IsBareKey name) {x : Char}
    (hx : isKeyChar x = false) (rest : List Char) : (name.toList ++ rest).head? ≠ some x := by
  obtain ⟨c, cs, hcs, hc⟩ := h.exists_cons
  rw [hcs]
  rintro heq
  cases heq
  exact absurd hc (by simp [hx])

theorem readStatement_header {name : String} (hname : IsBareKey name) {left right : List Char}
    (hleft : IsBlanks left) (hright : IsBlanks right) (rest : List Char) :
    readStatement ('[' :: (left ++ (name.toList ++ (right ++ ']' :: rest)))) =
      (readLineEnd rest).map (.openTable [name], ·) := by
  have hkey := hname.readKey_append hleft hright (.inl rfl) rest
  have hne := hleft.startsAsLayout.head?_append_ne (x := '[') (by simp [layoutStarts]) fun _ ↦
    hname.head?_append_ne rfl (right ++ ']' :: rest)
  rw [readStatement.eq_def]
  split
  -- Behind the bracket comes a blank or the name, so that this is not a header in double brackets.
  · next later heq => exact absurd (congrArg List.head? (List.cons.inj heq).2) hne
  · next later _ heq =>
    cases heq
    simp only [hkey, Option.bind_eq_bind, Option.bind_some]
    cases readLineEnd rest <;> rfl
  · next hother => exact absurd rfl (hother _)

theorem readStatement_assign {name : String} (hname : IsBareKey name) {left : List Char}
    (hleft : IsBlanks left) (rest : List Char) :
    readStatement (name.toList ++ (left ++ '=' :: rest)) =
      (readValue (2 * rest.length + 2) maxDepth (skipBlanks rest)).bind fun (value, rest) ↦
        (readLineEnd rest).map (.assign [name] value, ·) := by
  have hkey := hname.readKey_append isBlanks_nil hleft (.inr rfl) rest
  have hne := hname.head?_append_ne (x := '[') rfl (left ++ '=' :: rest)
  rw [List.nil_append] at hkey
  rw [readStatement.eq_def]
  split
  · next heq => exact absurd (congrArg List.head? heq) hne
  · next heq => exact absurd (congrArg List.head? heq) hne
  · simp only [hkey, Option.bind_eq_bind, Option.bind_some, readEquals, Option.map_eq_bind,
      Function.comp_def]

/-- A statement is read up to the end of its line. -/
theorem IsStatement.readStatement_append {statement : TomlStatement} {cs : List Char}
    (h : IsStatement statement cs) {line rest : List Char} (hline : readLineEnd line = some rest)
    (hquote : line.head? ≠ some '"') : readStatement (cs ++ line) = some (statement, rest) := by
  cases h with
  | openTable hname hleft hright =>
      simp only [List.cons_append, List.append_assoc, List.nil_append]
      rw [readStatement_header hname hleft hright, hline]
      rfl
  | @assign name value left right cs hname hleft hright hvalue =>
      have hread : readValue (2 * (right ++ (cs ++ line)).length + 2) maxDepth (cs ++ line) =
          some (value, line) :=
        hvalue.readValue_append hquote _ (by simp only [List.length_append]; omega)
      simp only [List.append_assoc, List.cons_append]
      rw [readStatement_assign hname hleft, skipBlanks_append hright,
        (hvalue.endsLayout line).blanks, hread]
      simp only [Option.bind_some, hline, Option.map_some]

/-! ## Documents -/

/-- Statements on lines of their own, and the blanks at the front of another line. -/
inductive IsLines : List TomlStatement → List Char → Prop where
  | nil {gap : List Char} (hgap : IsGap gap) : IsLines [] gap
  | cons {statement : TomlStatement} {statements : List TomlStatement}
      {gap cs line rest : List Char} (hgap : IsGap gap) (hstatement : IsStatement statement cs)
      (hline : IsLineEnd line) (hrest : IsLines statements rest) :
      IsLines (statement :: statements) (gap ++ (cs ++ (line ++ rest)))

/-- A document with these statements.  Its last line may be without a newline. -/
inductive IsDocument : List TomlStatement → List Char → Prop where
  | lines {statements : List TomlStatement} {lines comment : List Char}
      (hlines : IsLines statements lines) (hcomment : IsComment comment) :
      IsDocument statements (lines ++ comment)
  | last {statements : List TomlStatement} {statement : TomlStatement}
      {lines cs blanks comment : List Char} (hlines : IsLines statements lines)
      (hstatement : IsStatement statement cs) (hblanks : IsBlanks blanks)
      (hcomment : IsComment comment) :
      IsDocument (statements ++ [statement]) (lines ++ (cs ++ (blanks ++ comment)))

theorem exists_isDocument {statements : List TomlStatement}
    (h : ∀ statement ∈ statements, ∃ cs, IsStatement statement cs) :
    ∃ cs, IsDocument statements cs := by
  have hlines : ∃ lines, IsLines statements lines := by
    induction statements with
    | nil => exact ⟨[], .nil isGap_nil⟩
    | cons statement statements ih =>
        obtain ⟨⟨cs, hcs⟩, hstatements⟩ := List.forall_mem_cons.mp h
        obtain ⟨rest, hrest⟩ := ih hstatements
        exact ⟨_, .cons isGap_nil hcs (.intro isBlanks_nil .none .feed) hrest⟩
  obtain ⟨lines, hlines⟩ := hlines
  exact ⟨_, .lines hlines .none⟩

theorem IsStatement.exists_cons {statement : TomlStatement} {cs : List Char}
    (h : IsStatement statement cs) :
    ∃ c rest, cs = c :: rest ∧ (c = '[' ∨ isKeyChar c = true) := by
  cases h with
  | openTable => exact ⟨_, _, rfl, .inl rfl⟩
  | assign hname =>
      obtain ⟨c, cs, hcs, hc⟩ := hname.exists_cons
      exact ⟨c, _, by rw [hcs]; rfl, .inr hc⟩

theorem not_mem_layoutStarts {c : Char} (h : c = '[' ∨ isKeyChar c = true) : c ∉ layoutStarts := by
  rcases h with rfl | h
  · simp [layoutStarts]
  · exact not_mem_layoutStarts_of_isKeyChar h

theorem IsStatement.endsLayout {statement : TomlStatement} {cs : List Char}
    (h : IsStatement statement cs) (rest : List Char) : EndsLayout (cs ++ rest) := by
  obtain ⟨c, cs, rfl, hc⟩ := h.exists_cons
  exact endsLayout_cons (not_mem_layoutStarts hc) _

/-- A text that opens with neither layout nor a comment starts with a statement. -/
theorem readStatements_statement {c : Char} (hc : c ∉ layoutStarts) (rest : List Char)
    (fuel : Nat) :
    readStatements (fuel + 1) (c :: rest) =
      (readStatement (c :: rest)).bind fun (statement, rest) ↦
        (readStatements fuel rest).map (statement :: ·) := by
  rw [readStatements, (endsLayout_cons hc rest).skipLines_eq]
  split
  · next heq => cases heq
  · next heq =>
    cases heq
    exact absurd hc (by simp [layoutStarts])
  · rfl

theorem IsGap.readStatements_append {gap rest : List Char} (hgap : IsGap gap)
    (hrest : EndsLayout rest) (fuel : Nat) :
    readStatements fuel (gap ++ rest) = readStatements fuel rest := by
  cases fuel with
  | zero => rfl
  | succ fuel =>
      rw [readStatements, hgap.skipLines_append hrest, readStatements, hrest.skipLines_eq]

theorem IsStatement.readStatements_append {statement : TomlStatement} {cs : List Char}
    (h : IsStatement statement cs) {line rest : List Char} (hline : readLineEnd line = some rest)
    (hquote : line.head? ≠ some '"') (fuel : Nat) :
    readStatements (fuel + 1) (cs ++ line) = (readStatements fuel rest).map (statement :: ·) := by
  have hread := h.readStatement_append hline hquote
  obtain ⟨c, cs, rfl, hc⟩ := h.exists_cons
  rw [List.cons_append] at hread ⊢
  rw [readStatements_statement (not_mem_layoutStarts hc), hread]
  rfl

/-- Lines at the front of a text are read before the rest of it. -/
theorem IsLines.readStatements_append {statements : List TomlStatement} {lines rest : List Char}
    (hlines : IsLines statements lines) (hrest : EndsLayout rest) (fuel : Nat) :
    readStatements (statements.length + fuel) (lines ++ rest) =
      (readStatements fuel rest).map (statements ++ ·) := by
  induction hlines with
  | nil hgap =>
      rw [hgap.readStatements_append hrest]
      simp
  | @cons statement statements gap cs line lines hgap hstatement hline _ ih =>
      have hquote : (line ++ (lines ++ rest)).head? ≠ some '"' :=
        hline.startsAsLayout.head?_append_ne (by simp [layoutStarts]) fun h ↦ absurd h hline.ne_nil
      simp only [List.append_assoc, List.length_cons, Nat.add_right_comm _ 1]
      rw [hgap.readStatements_append (hstatement.endsLayout _),
        hstatement.readStatements_append (hline.readLineEnd_append _) hquote, ih, Option.map_map]
      rfl

theorem IsLines.length_le {statements : List TomlStatement} {lines : List Char}
    (h : IsLines statements lines) : statements.length ≤ lines.length := by
  induction h with
  | nil => simp
  | cons _ _ hline _ ih =>
      have hpos := List.length_pos_iff.mpr hline.ne_nil
      simp only [List.length_append, List.length_cons]
      omega

theorem IsDocument.readStatements_eq {statements : List TomlStatement} {cs : List Char}
    (h : IsDocument statements cs) : readStatements (cs.length + 1) cs = some statements := by
  cases h with
  | @lines _ lines comment hlines hcomment =>
      have hle := hlines.length_le
      obtain ⟨fuel, hfuel⟩ : ∃ n, (lines ++ comment).length + 1 = statements.length + (n + 1) :=
        ⟨(lines ++ comment).length - statements.length, by rw [List.length_append]; omega⟩
      have hend : readStatements (fuel + 1) comment = some [] := by
        rw [readStatements, hcomment.endsLayout.skipLines_eq]
        cases hcomment with
        | none => rfl
        | text hcs => simpa using hcs
      rw [hfuel, hlines.readStatements_append hcomment.endsLayout, hend]
      simp
  | @last statements statement lines cs blanks comment hlines hstatement hblanks hcomment =>
      have hle := hlines.length_le
      obtain ⟨c, later, hcs, _⟩ := hstatement.exists_cons
      have hpos : 0 < cs.length := by simp [hcs]
      obtain ⟨fuel, hfuel⟩ : ∃ n, (lines ++ (cs ++ (blanks ++ comment))).length + 1 =
          statements.length + (n + 1 + 1) :=
        ⟨(lines ++ (cs ++ (blanks ++ comment))).length - statements.length - 1, by
          simp only [List.length_append]; omega⟩
      have hquote : (blanks ++ comment).head? ≠ some '"' :=
        (hblanks.startsAsLayout.append hcomment.startsAsLayout).head?_ne (by simp [layoutStarts])
      rw [hfuel, hlines.readStatements_append (hstatement.endsLayout _),
        hstatement.readStatements_append (readLineEnd_last hblanks hcomment) hquote]
      rfl

theorem IsLines.flat {statements : List TomlStatement} {lines : List Char}
    (h : IsLines statements lines) : ∀ statement ∈ statements, TomlTable.Flat statement := by
  induction h with
  | nil => simp
  | cons _ hstatement _ _ ih =>
      refine List.forall_mem_cons.mpr ⟨?_, ih⟩
      cases hstatement with
      | openTable => exact .openTable _
      | assign => exact .assign _ _

/-- The characters that a document starts with. -/
def StartsDocument (c : Char) : Prop := c ∈ layoutStarts ∨ c = '[' ∨ isKeyChar c = true

theorem IsStatement.head?_append_ne {statement : TomlStatement} {cs : List Char}
    (h : IsStatement statement cs) {x : Char} (hx : ¬ StartsDocument x) (rest : List Char) :
    (cs ++ rest).head? ≠ some x := by
  obtain ⟨c, cs, rfl, hc⟩ := h.exists_cons
  rintro heq
  cases heq
  exact hx (.inr hc)

theorem IsLines.head?_append_ne {statements : List TomlStatement} {lines rest : List Char}
    (h : IsLines statements lines) {x : Char} (hx : ¬ StartsDocument x)
    (hrest : rest.head? ≠ some x) : (lines ++ rest).head? ≠ some x := by
  have hlayout : x ∉ layoutStarts := fun hmem ↦ hx (.inl hmem)
  cases h with
  | nil hgap => exact hgap.startsAsLayout.head?_append_ne hlayout fun _ ↦ hrest
  | cons hgap hstatement =>
      rw [List.append_assoc, List.append_assoc]
      exact hgap.startsAsLayout.head?_append_ne hlayout fun _ ↦ hstatement.head?_append_ne hx _

theorem IsDocument.head?_ne {statements : List TomlStatement} {cs : List Char}
    (h : IsDocument statements cs) {x : Char} (hx : ¬ StartsDocument x) : cs.head? ≠ some x := by
  cases h with
  | lines hlines hcomment =>
      have hlayout : x ∉ layoutStarts := fun hmem ↦ hx (.inl hmem)
      exact hlines.head?_append_ne hx (hcomment.startsAsLayout.head?_ne hlayout)
  | last hlines hstatement =>
      exact hlines.head?_append_ne hx (hstatement.head?_append_ne hx _)

theorem not_startsDocument_mark : ¬ StartsDocument '\uFEFF' := by
  rintro (hlayout | hopen | hkey)
  · simp [layoutStarts] at hlayout
  · cases hopen
  · cases hkey

end TomlReader

namespace TomlTable

open TomlReader

theorem ofText?_eq {text : String} (h : text.toList.head? ≠ some '\uFEFF') :
    ofText? text =
      (readStatements (text.toList.length + 1) text.toList).bind ofStatements? := by
  rw [ofText?]
  split
  · next heq => exact absurd (by rw [heq]; rfl) h
  · rfl

theorem ofText?_of_isDocument {statements : List TomlStatement} {text : String}
    (h : IsDocument statements text.toList) : ofText? text = ofStatements? statements := by
  rw [ofText?_eq (h.head?_ne not_startsDocument_mark), h.readStatements_eq, Option.bind_some]

/-- Behind lines at the front of a text, the next statement comes next, whatever follows. -/
theorem exists_of_ofText?_eq_some {text : String} {table : TomlTable}
    (htable : ofText? text = some table) {statements : List TomlStatement} {lines : List Char}
    (hlines : IsLines statements lines) {c : Char} {rest : List Char}
    (htext : text.toList = lines ++ c :: rest) (hc : c = '[' ∨ isKeyChar c = true) :
    ∃ statement left later, readStatement (c :: rest) = some (statement, left) ∧
      ofStatements? (statements ++ statement :: later) = some table := by
  have hmark : (c :: rest).head? ≠ some '\uFEFF' := by
    rintro heq
    cases heq
    exact not_startsDocument_mark (.inr hc)
  have hhead : text.toList.head? ≠ some '\uFEFF' := by
    rw [htext]
    exact hlines.head?_append_ne not_startsDocument_mark hmark
  have hle := hlines.length_le
  obtain ⟨fuel, hfuel⟩ : ∃ n, text.toList.length + 1 = statements.length + (n + 1) :=
    ⟨text.toList.length - statements.length, by rw [htext, List.length_append]; omega⟩
  have hlayout := not_mem_layoutStarts hc
  rw [ofText?_eq hhead, hfuel, htext,
    hlines.readStatements_append (endsLayout_cons hlayout rest),
    readStatements_statement hlayout] at htable
  obtain ⟨all, hall, htable⟩ := Option.bind_eq_some_iff.mp htable
  obtain ⟨others, hothers, rfl⟩ := Option.map_eq_some_iff.mp hall
  obtain ⟨⟨statement, left⟩, hstatement, hothers⟩ := Option.bind_eq_some_iff.mp hothers
  obtain ⟨later, _, rfl⟩ := Option.map_eq_some_iff.mp hothers
  exact ⟨statement, left, later, hstatement, htable⟩

/-- A key that a line assigns is found in the end, under the header that it was assigned under. -/
theorem exists_inner?_of_ofText? {text : String} {table : TomlTable}
    (htable : ofText? text = some table) {statements : List TomlStatement} {lines : List Char}
    (hlines : IsLines statements lines) {name : String} (hname : IsBareKey name)
    {left rest : List Char} (hleft : IsBlanks left)
    (htext : text.toList = lines ++ (name.toList ++ (left ++ '=' :: rest))) :
    ∃ members, inner? (headerAfter [] statements) table = some members ∧
      (members.lookup name).isSome := by
  have hread := readStatement_assign hname hleft rest
  obtain ⟨c, cs, hcs, hc⟩ := hname.exists_cons
  rw [hcs] at htext hread
  obtain ⟨statement, _, later, hstatement, hresult⟩ :=
    exists_of_ofText?_eq_some htable hlines htext (.inr hc)
  obtain ⟨⟨value, _⟩, _, hline⟩ := Option.bind_eq_some_iff.mp (hread.symm.trans hstatement)
  obtain ⟨_, _, heq⟩ := Option.map_eq_some_iff.mp hline
  cases heq
  exact exists_inner?_of_ofStatements? hlines.flat hresult

theorem lookup_isSome_of_ofText? {text : String} {table : TomlTable}
    (htable : ofText? text = some table) {statements : List TomlStatement} {lines : List Char}
    (hlines : IsLines statements lines) {name : String} (hname : IsBareKey name)
    {left right rest : List Char} (hleft : IsBlanks left) (hright : IsBlanks right)
    (htext : text.toList = lines ++ '[' :: (left ++ (name.toList ++ (right ++ ']' :: rest)))) :
    (table.lookup name).isSome := by
  have hread := readStatement_header hname hleft hright rest
  obtain ⟨statement, _, later, hstatement, hresult⟩ :=
    exists_of_ofText?_eq_some htable hlines htext (.inl rfl)
  obtain ⟨_, _, heq⟩ := Option.map_eq_some_iff.mp (hread.symm.trans hstatement)
  cases heq
  exact lookup_isSome_of_ofStatements? hresult

end TomlTable
end SymbolRename
