import SymbolRename.Source
import SymbolRename.Proofs.Diff.Hunks
import SymbolRename.Proofs.Text.Decimal

/-!
# Reading a patch back

A patch is read line by line: the first character of a line tells whether it is a header, a line of
a hunk or the remark that the line before has no newline.  Lines of the texts can look like any of
these, but in a patch they stand behind a sign.  The hunks that are read are those that were
written, so that applying what is read turns the old text into the new one.

What is written goes through a cut: of the formatted text, the part from the first hunk on is kept.
`cutHeader_formatted` says that this is all hunks and nothing else, whatever the texts look like.
-/

namespace SymbolRename
namespace Diff

/-! ## The reader -/

/-- A range of lines: how many lines stand before it, and how many it has. -/
structure LineRange where
  before : Nat
  length : Nat
  deriving DecidableEq, Repr

/-- The range that is stated by its first line, counted from one, and its length.  An empty range is
stated by the line after which it stands. -/
def LineRange.stated? (first length : Nat) : Option LineRange :=
  if length = 0 then some ⟨first, 0⟩
  else if first = 0 then none
  else some ⟨first - 1, length⟩

def readNumber? (digits : List Char) : Option Nat :=
  if digits ≠ [] ∧ digits.all Char.isDigit then some (decimalValue digits) else none

/-- A range without a length has one line. -/
def readRange? (text : List Char) : Option LineRange :=
  match text.splitOn ',' with
  | [first] => do LineRange.stated? (← readNumber? first) 1
  | [first, length] => do LineRange.stated? (← readNumber? first) (← readNumber? length)
  | _ => none

/-- What a line of a patch says. -/
inductive PatchLine where
  | header (old new : LineRange)
  | body (line : HunkLine (List Char))
  /-- The line before has no newline. -/
  | unended
  deriving DecidableEq, Repr

def readHeader? (line : List Char) : Option PatchLine :=
  match line.splitOn ' ' with
  | [['@', '@'], '-' :: old, '+' :: new, ['@', '@', '\n']] => do
    some (.header (← readRange? old) (← readRange? new))
  | _ => none

def readLine? : List Char → Option PatchLine
  | ' ' :: line => some (.body (.context line))
  | '-' :: line => some (.body (.removed line))
  | '+' :: line => some (.body (.added line))
  | ['\n'] => some (.body (.context ['\n']))
  | '\\' :: line => if line = " No newline at end of file\n".toList then some .unended else none
  | line => readHeader? line

def HunkLine.map {α β : Type} (f : α → β) : HunkLine α → HunkLine β
  | .context line => .context (f line)
  | .removed line => .removed (f line)
  | .added line => .added (f line)

/-- Puts the lines of a patch together: lines of a hunk whose header has not been read, and the
hunks behind them.  A header must state the lengths of its hunk. -/
def gather : List PatchLine → Option (List (HunkLine (List Char)) × List (Hunk (List Char)))
  | [] => some ([], [])
  | .body line :: .unended :: rest =>
    (gather rest).map fun (lines, hunks) ↦ (line.map List.dropLast :: lines, hunks)
  | .body line :: rest => (gather rest).map fun (lines, hunks) ↦ (line :: lines, hunks)
  | .header old new :: rest =>
    (gather rest).bind fun (lines, hunks) ↦
      if lines.countP HunkLine.isOld = old.length ∧ lines.countP HunkLine.isNew = new.length then
        some ([], ⟨old.before, new.before, lines⟩ :: hunks)
      else none
  -- nothing stands before the remark that could lose its newline
  | .unended :: _ => none

/-- The hunks of a patch, from the first header on. -/
def readHunks? (text : List Char) : Option (List (Hunk (List Char))) :=
  match ((splitLines text).mapM readLine?).bind gather with
  | some ([], hunks) => some hunks
  | _ => none

/-! ## Lines -/

/-- One line of a text, with or without its newline. -/
inductive IsLine : List Char → Prop where
  | ended {body : List Char} (h : '\n' ∉ body) : IsLine (body ++ ['\n'])
  | unended {body : List Char} (h : '\n' ∉ body) (nonempty : body ≠ []) : IsLine body

theorem splitLines_append {body : List Char} (h : '\n' ∉ body) (rest : List Char) :
    splitLines (body ++ '\n' :: rest) = (body ++ ['\n']) :: splitLines rest := by
  induction body with
  | nil => simp [splitLines]
  | cons c body ih =>
      have hc : c ≠ '\n' := fun e ↦ h (e ▸ List.mem_cons_self)
      rw [List.cons_append, splitLines, if_neg hc, ih fun hmem ↦ h (List.mem_cons_of_mem c hmem)]
      rfl

theorem IsLine.cons {c : Char} {line : List Char} (hc : c ≠ '\n') (h : IsLine line) :
    IsLine (c :: line) := by
  cases h with
  | @ended body hbody =>
      exact @IsLine.ended (c :: body) (by simpa [Ne.symm hc] using hbody)
  | unended hbody nonempty =>
      exact .unended (by simpa [Ne.symm hc] using hbody) (List.cons_ne_nil _ _)

theorem isLine_of_mem_splitLines {text line : List Char} (h : line ∈ splitLines text) :
    IsLine line := by
  induction text generalizing line with
  | nil => cases h
  | cons c text ih =>
      rw [splitLines] at h
      by_cases hc : c = '\n'
      · rw [if_pos hc] at h
        rcases List.mem_cons.mp h with rfl | h
        · exact hc ▸ @IsLine.ended [] List.not_mem_nil
        · exact ih h
      · rw [if_neg hc] at h
        cases hlines : splitLines text with
        | nil =>
            rw [hlines] at h
            rw [List.mem_singleton.mp h]
            exact .unended (by simpa using Ne.symm hc) (List.cons_ne_nil _ _)
        | cons first lines =>
            rw [hlines] at h ih
            rcases List.mem_cons.mp h with rfl | h
            · exact (ih List.mem_cons_self).cons hc
            · exact ih (List.mem_cons_of_mem first h)

/-! ## What a text says -/

/-- In a patch, a text adds these lines to what is read behind it. -/
def ReadsAs (text : List Char) (items : List PatchLine) : Prop :=
  ∀ rest, (splitLines (text ++ rest)).mapM readLine? =
    ((splitLines rest).mapM readLine?).map (items ++ ·)

namespace ReadsAs

theorem nil : ReadsAs [] [] := fun rest ↦ by simp

theorem append {first second : List Char} {items others : List PatchLine}
    (hfirst : ReadsAs first items) (hsecond : ReadsAs second others) :
    ReadsAs (first ++ second) (items ++ others) := by
  intro rest
  rw [List.append_assoc, hfirst, hsecond, Option.map_map]
  simp [Function.comp_def]

theorem flatMap {α : Type} {text : α → List Char} {items : α → List PatchLine} {list : List α}
    (h : ∀ a ∈ list, ReadsAs (text a) (items a)) :
    ReadsAs (list.flatMap text) (list.flatMap items) := by
  induction list with
  | nil => exact nil
  | cons a list ih =>
      exact (h a List.mem_cons_self).append (ih fun b hb ↦ h b (List.mem_cons_of_mem a hb))

theorem line {body : List Char} {item : PatchLine} (h : '\n' ∉ body)
    (hread : readLine? (body ++ ['\n']) = some item) : ReadsAs (body ++ ['\n']) [item] := by
  intro rest
  rw [List.append_assoc, List.singleton_append, splitLines_append h, List.mapM_cons, hread]
  cases (splitLines rest).mapM readLine? <;> rfl

end ReadsAs

/-! ## Headers -/

theorem readNumber?_decimal (n : Nat) : readNumber? (decimal n) = some n := by
  have hdigits : (decimal n).all Char.isDigit = true :=
    List.all_eq_true.mpr fun c hc ↦ isDigit_of_mem_decimal hc
  rw [readNumber?, if_pos ⟨decimal_ne_nil n, hdigits⟩, decimalValue_decimal]

theorem not_mem_decimal {c : Char} (h : c.isDigit = false) (n : Nat) : c ∉ decimal n := by
  intro hmem
  rw [isDigit_of_mem_decimal hmem] at h
  cases h

theorem not_mem_rangeText {c : Char} (h : c.isDigit = false) (hcomma : c ≠ ',')
    (start length : Nat) : c ∉ rangeText start length := by
  rw [rangeText]
  split
  · exact not_mem_decimal h _
  · simp [not_mem_decimal h, hcomma]

theorem readRange?_rangeText (start length : Nat) :
    readRange? (rangeText start length) = some ⟨start, length⟩ := by
  have hcomma (n : Nat) : ',' ∉ decimal n := not_mem_decimal (by decide) n
  by_cases h : length = 1
  · rw [rangeText, if_pos h, readRange?, List.splitOn_eq_singleton (hcomma _)]
    simp [readNumber?_decimal, LineRange.stated?, h]
  · let first := if length = 0 then start else start + 1
    have hparts : rangeText start length = [','].intercalate [decimal first, decimal length] := by
      simp [rangeText, h, List.intercalate, first]
    have hsplit : (rangeText start length).splitOn ',' = [decimal first, decimal length] := by
      rw [hparts]
      exact List.splitOn_intercalate ',' (by simp [hcomma]) (List.cons_ne_nil _ _)
    rw [readRange?, hsplit]
    simp only [readNumber?_decimal]
    by_cases hzero : length = 0 <;> simp [first, LineRange.stated?, hzero]

theorem readLine?_header {α : Type} (hunk : Hunk α) :
    readLine? hunk.header =
      some (.header ⟨hunk.oldStart, hunk.lines.countP HunkLine.isOld⟩
        ⟨hunk.newStart, hunk.lines.countP HunkLine.isNew⟩) := by
  let old := rangeText hunk.oldStart (hunk.lines.countP HunkLine.isOld)
  let new := rangeText hunk.newStart (hunk.lines.countP HunkLine.isNew)
  have hparts : hunk.header =
      [' '].intercalate [['@', '@'], '-' :: old, '+' :: new, ['@', '@', '\n']] := by
    unfold Hunk.header
    simp [List.intercalate, old, new]
  have hblank (start length : Nat) : ' ' ∉ rangeText start length :=
    not_mem_rangeText (by decide) (by decide) start length
  have hsplit : hunk.header.splitOn ' ' =
      [['@', '@'], '-' :: old, '+' :: new, ['@', '@', '\n']] := by
    rw [hparts]
    exact List.splitOn_intercalate ' ' (by simp [old, new, hblank]) (List.cons_ne_nil _ _)
  have hreads : readLine? hunk.header = readHeader? hunk.header := by
    rw [hparts]
    rfl
  rw [hreads, readHeader?, hsplit]
  simp [old, new, readRange?_rangeText]

theorem readsAs_header {α : Type} (hunk : Hunk α) :
    ReadsAs hunk.header
      [.header ⟨hunk.oldStart, hunk.lines.countP HunkLine.isOld⟩
        ⟨hunk.newStart, hunk.lines.countP HunkLine.isNew⟩] := by
  have hnewline (start length : Nat) : '\n' ∉ rangeText start length :=
    not_mem_rangeText (by decide) (by decide) start length
  have hheader : hunk.header =
      ("@@ -".toList ++ rangeText hunk.oldStart (hunk.lines.countP HunkLine.isOld) ++
        " +".toList ++ rangeText hunk.newStart (hunk.lines.countP HunkLine.isNew) ++
        " @@".toList) ++ ['\n'] := by
    unfold Hunk.header
    simp
  have hread := readLine?_header hunk
  rw [hheader] at hread ⊢
  exact .line (by simp [hnewline]) hread

/-! ## Lines of a hunk -/

namespace HunkLine

def content {α : Type} : HunkLine α → α
  | .context line => line
  | .removed line => line
  | .added line => line

def sign : HunkLine (List Char) → List Char
  | .context line => if line = ['\n'] then [] else [' ']
  | .removed _ => ['-']
  | .added _ => ['+']

/-- A line without a newline is written with one that is taken back. -/
def patchLines (line : HunkLine (List Char)) : List PatchLine :=
  if line.content.getLast? = some '\n' then [.body line]
  else [.body (line.map (· ++ ['\n'])), .unended]

theorem text_eq_signedLine (line : HunkLine (List Char)) :
    line.text = signedLine line.sign line.content := by
  cases line <;> rfl

theorem newline_not_mem_sign (line : HunkLine (List Char)) : '\n' ∉ line.sign := by
  cases line with
  | context line => rw [sign]; split <;> decide
  | removed line => simp [sign]
  | added line => simp [sign]

theorem readLine?_sign_append (line : HunkLine (List Char)) :
    readLine? (line.sign ++ line.content) = some (.body line) := by
  cases line with
  | context line =>
      by_cases h : line = ['\n']
      · rw [h]; rfl
      · rw [sign, if_neg h]; rfl
  | removed line => rfl
  | added line => rfl

theorem content_map {α β : Type} (f : α → β) (line : HunkLine α) :
    (line.map f).content = f line.content := by
  cases line <;> rfl

theorem sign_map_append {line : HunkLine (List Char)} (h : line.content ≠ [])
    (hnewline : '\n' ∉ line.content) : (line.map (· ++ ['\n'])).sign = line.sign := by
  cases line with
  | context line =>
      have hline : line ≠ ['\n'] := fun e ↦ hnewline (e ▸ List.mem_singleton_self _)
      have hended : line ++ ['\n'] ≠ ['\n'] := fun e ↦ h (List.append_left_eq_self.mp e)
      rw [map, sign, sign, if_neg hline, if_neg hended]
  | removed line => rfl
  | added line => rfl

theorem readsAs_text {line : HunkLine (List Char)} (h : IsLine line.content) :
    ReadsAs line.text line.patchLines := by
  have hsign := line.newline_not_mem_sign
  have hread := line.readLine?_sign_append
  rw [text_eq_signedLine, signedLine, patchLines]
  generalize hcontent : line.content = content at h hread ⊢
  cases h with
  | @ended body hbody =>
      have hlast : (body ++ ['\n']).getLast? = some '\n' := List.getLast?_concat
      rw [← List.append_assoc] at hread
      rw [if_pos hlast, if_pos hlast, List.append_nil, ← List.append_assoc]
      exact .line (by simp [hsign, hbody]) hread
  | unended hbody nonempty =>
      have hlast : content.getLast? ≠ some '\n' := fun e ↦ hbody (List.mem_of_getLast? e)
      -- the line is not empty, so the added newline does not take its sign away
      have hended : readLine? (line.sign ++ content ++ ['\n']) =
          some (.body (line.map (· ++ ['\n']))) := by
        have hread := (line.map (· ++ ['\n'])).readLine?_sign_append
        rwa [sign_map_append (hcontent ▸ nonempty) (hcontent ▸ hbody), content_map, hcontent,
          ← List.append_assoc] at hread
      have hremark : ReadsAs ("\\ No newline at end of file".toList ++ ['\n']) [.unended] :=
        .line (by decide) (by simp [readLine?])
      have hnoNewline : noNewline = ['\n'] ++ ("\\ No newline at end of file".toList ++ ['\n']) := rfl
      rw [if_neg hlast, if_neg hlast, hnoNewline, ← List.append_assoc (line.sign ++ content)]
      exact (ReadsAs.line (by simp [hsign, hbody]) hended).append hremark

theorem gather_patchLines_append (line : HunkLine (List Char)) {items : List PatchLine}
    (h : items.head? ≠ some .unended) :
    gather (line.patchLines ++ items) =
      (gather items).map fun (lines, hunks) ↦ (line :: lines, hunks) := by
  rw [patchLines]
  split
  · have hnext : ∀ rest, items = .unended :: rest → False := by
      rintro rest rfl
      exact h rfl
    rw [List.singleton_append, gather]
    exact hnext
  · have hline : (line.map (· ++ ['\n'])).map List.dropLast = line := by
      cases line <;> simp [map]
    rw [List.cons_append, List.singleton_append, gather, hline]

theorem head?_patchLines_append (line : HunkLine (List Char)) (items : List PatchLine) :
    (line.patchLines ++ items).head? ≠ some .unended := by
  rw [patchLines]
  split <;> simp

end HunkLine

/-! ## Hunks -/

theorem gather_lines_append (lines : List (HunkLine (List Char))) {items : List PatchLine}
    (h : items.head? ≠ some .unended) :
    gather (lines.flatMap HunkLine.patchLines ++ items) =
      (gather items).map fun (later, hunks) ↦ (lines ++ later, hunks) := by
  induction lines with
  | nil => simp
  | cons line lines ih =>
      have hnext : (lines.flatMap HunkLine.patchLines ++ items).head? ≠ some .unended := by
        cases lines with
        | nil => exact h
        | cons next lines =>
            rw [List.flatMap_cons, List.append_assoc]
            exact next.head?_patchLines_append _
      rw [List.flatMap_cons, List.append_assoc, line.gather_patchLines_append hnext, ih,
        Option.map_map]
      rfl

namespace Hunk

def patchLines (hunk : Hunk (List Char)) : List PatchLine :=
  .header ⟨hunk.oldStart, hunk.lines.countP HunkLine.isOld⟩
      ⟨hunk.newStart, hunk.lines.countP HunkLine.isNew⟩ ::
    hunk.lines.flatMap HunkLine.patchLines

theorem readsAs_text {hunk : Hunk (List Char)} (h : ∀ line ∈ hunk.lines, IsLine line.content) :
    ReadsAs hunk.text hunk.patchLines :=
  (readsAs_header hunk).append (.flatMap fun line hline ↦ HunkLine.readsAs_text (h line hline))

end Hunk

theorem gather_patchLines (hunks : List (Hunk (List Char))) :
    gather (hunks.flatMap Hunk.patchLines) = some ([], hunks) := by
  induction hunks with
  | nil => rfl
  | cons hunk hunks ih =>
      have hnext : (hunks.flatMap Hunk.patchLines).head? ≠ some .unended := by
        cases hunks <;> simp [Hunk.patchLines]
      rw [List.flatMap_cons, Hunk.patchLines, List.cons_append, gather,
        gather_lines_append _ hnext, ih]
      simp

theorem readHunks?_text {hunks : List (Hunk (List Char))}
    (h : ∀ hunk ∈ hunks, ∀ line ∈ hunk.lines, IsLine line.content) :
    readHunks? (hunks.flatMap Hunk.text) = some hunks := by
  have hreads : ReadsAs (hunks.flatMap Hunk.text) (hunks.flatMap Hunk.patchLines) :=
    .flatMap fun hunk hmem ↦ Hunk.readsAs_text (h hunk hmem)
  have hitems := hreads []
  rw [List.append_nil] at hitems
  rw [readHunks?, hitems]
  simp [splitLines, gather_patchLines]

example : readHunks? "@@ -2 +1,0 @@\n-@@\n\\ No newline at end of file\n".toList =
    some [⟨1, 1, [.removed "@@".toList]⟩] := by
  cbv

/-! ## Applying what is read -/

def applyPatch? (old : List Char) (hunks : List (Hunk (List Char))) : Option (List Char) :=
  (applyHunks 0 (splitLines old) hunks).map List.flatten

theorem HunkLine.exists_content_mem_linesOn {α : Type} (line : HunkLine α) :
    ∃ side, line.content ∈ line.linesOn side := by
  cases line with
  | context line => exact ⟨.old, List.mem_singleton_self line⟩
  | removed line => exact ⟨.old, List.mem_singleton_self line⟩
  | added line => exact ⟨.new, List.mem_singleton_self line⟩

theorem hunks_standsIn {α : Type} [DecidableEq α] {xs ys : List α} {hunk : Hunk α}
    (h : hunk ∈ hunks xs ys) (side : Side) : hunk.StandsIn side (side.pick xs ys) := by
  obtain ⟨front, back, htext, hfront⟩ := (hunks_patches xs ys).standsIn h side
  exact ⟨front, back, htext, by omega⟩

/-- The hunks of two texts show lines of these texts only. -/
theorem isLine_of_mem_hunks {old new : List Char} {hunk : Hunk (List Char)}
    (hhunk : hunk ∈ hunks (splitLines old) (splitLines new)) {line : HunkLine (List Char)}
    (hline : line ∈ hunk.lines) : IsLine line.content := by
  obtain ⟨side, hmem⟩ := line.exists_content_mem_linesOn
  have hshown : line.content ∈ hunk.linesOn side := List.mem_flatMap.mpr ⟨line, hline, hmem⟩
  obtain ⟨front, back, htext, -⟩ := hunks_standsIn hhunk side
  have htext : line.content ∈ side.pick (splitLines old) (splitLines new) := by
    rw [htext]
    exact List.mem_append_right front (List.mem_append_left back hshown)
  cases side with
  | old => exact isLine_of_mem_splitLines htext
  | new => exact isLine_of_mem_splitLines htext

theorem applyPatch?_hunks (old new : List Char) :
    applyPatch? old (hunks (splitLines old) (splitLines new)) = some new := by
  have happlies : applyHunks 0 (splitLines old) (hunks (splitLines old) (splitLines new)) =
      some (splitLines new) :=
    (hunks_patches (splitLines old) (splitLines new)).applyHunks_eq
  rw [applyPatch?, happlies, Option.map_some, flatten_splitLines]

/-! ## The cut -/

/-- A front without the first character of the separator is passed over. -/
theorem splitOnce_append {c : Char} {front : List Char} (h : c ∉ front)
    (separator rest : List Char) :
    splitOnce (c :: separator) (front ++ rest) =
      (splitOnce (c :: separator) rest).map fun (before, after) ↦ (front ++ before, after) := by
  induction front with
  | nil => simp
  | cons d front ih =>
      obtain ⟨hd, hfront⟩ := not_or.mp (List.mem_cons.not.mp h)
      have hother : (c :: separator).isPrefixOf (d :: (front ++ rest)) = false := by
        rw [List.isPrefixOf, beq_eq_false_iff_ne.mpr hd, Bool.false_and]
      rw [List.cons_append, splitOnce, hother, if_neg Bool.false_ne_true, ih hfront,
        Option.map_map]
      rfl

theorem Hunk.exists_text_eq (hunk : Hunk (List Char)) : ∃ rest, hunk.text = '@' :: '@' :: rest := by
  unfold Hunk.text Hunk.header
  exact ⟨_, rfl⟩

/-- The two lines of the header hold no separator and none stands between them, so that the first
one ends the header. -/
theorem splitOnce_header (body : List Char) :
    splitOnce "\n@@".toList ("--- original\n+++ modified\n".toList ++ body) =
      (splitOnce "\n@@".toList ('\n' :: body)).map fun (before, after) ↦
        ("--- original\n+++ modified".toList ++ before, after) := by
  have hlines : "--- original\n+++ modified\n".toList ++ body =
      "--- original".toList ++ '\n' :: ("+++ modified".toList ++ '\n' :: body) := rfl
  have hseparator : "\n@@".toList = '\n' :: "@@".toList := rfl
  have hbetween : ('\n' :: "@@".toList).isPrefixOf
      ('\n' :: ("+++ modified".toList ++ '\n' :: body)) = false := rfl
  rw [hlines, hseparator, splitOnce_append (by decide), splitOnce, hbetween,
    if_neg Bool.false_ne_true, splitOnce_append (by decide), Option.map_map, Option.map_map]
  rfl

theorem cutHeader_formatted (old new : List Char) :
    cutHeader (formatted old new) =
      (hunks (splitLines old) (splitLines new)).flatMap Hunk.text := by
  unfold cutHeader formatted
  rw [splitOnce_header]
  cases hunks (splitLines old) (splitLines new) with
  | nil => rfl
  | cons hunk later =>
      obtain ⟨rest, htext⟩ := hunk.exists_text_eq
      rw [List.flatMap_cons, htext]
      rfl

/-! ## The end of a patch -/

theorem getLast?_append_flatMap {α : Type} {text : α → List Char} {list : List α}
    (h : ∀ a ∈ list, (text a).getLast? = some '\n') {front : List Char}
    (hfront : front.getLast? = some '\n') :
    (front ++ list.flatMap text).getLast? = some '\n' := by
  induction list generalizing front with
  | nil => simpa using hfront
  | cons a list ih =>
      rw [List.flatMap_cons, ← List.append_assoc]
      apply ih fun b hb ↦ h b (List.mem_cons_of_mem a hb)
      rw [List.getLast?_append, h a List.mem_cons_self]
      rfl

theorem HunkLine.getLast?_text (line : HunkLine (List Char)) : line.text.getLast? = some '\n' := by
  rw [text_eq_signedLine, signedLine]
  split
  · next h => rw [List.append_nil, List.getLast?_append, h]; rfl
  · rw [List.getLast?_append]; rfl

theorem Hunk.getLast?_text (hunk : Hunk (List Char)) : hunk.text.getLast? = some '\n' := by
  refine getLast?_append_flatMap (fun line _ ↦ line.getLast?_text) ?_
  unfold Hunk.header
  rw [List.getLast?_append]
  rfl

/-- Two lines that name a file, and the hunks of two texts. -/
def unifiedDiff (path : String) (old new : List Char) : List Char :=
  "--- a/".toList ++ path.toList ++ "\n+++ b/".toList ++ path.toList ++ '\n' ::
    (hunks (splitLines old) (splitLines new)).flatMap Hunk.text

theorem getLast?_unifiedDiff (path : String) (old new : List Char) :
    (unifiedDiff path old new).getLast? = some '\n' := by
  unfold unifiedDiff
  rw [List.append_cons]
  exact getLast?_append_flatMap (fun hunk _ ↦ hunk.getLast?_text) List.getLast?_concat

/-- The cut leaves the hunks as they are, and they end with a newline already. -/
theorem patch_eq_unifiedDiff (path : String) (old new : List Char) :
    patch path old new = unifiedDiff path old new := by
  unfold patch
  rw [cutHeader_formatted]
  exact if_pos (getLast?_unifiedDiff path old new)

theorem ofList_unifiedDiff (path : String) (old new : List Char) :
    String.ofList (unifiedDiff path old new) =
      "--- a/" ++ path ++ "\n+++ b/" ++ path ++ "\n" ++
        String.ofList ((hunks (splitLines old) (splitLines new)).flatMap Hunk.text) := by
  unfold unifiedDiff
  rw [List.append_cons, String.ofList_append, String.ofList_append, String.ofList_append,
    String.ofList_append, String.ofList_append, String.ofList_toList, String.ofList_toList,
    String.ofList_toList]

end Diff

/-- The patch of a changed file has two lines that name the file, and then hunks.  Read back and
applied to the text that was read, they give the text that is to be written.  Every hunk stands in
both texts where it says. -/
theorem SourceFile.patch_applies (file : SourceFile) (h : file.changed = true) :
    ∃ body hunks,
      file.patch = "--- a/" ++ file.path ++ "\n+++ b/" ++ file.path ++ "\n" ++ String.ofList body ∧
      Diff.readHunks? body = some hunks ∧
      Diff.applyPatch? file.text.toList hunks = some file.transformed.toList ∧
      (∀ hunk ∈ hunks, hunk.StandsIn .old (splitLines file.text.toList) ∧
        hunk.StandsIn .new (splitLines file.transformed.toList)) ∧
      file.patch.toList.getLast? = some '\n' := by
  have hpatch : file.patch = String.ofList
      (Diff.unifiedDiff file.path file.text.toList file.transformed.toList) := by
    rw [SourceFile.patch, if_pos h, Diff.patch_eq_unifiedDiff]
  let hunks := Diff.hunks (splitLines file.text.toList) (splitLines file.transformed.toList)
  refine ⟨hunks.flatMap Diff.Hunk.text, hunks, ?_, ?_, Diff.applyPatch?_hunks _ _, ?_, ?_⟩
  · exact hpatch.trans (Diff.ofList_unifiedDiff _ _ _)
  · exact Diff.readHunks?_text fun hunk hhunk line hline ↦ Diff.isLine_of_mem_hunks hhunk hline
  · exact fun hunk hmem ↦ ⟨Diff.hunks_standsIn hmem .old, Diff.hunks_standsIn hmem .new⟩
  · rw [hpatch, String.toList_ofList]
    exact Diff.getLast?_unifiedDiff _ _ _

/-- A text whose kept lines look like parts of a patch and whose last line has no newline. -/
theorem SourceFile.patch_applies_to_text_like_a_patch :
    ∃ body hunks,
      (SourceFile.mk "a.h" "/src/a.h" [] "ma_x;\n\n--- a/b\n@@ -1 +1 @@" false
        "soloud_ma_x;\n\n--- a/b\n@@ -1 +1 @@" true).patch =
          "--- a/" ++ "a.h" ++ "\n+++ b/" ++ "a.h" ++ "\n" ++ String.ofList body ∧
      Diff.readHunks? body = some hunks ∧ hunks ≠ [] ∧
      Diff.applyPatch? "ma_x;\n\n--- a/b\n@@ -1 +1 @@".toList hunks =
        some "soloud_ma_x;\n\n--- a/b\n@@ -1 +1 @@".toList := by
  obtain ⟨body, hunks, hpatch, hread, happly, -⟩ :=
    patch_applies (SourceFile.mk "a.h" "/src/a.h" [] "ma_x;\n\n--- a/b\n@@ -1 +1 @@" false
      "soloud_ma_x;\n\n--- a/b\n@@ -1 +1 @@" true) rfl
  refine ⟨body, hunks, hpatch, hread, ?_, happly⟩
  rintro rfl
  simp [Diff.applyPatch?, Diff.applyHunks] at happly

end SymbolRename
