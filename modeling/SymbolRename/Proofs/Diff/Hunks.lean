import SymbolRename.Diff.Hunk
import SymbolRename.Proofs.Diff.Script

/-!
# Applying hunks

A list of hunks patches one text into another if both texts consist of the same gaps with the lines
of the hunks between them, and every hunk states how many lines stand before it in either text.  The
hunks of two texts patch the old one into the new one, and such hunks can be applied one after the
other at the old positions that they state.
-/

namespace SymbolRename
namespace Diff

variable {α : Type}

/-! ## Lines of hunks and of edits -/

/-- The lines of a text that are shown by a line of a hunk. -/
def HunkLine.linesOn (side : Side) : HunkLine α → List α
  | .context line => [line]
  | .removed line => if side = .old then [line] else []
  | .added line => if side = .new then [line] else []

/-- The lines of a text that are shown in a part of a hunk. -/
def shownOn (side : Side) (lines : List (HunkLine α)) : List α :=
  lines.flatMap (HunkLine.linesOn side)

def Hunk.linesOn (side : Side) (hunk : Hunk α) : List α := shownOn side hunk.lines

/-- How many lines stand before a hunk. -/
def Hunk.start (side : Side) (hunk : Hunk α) : Nat := side.pick hunk.oldStart hunk.newStart

def Edit.linesOn (side : Side) (edit : Edit α) : List α :=
  edit.gap ++ side.pick edit.removed edit.added

def Edits.linesOn (side : Side) (edits : Edits α) : List α :=
  edits.edits.flatMap (Edit.linesOn side) ++ edits.tail

theorem Edits.linesOn_cons (side : Side) (edit : Edit α) (later : List (Edit α)) (tail : List α) :
    Edits.linesOn side ⟨edit :: later, tail⟩ =
      edit.gap ++ (side.pick edit.removed edit.added ++ Edits.linesOn side ⟨later, tail⟩) := by
  simp [Edits.linesOn, Edit.linesOn]

@[simp] theorem shownOn_append (side : Side) (first second : List (HunkLine α)) :
    shownOn side (first ++ second) = shownOn side first ++ shownOn side second :=
  List.flatMap_append

@[simp] theorem shownOn_context (side : Side) (lines : List α) :
    shownOn side (lines.map .context) = lines := by
  rw [shownOn, List.flatMap_map]
  exact List.flatMap_singleton' lines

@[simp] theorem shownOn_lines (side : Side) (edit : Edit α) :
    shownOn side edit.lines = side.pick edit.removed edit.added := by
  rw [Edit.lines, shownOn_append, shownOn, shownOn, List.flatMap_map, List.flatMap_map]
  cases side with
  | old => simp [HunkLine.linesOn, Side.pick]
  | new => simp [HunkLine.linesOn, Side.pick]

/-! ## Edits of a script -/

namespace Edits

theorem linesOn_keep (side : Side) (lines : List α) (edits : Edits α) :
    (edits.keep lines).linesOn side = lines ++ edits.linesOn side := by
  obtain ⟨list, tail⟩ := edits
  cases list with
  | nil => rfl
  | cons edit list => simp [keep, linesOn, Edit.linesOn]

theorem linesOn_start (on side : Side) (lines : List α) (later : Edits α) :
    (start side lines later).linesOn on = (Run.change side lines).linesOn on ++ later.linesOn on := by
  cases on <;> cases side <;> simp [start, linesOn, Edit.linesOn, Side.pick, Run.linesOn_change]

/-- The first edit has no gap. -/
def StartsWithEdit (edits : Edits α) : Prop :=
  ∃ edit later, edits.edits = edit :: later ∧ edit.gap = []

theorem startsWithEdit_start (side : Side) (lines : List α) (later : Edits α) :
    (start side lines later).StartsWithEdit := by
  cases side <;> exact ⟨_, _, rfl, rfl⟩

theorem StartsWithEdit.join {edits : Edits α} (h : edits.StartsWithEdit) (side : Side)
    (lines : List α) : (edits.join side lines).StartsWithEdit := by
  obtain ⟨list, tail⟩ := edits
  obtain ⟨edit, later, rfl, hgap⟩ := h
  cases side <;> exact ⟨_, _, rfl, hgap⟩

theorem startsWithEdit_ofScript (side : Side) (lines : List α) (script : Script α) :
    (ofScript (.change side lines :: script)).StartsWithEdit := by
  induction script generalizing side lines with
  | nil => exact startsWithEdit_start side lines _
  | cons run script ih =>
      cases run with
      | keep kept => exact startsWithEdit_start side lines _
      | change other others => exact (ih other others).join side lines

theorem linesOn_join (on side : Side) (lines : List α) {edits : Edits α}
    (h : edits.StartsWithEdit) :
    (edits.join side lines).linesOn on = (Run.change side lines).linesOn on ++ edits.linesOn on := by
  obtain ⟨list, tail⟩ := edits
  obtain ⟨edit, later, rfl, hgap⟩ := h
  cases on <;> cases side <;>
    simp [join, linesOn, Edit.linesOn, Side.pick, Run.linesOn_change, hgap]

theorem linesOn_ofScript (side : Side) (script : Script α) :
    (ofScript script).linesOn side = script.linesOn side := by
  fun_induction ofScript script with
  | case1 => rfl
  | case2 lines rest ih => rw [linesOn_keep, ih, Script.linesOn_cons, Run.linesOn_keep]
  | case3 other lines => rw [linesOn_start, Script.linesOn_cons]; rfl
  | case4 other lines kept rest ih =>
      rw [linesOn_start, ih, Script.linesOn_cons _ (.change other lines)]
  | case5 on lines other others rest ih =>
      rw [linesOn_join side on lines (startsWithEdit_ofScript other others rest), ih,
        Script.linesOn_cons _ (.change on lines)]

end Edits

/-! ## Hunks between two texts -/

/-- Both texts consist of the same gaps with the hunks between them, where `before` tells how many
lines stand before either text. -/
inductive Patches : (hunks : List (Hunk α)) → (before : Side → Nat) → (text : Side → List α) →
    Prop where
  | done {before : Side → Nat} {text : Side → List α} (tail : List α)
      (htext : ∀ side, text side = tail) : Patches [] before text
  | hunk {hunk : Hunk α} {hunks : List (Hunk α)} {before behind : Side → Nat}
      {text : Side → List α} (gap : List α) (rest : Side → List α)
      (hstart : ∀ side, hunk.start side = before side + gap.length)
      (htext : ∀ side, text side = gap ++ (hunk.linesOn side ++ rest side))
      (hbehind : ∀ side, behind side = hunk.start side + (hunk.linesOn side).length)
      (later : Patches hunks behind rest) : Patches (hunk :: hunks) before text

theorem length_leading (gap : List α) : (leading gap).length = min contextWidth gap.length := by
  rw [leading, List.length_map, List.length_drop]
  omega

/-- The lines before a change end with those that its hunk shows. -/
theorem exists_hidden_append_leading {gap : List α} {skipped : Nat}
    (h : skipped ≤ gap.length - contextWidth) :
    ∃ hidden, (∀ side, gap.drop skipped = hidden ++ shownOn side (leading gap)) ∧
      skipped + hidden.length = gap.length - (leading gap).length := by
  refine ⟨(gap.take (gap.length - contextWidth)).drop skipped, fun side ↦ ?_, ?_⟩
  · rw [leading, shownOn_context, ← List.drop_append_of_le_length (by simpa using h),
      List.take_append_drop]
  · rw [List.length_drop, List.length_take, length_leading]
    omega

theorem length_leading_le (gap : List α) : (leading gap).length ≤ gap.length := by
  rw [length_leading]
  exact Nat.min_le_right _ _

/-- A hunk is opened at a change, behind the lines of the gap that the hunk before has shown. -/
theorem patches_cons {hunk : Hunk α} {edit : Edit α} {ending : List (HunkLine α)}
    {others : List (Hunk α)} {pos before behind : Side → Nat} {text rest : Side → List α}
    {skipped : Nat} (hskipped : skipped ≤ edit.gap.length - contextWidth)
    (hlines : hunk.lines = leading edit.gap ++ edit.lines ++ ending)
    (hstart : ∀ side, hunk.start side = pos side + edit.gap.length - (leading edit.gap).length)
    (hbefore : ∀ side, before side = pos side + skipped)
    (htext : ∀ side, text side = edit.gap.drop skipped ++
      (side.pick edit.removed edit.added ++ (shownOn side ending ++ rest side)))
    (hbehind : ∀ side, behind side = pos side + edit.gap.length +
      (side.pick edit.removed edit.added).length + (shownOn side ending).length)
    (later : Patches others behind rest) : Patches (hunk :: others) before text := by
  obtain ⟨hidden, hgap, hlength⟩ := exists_hidden_append_leading hskipped
  have hle := length_leading_le edit.gap
  refine .hunk hidden rest (fun side ↦ ?_) (fun side ↦ ?_) (fun side ↦ ?_) later
  · rw [hstart, hbefore]
    omega
  · simp [htext side, Hunk.linesOn, hlines, hgap side]
  · have hlead : (shownOn side (leading edit.gap)).length = (leading edit.gap).length := by
      rw [leading, shownOn_context, List.length_map]
    rw [hbehind, hstart, Hunk.linesOn, hlines, shownOn_append, shownOn_append, shownOn_lines,
      List.length_append, List.length_append, hlead]
    omega

theorem two_mul_contextWidth_le {edit : Edit α} {later : List (Edit α)} {tail : List α}
    (h : sharesHunk edit later tail = false) : 2 * contextWidth ≤ edit.gap.length := by
  rw [sharesHunk, Bool.or_eq_false_iff, decide_eq_false_iff_not] at h
  exact Nat.not_lt.mp h.1

theorem Side.pick_add (side : Side) (oldPos newPos : Nat) (edit : Edit α) :
    side.pick (oldPos + edit.gap.length + edit.removed.length)
        (newPos + edit.gap.length + edit.added.length) =
      side.pick oldPos newPos + edit.gap.length + (side.pick edit.removed edit.added).length := by
  cases side <;> rfl

/-- From an open hunk on, the text goes on with the end of this hunk and with the other hunks. -/
theorem hunksFrom_patches (tail : List α) (oldPos newPos : Nat) (edits : List (Edit α)) :
    ∃ (behind : Side → Nat) (rest : Side → List α),
      (∀ side, behind side = side.pick oldPos newPos +
        (shownOn side (hunksFrom tail oldPos newPos edits).1).length) ∧
      (∀ side, Edits.linesOn side ⟨edits, tail⟩ =
        shownOn side (hunksFrom tail oldPos newPos edits).1 ++ rest side) ∧
      Patches (hunksFrom tail oldPos newPos edits).2 behind rest := by
  induction edits generalizing oldPos newPos with
  | nil =>
      refine ⟨_, fun _ ↦ tail.drop contextWidth, fun _ ↦ rfl, fun side ↦ ?_, .done _ fun _ ↦ rfl⟩
      rw [hunksFrom, trailing, shownOn_context, List.take_append_drop]
      rfl
  | cons edit later ih =>
      obtain ⟨behind, rest, hbehind, htext, hpatches⟩ :=
        ih (oldPos + edit.gap.length + edit.removed.length)
          (newPos + edit.gap.length + edit.added.length)
      simp only [Side.pick_add] at hbehind
      rw [hunksFrom]
      generalize hunksFrom tail (oldPos + edit.gap.length + edit.removed.length)
        (newPos + edit.gap.length + edit.added.length) later = opened at hbehind htext hpatches ⊢
      obtain ⟨ending, others⟩ := opened
      cases hshares : sharesHunk edit later tail with
      | true =>
          refine ⟨behind, rest, fun side ↦ ?_, fun side ↦ ?_, hpatches⟩
          · simp [hbehind side]
            omega
          · simp [Edits.linesOn_cons, htext side]
      | false =>
          -- the open hunk ends with the first lines of the gap, and the next one starts behind them
          have hwidth := two_mul_contextWidth_le hshares
          refine ⟨fun side ↦ side.pick oldPos newPos + contextWidth,
            fun side ↦ edit.gap.drop contextWidth ++
              (side.pick edit.removed edit.added ++ (shownOn side ending ++ rest side)),
            fun side ↦ ?_, fun side ↦ ?_, ?_⟩
          · simp only [Bool.false_eq_true, if_false, trailing, shownOn_context, List.length_take]
            omega
          · simp only [Bool.false_eq_true, if_false, trailing, shownOn_context]
            rw [Edits.linesOn_cons, htext side, ← List.append_assoc (edit.gap.take contextWidth),
              List.take_append_drop]
          · refine patches_cons (show contextWidth ≤ _ by omega) rfl (fun side ↦ ?_)
              (fun side ↦ rfl) (fun side ↦ rfl) hbehind hpatches
            cases side <;> rfl

theorem patches_hunks (edits : Edits α) :
    Patches edits.hunks (fun _ ↦ 0) fun side ↦ edits.linesOn side := by
  obtain ⟨list, tail⟩ := edits
  cases list with
  | nil => exact .done tail fun side ↦ rfl
  | cons edit later =>
      obtain ⟨behind, rest, hbehind, htext, hpatches⟩ := hunksFrom_patches tail
        (edit.gap.length + edit.removed.length) (edit.gap.length + edit.added.length) later
      rw [Edits.hunks]
      refine patches_cons (Nat.zero_le _) rfl (fun side ↦ ?_) (fun side ↦ rfl) (fun side ↦ ?_)
        (fun side ↦ ?_) hpatches
      · cases side <;> simp [Hunk.start, Side.pick]
      · rw [Edits.linesOn_cons, htext side]
        rfl
      · rw [hbehind side]
        cases side <;> simp [Side.pick]

/-- The hunks of two texts stand in them, and all the rest is the same. -/
theorem hunks_patches [DecidableEq α] (xs ys : List α) :
    Patches (hunks xs ys) (fun _ ↦ 0) fun side ↦ side.pick xs ys := by
  have h := patches_hunks (Edits.ofScript (compact (diff xs ys)))
  simp only [Edits.linesOn_ofScript, linesOn_compact, linesOn_diff] at h
  exact h

/-! ## Applying -/

/-- The hunk shows lines of a text at the place that it states. -/
def Hunk.StandsIn (hunk : Hunk α) (side : Side) (text : List α) : Prop :=
  ∃ front back, text = front ++ (hunk.linesOn side ++ back) ∧ front.length = hunk.start side

/-- Applies hunks to a text behind `before` lines.  A hunk applies where all its old lines stand at
the position that it states; these are replaced by its new lines. -/
def applyHunks [DecidableEq α] : (before : Nat) → (text : List α) → List (Hunk α) →
    Option (List α)
  | _, text, [] => some text
  | before, text, hunk :: hunks =>
    let gap := hunk.oldStart - before
    let olds := hunk.linesOn .old
    if before ≤ hunk.oldStart ∧ gap ≤ text.length ∧ olds <+: text.drop gap then
      (applyHunks (hunk.oldStart + olds.length) (text.drop (gap + olds.length)) hunks).map fun rest ↦
        text.take gap ++ hunk.linesOn .new ++ rest
    else none

namespace Patches

variable {hunks : List (Hunk α)} {before : Side → Nat} {text : Side → List α}

theorem applyHunks_eq [DecidableEq α] (h : Patches hunks before text) :
    applyHunks (before .old) (text .old) hunks = some (text .new) := by
  induction h with
  | done tail htext => rw [applyHunks, htext .old, htext .new]
  | @hunk hunk hunks before behind text gap rest hstart htext hbehind later ih =>
      have hold : hunk.oldStart = before .old + gap.length := hstart .old
      have hgap : hunk.oldStart - before .old = gap.length := by omega
      have hrest : hunk.oldStart + (hunk.linesOn .old).length = behind .old := (hbehind .old).symm
      have hdrop : (text .old).drop (gap.length + (hunk.linesOn .old).length) = rest .old := by
        rw [htext .old, ← List.append_assoc, List.drop_left' (by simp)]
      have happlies : before .old ≤ hunk.oldStart ∧ gap.length ≤ (text .old).length ∧
          hunk.linesOn .old <+: (text .old).drop gap.length := by
        refine ⟨by omega, by simp [htext .old], ?_⟩
        rw [htext .old, List.drop_left]
        exact List.prefix_append _ _
      simp only [applyHunks, hgap]
      rw [if_pos happlies, hdrop, hrest, ih, Option.map_some, htext .old, List.take_left,
        htext .new, List.append_assoc]

theorem standsIn (h : Patches hunks before text) {hunk : Hunk α} (hmem : hunk ∈ hunks)
    (side : Side) :
    ∃ front back, text side = front ++ (hunk.linesOn side ++ back) ∧
      before side + front.length = hunk.start side := by
  induction h with
  | done tail htext => cases hmem
  | @hunk first hunks before behind text gap rest hstart htext hbehind later ih =>
      rcases List.mem_cons.mp hmem with rfl | hmem
      · exact ⟨gap, rest side, htext side, (hstart side).symm⟩
      · obtain ⟨front, back, hrest, hfront⟩ := ih hmem
        refine ⟨gap ++ (first.linesOn side ++ front), back, ?_, ?_⟩
        · simp [htext side, hrest]
        · rw [← hfront, hbehind, hstart, List.length_append, List.length_append]
          omega

end Patches

end Diff
end SymbolRename
