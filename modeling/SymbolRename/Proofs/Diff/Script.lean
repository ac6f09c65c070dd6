import SymbolRename.Diff.Compact

/-!
# The two texts of a script

The script that `diff` finds has the two texts that were compared, whatever places the search
proposes.  Moving changes to where they are shown keeps both texts: a changed run passes equal lines
only, and runs of different sides do not care about their order.
-/

namespace SymbolRename
namespace Diff

variable {α : Type}

/-- What belongs to a side. -/
def Side.pick {β : Type} (side : Side) (old new : β) : β :=
  match side with
  | .old => old
  | .new => new

theorem Side.pick_take_append_drop (side : Side) (olds news : List α) (i j : Nat) :
    side.pick (olds.take i) (news.take j) ++ side.pick (olds.drop i) (news.drop j) =
      side.pick olds news := by
  cases side <;> exact List.take_append_drop _ _

/-! ## Texts of the parts -/

namespace Script

@[simp] theorem linesOn_nil (side : Side) : linesOn side ([] : Script α) = [] := rfl

@[simp] theorem linesOn_cons (side : Side) (run : Run α) (script : Script α) :
    linesOn side (run :: script) = run.linesOn side ++ linesOn side script :=
  List.flatMap_cons

@[simp] theorem linesOn_append (side : Side) (first second : Script α) :
    linesOn side (first ++ second) = linesOn side first ++ linesOn side second :=
  List.flatMap_append

end Script

@[simp] theorem Run.linesOn_keep (side : Side) (lines : List α) :
    (Run.keep lines).linesOn side = lines := rfl

theorem Run.linesOn_change (on side : Side) (lines : List α) :
    (Run.change side lines).linesOn on = if side = on then lines else [] := rfl

theorem Run.linesOn_change_append (on side : Side) (lines others : List α) :
    (Run.change side (lines ++ others)).linesOn on =
      (Run.change side lines).linesOn on ++ (Run.change side others).linesOn on := by
  by_cases h : side = on <;> simp [Run.linesOn_change, h]

/-- Runs of different sides can change places. -/
theorem Run.linesOn_comm (on : Side) {side other : Side} (h : other ≠ side)
    (lines others tail : List α) :
    (Run.change side lines).linesOn on ++ ((Run.change other others).linesOn on ++ tail) =
      (Run.change other others).linesOn on ++ ((Run.change side lines).linesOn on ++ tail) := by
  by_cases hside : side = on
  · subst hside
    simp [Run.linesOn_change, h]
  · simp [Run.linesOn_change, hside]

/-- A changed run can pass kept lines that are its own last ones. -/
theorem Run.linesOn_slide (on side : Side) (lines moved tail : List α) :
    moved ++ ((Run.change side (lines ++ moved)).linesOn on ++ tail) =
      (Run.change side (moved ++ lines)).linesOn on ++ (moved ++ tail) := by
  by_cases h : side = on <;> simp [Run.linesOn_change, h]

@[simp] theorem linesOn_keepRun (side : Side) (lines : List α) :
    Script.linesOn side (keepRun lines) = lines := by
  by_cases h : lines = [] <;> simp [keepRun, h]

@[simp] theorem reverse_keepRun (lines : List α) : (keepRun lines).reverse = keepRun lines := by
  by_cases h : lines = [] <;> simp [keepRun, h]

@[simp] theorem linesOn_changeRun (side other : Side) (lines : List α) :
    Script.linesOn side (changeRun other lines) = if other = side then lines else [] := by
  by_cases h : lines = [] <;> simp [changeRun, Run.linesOn_change, h]

@[simp] theorem linesOn_keepBefore (side : Side) (lines : List α) (script : Script α) :
    Script.linesOn side (keepBefore lines script) = lines ++ Script.linesOn side script := by
  cases script with
  | nil => simp [keepBefore]
  | cons run rest => cases run <;> simp [keepBefore]

@[simp] theorem linesOn_reverse_keepAfter (side : Side) (lines : List α) (script : Script α) :
    Script.linesOn side (keepAfter lines script).reverse =
      Script.linesOn side script.reverse ++ lines := by
  cases script with
  | nil => simp [keepAfter]
  | cons run rest => cases run <;> simp [keepAfter]

/-- The script around the changed run of a cursor. -/
def Cursor.script (side : Side) (cursor : Cursor α) : Script α :=
  cursor.before.reverse ++ .change side cursor.lines :: cursor.after

@[simp] theorem Cursor.linesOn_script (on side : Side) (before after : Script α) (lines : List α) :
    Script.linesOn on (Cursor.script side ⟨before, lines, after⟩) =
      Script.linesOn on before.reverse ++
        ((Run.change side lines).linesOn on ++ Script.linesOn on after) := by
  simp [Cursor.script]

/-! ## What two texts share -/

variable [DecidableEq α]

theorem take_commonLength (xs ys : List α) :
    xs.take (commonLength xs ys) = ys.take (commonLength xs ys) := by
  induction xs, ys using commonLength.induct with
  | case1 x xs ys ih => simp [commonLength, ih]
  | case2 x xs y ys h => simp [commonLength, h]
  | case3 xs ys h => simp [commonLength]

theorem drop_commonEndLength (xs ys : List α) :
    xs.drop (xs.length - commonEndLength xs ys) = ys.drop (ys.length - commonEndLength xs ys) := by
  have h := take_commonLength xs.reverse ys.reverse
  rw [List.take_reverse, List.take_reverse] at h
  exact List.reverse_inj.mp h

/-- Both texts have the same front and the same back. -/
theorem append_trim (side : Side) (xs ys : List α) :
    (trim xs ys).front ++ side.pick (trim xs ys).olds (trim xs ys).news ++ (trim xs ys).back =
      side.pick xs ys := by
  have hfront := take_commonLength xs ys
  have hback := drop_commonEndLength (xs.drop (commonLength xs ys)) (ys.drop (commonLength xs ys))
  cases side with
  | old => simp only [trim, Side.pick, List.append_assoc, List.take_append_drop]
  | new =>
      simp only [trim, Side.pick, List.append_assoc]
      rw [hback, List.take_append_drop, hfront, List.take_append_drop]

/-! ## The texts of a diff -/

theorem linesOn_diff (side : Side) (xs ys : List α) :
    (diff xs ys).linesOn side = side.pick xs ys := by
  induction xs, ys using diff.induct with
  | case1 xs ys t place ihbefore ihafter =>
      rw [diff, ← append_trim side xs ys]
      simp only [Script.linesOn_append, linesOn_keepRun]
      congr 2
      split
      · next hsplits =>
        rw [Script.linesOn_append, ihbefore hsplits, ihafter hsplits]
        exact side.pick_take_append_drop t.olds t.news place.1 place.2
      · cases side <;> simp [Side.pick]

/-! ## Moving changes -/

theorem linesOn_slideUp (on side : Side) (before : Script α) (lines : List α) (after : Script α) :
    Script.linesOn on ((slideUp side before lines after).script side) =
      Script.linesOn on (Cursor.script side ⟨before, lines, after⟩) := by
  fun_induction slideUp side before lines after with
  | case1 lines after => rfl
  | case2 before lines after ih => simp [ih]
  | case3 kept before lines after s hkept hs => rfl
  | case4 kept before lines after s rest moved hkept hs ih =>
      have hkeep : rest ++ moved = kept := List.take_append_drop _ _
      have hlines : lines.take (lines.length - s) ++ moved = lines := by
        rw [show moved = _ from (drop_commonEndLength lines kept).symm, List.take_append_drop]
      have hslide := Run.linesOn_slide on side (lines.take (lines.length - s)) moved
        (Script.linesOn on after)
      rw [hlines] at hslide
      rw [ih, ← hkeep]
      simp [hslide]
  | case5 others before lines after ih => simp [ih, Run.linesOn_change_append]
  | case6 other others before lines after hother ih => simp [ih, Run.linesOn_comm on hother]

theorem linesOn_slideDown (on side : Side) (before : Script α) (lines : List α)
    (after : Script α) :
    Script.linesOn on ((slideDown side before lines after).script side) =
      Script.linesOn on (Cursor.script side ⟨before, lines, after⟩) := by
  fun_induction slideDown side before lines after with
  | case1 before lines => rfl
  | case2 before lines after ih => simp [ih]
  | case3 before lines kept after s hkept hs => rfl
  | case4 before lines kept after s moved rest hkept hs ih =>
      have hkeep : moved ++ rest = kept := List.take_append_drop _ _
      have hlines : moved ++ lines.drop s = lines := by
        rw [show moved = _ from (take_commonLength lines kept).symm, List.take_append_drop]
      have hslide := Run.linesOn_slide on side (lines.drop s) moved
        (rest ++ Script.linesOn on after)
      rw [hlines] at hslide
      rw [ih, ← hkeep]
      simp [hslide]
  | case5 before lines others after ih => simp [ih, Run.linesOn_change_append]
  | case6 before lines other others after hother ih => simp [ih, Run.linesOn_comm on hother]

theorem linesOn_settleFrom (on side : Side) (steps : Nat) (before after : Script α) :
    Script.linesOn on (settleFrom side steps before after) =
      Script.linesOn on (before.reverse ++ after) := by
  fun_induction settleFrom side steps before after with
  | case1 before after => rfl
  | case2 steps before => simp
  | case3 steps before kept after ih => simp [ih]
  | case4 steps before lines after up down ih =>
      calc
        _ = Script.linesOn on (down.script side) := by rw [ih]; simp [Cursor.script]
        _ = Script.linesOn on (up.script side) :=
          linesOn_slideDown on side up.before up.lines up.after
        _ = Script.linesOn on (before.reverse ++ .change side lines :: after) :=
          linesOn_slideUp on side before lines after
  | case5 steps before other lines after hother ih => simp [ih]

/-- Showing changes elsewhere keeps both texts. -/
theorem linesOn_compact (on : Side) (script : Script α) :
    Script.linesOn on (compact script) = Script.linesOn on script := by
  rw [compact, settle, linesOn_settleFrom, settle, List.reverse_nil, List.nil_append,
    linesOn_settleFrom, List.reverse_nil, List.nil_append]

end Diff
end SymbolRename
