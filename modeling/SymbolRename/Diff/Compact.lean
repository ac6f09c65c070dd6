import SymbolRename.Diff.Script

/-!
# Compact scripts

The same change can often be shown at several places: a line added between two equal lines may be
taken to stand before either.  `compact` moves every changed run up as far as it goes, joining the
runs that it meets, and then down as far as it goes, first the removed runs and then the added ones.
The two texts of a script do not change.
-/

namespace SymbolRename
namespace Diff

section Weight

variable {α : Type}

@[simp] theorem Script.weight_nil : Script.weight ([] : Script α) = 0 := rfl

@[simp] theorem Script.weight_cons (run : Run α) (script : Script α) :
    Script.weight (run :: script) = run.weight + Script.weight script := rfl

theorem Run.weight_pos (run : Run α) : 0 < run.weight := by
  cases run <;> simp [Run.weight]

end Weight

variable {α : Type} [DecidableEq α]

/-- Kept lines in front of a script, as part of its first run if that is kept as well. -/
def keepBefore (lines : List α) : Script α → Script α
  | .keep kept :: rest => .keep (lines ++ kept) :: rest
  | rest => .keep lines :: rest

/-- Kept lines at the end of a script that is given last run first. -/
def keepAfter (lines : List α) : Script α → Script α
  | .keep kept :: rest => .keep (kept ++ lines) :: rest
  | rest => .keep lines :: rest

/-- A changed run between the runs before it, nearest first, and the runs after it. -/
structure Cursor (α : Type) where
  before : Script α
  lines : List α
  after : Script α

/-- Moves the changed run of a cursor up as far as it goes. -/
def slideUp (side : Side) : (before : Script α) → (lines : List α) → (after : Script α) → Cursor α
  | [], lines, after => ⟨[], lines, after⟩
  | .keep kept :: before, lines, after =>
    let s := commonEndLength lines kept
    let rest := kept.take (kept.length - s)
    let moved := kept.drop (kept.length - s)
    if kept = [] then slideUp side before lines after
    else if s = 0 then ⟨.keep kept :: before, lines, after⟩
    else
      slideUp side (keepRun rest ++ before) (moved ++ lines.take (lines.length - s))
        (keepBefore moved after)
  | .change other others :: before, lines, after =>
    if other = side then slideUp side before (others ++ lines) after
    else slideUp side before lines (.change other others :: after)
termination_by before => before.weight
decreasing_by
  · simp [Run.weight_pos]
  · rename_i hkept hs
    have := List.length_pos_iff.2 hkept
    simp only [keepRun]
    split <;> simp only [List.nil_append, List.cons_append, Script.weight_cons, Run.weight,
      List.length_take] <;> omega
  all_goals simp [Run.weight_pos]

/-- Moves the changed run of a cursor down as far as it goes. -/
def slideDown (side : Side) : (before : Script α) → (lines : List α) → (after : Script α) → Cursor α
  | before, lines, [] => ⟨before, lines, []⟩
  | before, lines, .keep kept :: after =>
    let s := commonLength lines kept
    let moved := kept.take s
    let rest := kept.drop s
    if kept = [] then slideDown side before lines after
    else if s = 0 then ⟨before, lines, .keep kept :: after⟩
    else
      slideDown side (keepAfter moved before) (lines.drop s ++ moved) (keepRun rest ++ after)
  | before, lines, .change other others :: after =>
    if other = side then slideDown side before (lines ++ others) after
    else slideDown side (.change other others :: before) lines after
termination_by _ _ after => after.weight
decreasing_by
  · simp [Run.weight_pos]
  · rename_i hkept hs
    have := List.length_pos_iff.2 hkept
    simp only [keepRun]
    split <;> simp only [List.nil_append, List.cons_append, Script.weight_cons, Run.weight,
      List.length_drop] <;> omega
  all_goals simp [Run.weight_pos]

/-- Settles the runs of one side from `after` on, in at most `steps` steps. -/
def settleFrom (side : Side) : (steps : Nat) → (before after : Script α) → Script α
  | 0, before, after => before.reverse ++ after
  | _, before, [] => before.reverse
  | steps + 1, before, .keep kept :: after => settleFrom side steps (.keep kept :: before) after
  | steps + 1, before, .change other lines :: after =>
    if other = side then
      let up := slideUp side before lines after
      let down := slideDown side up.before up.lines up.after
      settleFrom side steps (.change side down.lines :: down.before) down.after
    else settleFrom side steps (.change other lines :: before) after

/-- Settles all runs of one side.  Every step takes a run off the rest of the script, and runs that
are split off on the way hold at least one line, so twice the weight is more than enough. -/
def settle (side : Side) (script : Script α) : Script α :=
  settleFrom side (2 * script.weight) [] script

/-- Moves changes to where they are shown. -/
def compact (script : Script α) : Script α :=
  settle .new (settle .old script)

end Diff
end SymbolRename
