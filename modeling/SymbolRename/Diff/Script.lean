/-!
# Edit scripts

An edit script is a list of runs of lines: lines that both texts share, lines that only the old text
has, and lines that only the new text has.  `Script.old` and `Script.new` read the two texts back.
`diff` finds a short script by divide and conquer: it strips what the two texts share at both ends
and splits the rest where two searches, one from either end, meet.
-/

namespace SymbolRename
namespace Diff

/-- The text to which changed lines belong. -/
inductive Side where
  | old
  | new
  deriving DecidableEq, Repr

/-- A run of neighbouring lines. -/
inductive Run (α : Type) where
  | keep (lines : List α)
  | change (side : Side) (lines : List α)
  deriving DecidableEq, Repr

/-- The lines that a run contributes to one of the texts. -/
def Run.linesOn {α : Type} (side : Side) : Run α → List α
  | .keep lines => lines
  | .change s lines => if s = side then lines else []

/-- The number of lines of a run, plus one. -/
def Run.weight {α : Type} : Run α → Nat
  | .keep lines => lines.length + 1
  | .change _ lines => lines.length + 1

abbrev Script (α : Type) := List (Run α)

/-- The old or the new text of a script. -/
def Script.linesOn {α : Type} (side : Side) (script : Script α) : List α :=
  script.flatMap (Run.linesOn side)

def Script.weight {α : Type} : Script α → Nat
  | [] => 0
  | run :: rest => run.weight + weight rest

variable {α : Type}

/-- Whether cutting the texts at `place` leaves less than all of them on either side. -/
def Splits (place : Nat × Nat) (olds news : List α) : Prop :=
  0 < place.1 + place.2 ∧ (place.1 < olds.length ∨ place.2 < news.length)

instance (place : Nat × Nat) (olds news : List α) : Decidable (Splits place olds news) :=
  inferInstanceAs (Decidable (_ ∧ _))

theorem Splits.length_take_lt {place : Nat × Nat} {olds news : List α}
    (h : Splits place olds news) :
    (olds.take place.1).length + (news.take place.2).length < olds.length + news.length := by
  simp only [Splits, List.length_take] at *
  omega

theorem Splits.length_drop_lt {place : Nat × Nat} {olds news : List α} (hold : olds ≠ [])
    (hnew : news ≠ []) (h : Splits place olds news) :
    (olds.drop place.1).length + (news.drop place.2).length < olds.length + news.length := by
  have := List.length_pos_iff.2 hold
  have := List.length_pos_iff.2 hnew
  simp only [Splits, List.length_drop] at *
  omega

variable [DecidableEq α]

/-- How many elements two lists share at the front. -/
def commonLength : List α → List α → Nat
  | x :: xs, y :: ys => if x = y then commonLength xs ys + 1 else 0
  | _, _ => 0

/-- How many elements two lists share at the end. -/
def commonEndLength (xs ys : List α) : Nat :=
  commonLength xs.reverse ys.reverse

/-! ## Finding a split

Both searches walk the grid of the two texts diagonal by diagonal.  A frontier holds, for every
diagonal, how far into the old text the search has come. -/

/-- The farthest old position on every diagonal, where diagonal `k` has index `k + shift`. -/
structure Frontier where
  shift : Nat
  reached : Array Nat

namespace Frontier

def start (size : Nat) : Frontier :=
  ⟨size + 1, Array.replicate (2 * size + 3) 0⟩

def get (f : Frontier) (diagonal : Int) : Nat :=
  f.reached.getD (diagonal + f.shift).toNat 0

def set (f : Frontier) (diagonal : Int) (position : Nat) : Frontier :=
  { f with reached := f.reached.setIfInBounds (diagonal + f.shift).toNat position }

/-- Where the search enters a diagonal after `d` changes: from the diagonal above, which adds a
line, or from the one below, which removes one. -/
def entry (f : Frontier) (d : Nat) (diagonal : Int) : Nat :=
  let above := f.get (diagonal + 1)
  let below := f.get (diagonal - 1)
  if diagonal = -d ∨ (diagonal ≠ d ∧ below < above) then above else below + 1

end Frontier

/-- How many elements two arrays share from the given positions on. -/
def snakeLength (a b : Array α) (x y : Nat) : Nat :=
  if hx : x < a.size then
    if hy : y < b.size then
      if a[x] = b[y] then snakeLength a b (x + 1) (y + 1) + 1 else 0
    else 0
  else 0
termination_by a.size - x

/-- The diagonals that `d` changes can reach, from the outermost down. -/
def diagonals (d : Nat) : List Int :=
  (List.range (d + 1)).map fun i : Nat ↦ (d : Int) - 2 * (i : Int)

/-- One round of the search from the front: a place where the searches meet, or the frontier after
`d` changes. -/
def searchForward (a b : Array α) (d : Nat) (back : Frontier) :
    List Int → Frontier → Sum (Nat × Nat) Frontier
  | [], front => .inr front
  | k :: ks, front =>
    let delta : Int := (a.size : Int) - b.size
    let x := front.entry d k
    let y := ((x : Int) - k).toNat
    let x' := x + snakeLength a b x y
    if delta % 2 = 1 ∧ (k - delta).natAbs + 1 ≤ d ∧ a.size ≤ x' + back.get (delta - k) then
      .inl (x, y)
    else searchForward a b d back ks (front.set k x')

/-- One round of the search from the end, over the reversed texts. -/
def searchBackward (a b : Array α) (d : Nat) (front : Frontier) :
    List Int → Frontier → Sum (Nat × Nat) Frontier
  | [], back => .inr back
  | k :: ks, back =>
    let delta : Int := (a.size : Int) - b.size
    let x := back.entry d k
    let y := ((x : Int) - k).toNat
    let s := snakeLength a b x y
    if delta % 2 = 0 ∧ (k - delta).natAbs ≤ d ∧ a.size ≤ x + s + front.get (delta - k) then
      .inl (a.size - (x + s), b.size - (y + s))
    else searchBackward a b d front ks (back.set k (x + s))

/-- Searches from both ends with `d`, `d + 1`, … changes, for at most `rounds` rounds. -/
def search (a b a' b' : Array α) : (rounds d : Nat) → (front back : Frontier) → Nat × Nat
  | 0, _, _, _ => (0, 0)
  | rounds + 1, d, front, back =>
    match searchForward a b d back (diagonals d) front with
    | .inl place => place
    | .inr front =>
      match searchBackward a' b' d front (diagonals d) back with
      | .inl place => place
      | .inr back => search a b a' b' rounds (d + 1) front back

/-- A place in either text at which a short script can be cut in two. -/
def findSplit (xs ys : List α) : Nat × Nat :=
  let size := xs.length + ys.length
  search xs.toArray ys.toArray xs.reverse.toArray ys.reverse.toArray (size + 1) 0
    (.start size) (.start size)

/-! ## Building the script -/

/-- Two texts cut into what they share at either end and what lies between. -/
structure Trimmed (α : Type) where
  front : List α
  olds : List α
  news : List α
  back : List α

/-- Takes away what two texts share, first at the front and then at the end. -/
def trim (xs ys : List α) : Trimmed α :=
  let p := commonLength xs ys
  let xs' := xs.drop p
  let ys' := ys.drop p
  let s := commonEndLength xs' ys'
  ⟨xs.take p, xs'.take (xs'.length - s), ys'.take (ys'.length - s), xs'.drop (xs'.length - s)⟩

theorem length_olds_trim_le (xs ys : List α) : (trim xs ys).olds.length ≤ xs.length := by
  simp only [trim, List.length_take, List.length_drop]
  omega

theorem length_news_trim_le (xs ys : List α) : (trim xs ys).news.length ≤ ys.length := by
  simp only [trim, List.length_take, List.length_drop]
  omega

/-- A run of kept lines, or nothing for no lines. -/
def keepRun (lines : List α) : Script α :=
  if lines = [] then [] else [.keep lines]

/-- A run of changed lines, or nothing for no lines. -/
def changeRun (side : Side) (lines : List α) : Script α :=
  if lines = [] then [] else [.change side lines]

/-- A script that turns `xs` into `ys`. -/
def diff (xs ys : List α) : Script α :=
  let t := trim xs ys
  let place := findSplit t.olds t.news
  let middle :=
    if t.olds ≠ [] ∧ t.news ≠ [] ∧ Splits place t.olds t.news then
      diff (t.olds.take place.1) (t.news.take place.2) ++
        diff (t.olds.drop place.1) (t.news.drop place.2)
    else changeRun .old t.olds ++ changeRun .new t.news
  keepRun t.front ++ middle ++ keepRun t.back
termination_by xs.length + ys.length
decreasing_by
  all_goals
    rename_i h
    have hold := length_olds_trim_le xs ys
    have hnew := length_news_trim_le xs ys
  · exact Nat.lt_of_lt_of_le h.2.2.length_take_lt (Nat.add_le_add hold hnew)
  · exact Nat.lt_of_lt_of_le (h.2.2.length_drop_lt h.1 h.2.1) (Nat.add_le_add hold hnew)

end Diff
end SymbolRename
