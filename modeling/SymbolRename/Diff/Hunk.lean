import SymbolRename.Text.Decimal
import SymbolRename.Text.Lines
import SymbolRename.Diff.Compact

/-!
# Hunks

A hunk shows neighbouring changes of a script with up to three kept lines around them.  Two changes
share a hunk when fewer than six kept lines lie between them; six are shared as well when nothing of
the old text follows them.
-/

namespace SymbolRename
namespace Diff

/-! ## Changes and the lines between them -/

/-- Lines that are replaced, after a gap of lines that are kept. -/
structure Edit (α : Type) where
  gap : List α
  removed : List α
  added : List α
  deriving DecidableEq, Repr

/-- A script as a list of edits and the kept lines after the last of them. -/
structure Edits (α : Type) where
  edits : List (Edit α)
  tail : List α
  deriving DecidableEq, Repr

namespace Edits

variable {α : Type}

/-- Puts kept lines in front. -/
def keep (lines : List α) : Edits α → Edits α
  | ⟨[], tail⟩ => ⟨[], lines ++ tail⟩
  | ⟨edit :: edits, tail⟩ => ⟨{ edit with gap := lines ++ edit.gap } :: edits, tail⟩

/-- Puts a new edit in front. -/
def start (side : Side) (lines : List α) (later : Edits α) : Edits α :=
  match side with
  | .old => ⟨⟨[], lines, []⟩ :: later.edits, later.tail⟩
  | .new => ⟨⟨[], [], lines⟩ :: later.edits, later.tail⟩

/-- Puts changed lines in front of the first edit. -/
def join (side : Side) (lines : List α) : Edits α → Edits α
  | ⟨[], tail⟩ => start side lines ⟨[], tail⟩
  | ⟨edit :: edits, tail⟩ =>
    match side with
    | .old => ⟨{ edit with removed := lines ++ edit.removed } :: edits, tail⟩
    | .new => ⟨{ edit with added := lines ++ edit.added } :: edits, tail⟩

/-- Collects the edits of a script.  Changed runs belong to one edit unless a kept run lies between
them. -/
def ofScript : Script α → Edits α
  | [] => ⟨[], []⟩
  | .keep lines :: rest => (ofScript rest).keep lines
  | [.change side lines] => start side lines ⟨[], []⟩
  | .change side lines :: .keep kept :: rest => start side lines (ofScript (.keep kept :: rest))
  | .change side lines :: .change other others :: rest =>
    join side lines (ofScript (.change other others :: rest))

end Edits

/-! ## Hunks -/

/-- A line of a hunk. -/
inductive HunkLine (α : Type) where
  | context (line : α)
  | removed (line : α)
  | added (line : α)
  deriving DecidableEq, Repr

/-- A part of a patch.  The positions count the lines before it in the old and the new text. -/
structure Hunk (α : Type) where
  oldStart : Nat
  newStart : Nat
  lines : List (HunkLine α)
  deriving DecidableEq, Repr

/-- How many kept lines are shown around a change. -/
def contextWidth : Nat := 3

variable {α : Type}

def Edit.lines (edit : Edit α) : List (HunkLine α) :=
  edit.removed.map .removed ++ edit.added.map .added

/-- The first kept lines after a change. -/
def trailing (gap : List α) : List (HunkLine α) :=
  (gap.take contextWidth).map .context

/-- The last kept lines before a change. -/
def leading (gap : List α) : List (HunkLine α) :=
  (gap.drop (gap.length - contextWidth)).map .context

/-- Whether an edit belongs to the hunk before its gap. -/
def sharesHunk (edit : Edit α) (later : List (Edit α)) (tail : List α) : Bool :=
  edit.gap.length < 2 * contextWidth ||
    (edit.gap.length == 2 * contextWidth &&
      edit.removed.isEmpty && later.all (fun e ↦ e.gap.isEmpty && e.removed.isEmpty) &&
      tail.isEmpty)

/-- The end of the hunk that is open at the given positions, and the hunks after it. -/
def hunksFrom (tail : List α) :
    (oldPos newPos : Nat) → List (Edit α) → List (HunkLine α) × List (Hunk α)
  | _, _, [] => (trailing tail, [])
  | oldPos, newPos, edit :: later =>
    let oldAt := oldPos + edit.gap.length
    let newAt := newPos + edit.gap.length
    let (ending, others) :=
      hunksFrom tail (oldAt + edit.removed.length) (newAt + edit.added.length) later
    if sharesHunk edit later tail then
      (edit.gap.map .context ++ edit.lines ++ ending, others)
    else
      let lead := leading edit.gap
      (trailing edit.gap,
        ⟨oldAt - lead.length, newAt - lead.length, lead ++ edit.lines ++ ending⟩ :: others)

/-- The hunks of a list of edits. -/
def Edits.hunks : Edits α → List (Hunk α)
  | ⟨[], _⟩ => []
  | ⟨edit :: later, tail⟩ =>
    let lead := leading edit.gap
    let start := edit.gap.length - lead.length
    let (ending, others) :=
      hunksFrom tail (edit.gap.length + edit.removed.length) (edit.gap.length + edit.added.length)
        later
    ⟨start, start, lead ++ edit.lines ++ ending⟩ :: others

/-- The hunks between two lists of lines. -/
def hunks [DecidableEq α] (xs ys : List α) : List (Hunk α) :=
  (Edits.ofScript (compact (diff xs ys))).hunks

/-! ## Text -/

def HunkLine.isOld : HunkLine α → Bool
  | .added _ => false
  | _ => true

def HunkLine.isNew : HunkLine α → Bool
  | .removed _ => false
  | _ => true

/-- A range of lines: its first line, counted from one, and its length unless that is one.  An empty
range names the line after which it stands. -/
def rangeText (start length : Nat) : List Char :=
  if length = 1 then decimal (start + 1)
  else decimal (if length = 0 then start else start + 1) ++ ',' :: decimal length

/-- What stands after the last line of a text that does not end with a newline. -/
def noNewline : List Char := "\n\\ No newline at end of file\n".toList

/-- A line of a text after its sign. -/
def signedLine (sign line : List Char) : List Char :=
  sign ++ line ++ if line.getLast? = some '\n' then [] else noNewline

/-- The text of a hunk line.  An empty line of context has no sign. -/
def HunkLine.text : HunkLine (List Char) → List Char
  | .context line => signedLine (if line = ['\n'] then [] else [' ']) line
  | .removed line => signedLine ['-'] line
  | .added line => signedLine ['+'] line

def Hunk.header (hunk : Hunk α) : List Char :=
  "@@ -".toList ++ rangeText hunk.oldStart (hunk.lines.countP HunkLine.isOld) ++ " +".toList ++
    rangeText hunk.newStart (hunk.lines.countP HunkLine.isNew) ++ " @@\n".toList

def Hunk.text (hunk : Hunk (List Char)) : List Char :=
  hunk.header ++ hunk.lines.flatMap HunkLine.text

end Diff
end SymbolRename
