import SymbolRename.Diff.Hunk

/-!
# Patches

Two texts are compared without a name, so the hunks between them are written below a header that
says only `original` and `modified`.  The patch of a file has the hunks below a header that names
the file: the first header is cut off where the first line begins that looks like a hunk.
-/

namespace SymbolRename
namespace Diff

/-- The hunks of two texts below the header that names neither. -/
def formatted (old new : List Char) : List Char :=
  "--- original\n+++ modified\n".toList ++
    (hunks (splitLines old) (splitLines new)).flatMap Hunk.text

/-- What stands before and after the first occurrence of a separator in a text. -/
def splitOnce (separator : List Char) : List Char → Option (List Char × List Char)
  | [] => if separator = [] then some ([], []) else none
  | c :: rest =>
    if separator.isPrefixOf (c :: rest) then some ([], (c :: rest).drop separator.length)
    else (splitOnce separator rest).map fun (before, after) ↦ (c :: before, after)

/-- A text from its first hunk on.  Nothing is left if there is none. -/
def cutHeader (text : List Char) : List Char :=
  match splitOnce "\n@@".toList text with
  -- the separator goes with the cut, and the hunk needs its own part of it back
  | some (_, rest) => "@@".toList ++ rest
  | none => []

def ensureNewline (text : List Char) : List Char :=
  if text.getLast? = some '\n' then text else text ++ ['\n']

/-- The patch that turns one text into the other, under the name of a file. -/
def patch (path : String) (old new : List Char) : List Char :=
  ensureNewline ("--- a/".toList ++ path.toList ++ "\n+++ b/".toList ++ path.toList ++ '\n' ::
    cutHeader (formatted old new))

end Diff
end SymbolRename
