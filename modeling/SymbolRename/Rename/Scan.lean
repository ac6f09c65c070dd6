import SymbolRename.Text.WordChar
import SymbolRename.Text.Utf8

/-!
# Word starts

`scan` reads a text once, from left to right, and marks the places where a literal stands at a word
boundary.  Occurrences do not overlap.  An occurrence right after the guard, if there is one, is
marked as guarded.
-/

namespace SymbolRename

/-- Whether a word may start after the characters of `before`, which are given last first. -/
def atBoundary : (before : List Char) → Bool
  | [] => true
  | c :: _ => !isWordChar c

/-- Whether the text before a place, given last character first, ends with the guard. -/
def endsWithGuard (guard? : Option (List Char)) (before : List Char) : Bool :=
  match guard? with
  | none => false
  | some guard => guard.reverse.isPrefixOf before

/-- A part of a scanned text: a character that is left alone, or an occurrence of the literal. -/
inductive Mark where
  | char (c : Char)
  | hit (guarded : Bool)
  deriving DecidableEq, Repr

/-- Marks the occurrences in a text that follows `before`, given last character first. -/
def scanFrom (literal : List Char) (guard? : Option (List Char)) (before : List Char) :
    List Char → List Mark
  | [] => []
  | c :: rest =>
    if atBoundary before && literal.isPrefixOf (c :: rest) then
      .hit (endsWithGuard guard? before) ::
        scanFrom literal guard? (literal.reverse ++ before) (rest.drop (literal.length - 1))
    else .char c :: scanFrom literal guard? (c :: before) rest
termination_by text => text.length
decreasing_by all_goals simp only [List.length_drop, List.length_cons]; omega

def scan (literal : List Char) (guard? : Option (List Char)) (text : List Char) : List Mark :=
  scanFrom literal guard? [] text

def countWordStarts (literal text : List Char) : Nat :=
  (scan literal none text).count (.hit false)

end SymbolRename
