/-!
# Lines

A line keeps the newline that ends it.  Only the last line of a text may lack one.
-/

namespace SymbolRename

/-- Adds a character in front of the first line. -/
def consToFirst (c : Char) : List (List Char) → List (List Char)
  | [] => [[c]]
  | line :: lines => (c :: line) :: lines

/-- The lines of a text, each with its newline. -/
def splitLines : List Char → List (List Char)
  | [] => []
  | c :: rest => if c = '\n' then [c] :: splitLines rest else consToFirst c (splitLines rest)

@[simp] theorem flatten_consToFirst (c : Char) (lines : List (List Char)) :
    (consToFirst c lines).flatten = c :: lines.flatten := by
  cases lines <;> simp [consToFirst]

/-- Nothing of a text is lost by cutting it into lines. -/
@[simp] theorem flatten_splitLines (text : List Char) : (splitLines text).flatten = text := by
  induction text with
  | nil => rfl
  | cons c rest ih => by_cases h : c = '\n' <;> simp [splitLines, h, ih]

end SymbolRename
