/-!
# Paths

A path is a plain string and is never normalised: reports and messages show it as it was put
together.  `Route` is what the system makes of it when it walks from directory to directory.
-/

namespace SymbolRename

def isAbsolute (path : String) : Bool :=
  path.toList.head? = some '/'

/-- A path below a directory.  An absolute path stands for itself. -/
def joinPath (directory path : String) : String :=
  if isAbsolute path then path
  else if directory.toList = [] ∨ directory.toList.getLast? = some '/' then directory ++ path
  else directory ++ "/" ++ path

/-! ## Parts -/

/-- Cuts a text at its slashes. -/
def splitSlashes : List Char → List (List Char)
  | [] => [[]]
  | c :: rest =>
    if c = '/' then [] :: splitSlashes rest
    else match splitSlashes rest with
      | [] => [[c]]
      | part :: parts => (c :: part) :: parts

def joinSlashes : List (List Char) → List Char
  | [] => []
  | [part] => part
  | part :: rest => part ++ '/' :: joinSlashes rest

theorem splitSlashes_ne_nil (cs : List Char) : splitSlashes cs ≠ [] := by
  cases cs with
  | nil => simp [splitSlashes]
  | cons c rest =>
    rw [splitSlashes]
    split
    · simp
    · split <;> simp

@[simp] theorem joinSlashes_splitSlashes (cs : List Char) : joinSlashes (splitSlashes cs) = cs := by
  induction cs with
  | nil => rfl
  | cons c rest ih =>
    rw [splitSlashes]
    cases h : splitSlashes rest with
    | nil => exact absurd h (splitSlashes_ne_nil rest)
    | cons part parts =>
      rw [h] at ih
      split
      · next hc => simp [joinSlashes, ih, hc]
      · cases parts <;> simp_all [joinSlashes]

/-- Whether a part of a path stays where it is. -/
def staysPut (part : List Char) : Bool := part == [] || part == ['.']

/-- The front of a path that has nothing above it: the root, or a first `.`. -/
def pathStart : List Char → List Char
  | '/' :: _ => ['/']
  | ['.'] => ['.']
  | '.' :: '/' :: _ => ['.']
  | _ => []

/-- The parts of a path after its start, last part first. -/
def partsUp (path : List Char) : List (List Char) :=
  (splitSlashes (path.drop (pathStart path).length)).reverse

/-! ## Routes -/

structure Route where
  absolute : Bool
  /-- The parts between slashes that are not empty. -/
  steps : List String
  /-- Whether a slash stands at the end. -/
  slash : Bool
  deriving DecidableEq, Repr

namespace Route

def ofPath (path : String) : Route where
  absolute := isAbsolute path
  steps := ((splitSlashes path.toList).filter fun part ↦ part != []).map String.ofList
  slash := path.toList.getLast? = some '/'

end Route

def absolutePath (steps : List String) : String :=
  "/" ++ String.intercalate "/" steps

end SymbolRename
