import Std.Data.ExtTreeMap
import SymbolRename.Text.Utf8

/-!
# File trees

A file tree is a finite map from locations to directories and regular files; there are no links and
no permissions.  Two trees with the same nodes are equal.  All that changes a tree is one of three
mutations, so that what a program does to a tree is a list of them.
-/

namespace SymbolRename

/-- A place in a file tree: the names on the way down from the root. -/
abbrev Location := List String

/-- What may stand at a location. -/
inductive Node where
  | directory
  | file (bytes : Bytes)
  deriving DecidableEq, Repr

/-- The nodes of a tree below its root. -/
structure FileTree where
  nodes : Std.ExtTreeMap Location Node

/-- A primitive change to a file tree. -/
inductive Mutation where
  /-- Gives a new or an existing file its contents. -/
  | write (location : Location) (bytes : Bytes)
  | makeDirectory (location : Location)
  | remove (location : Location)
  deriving DecidableEq, Repr

def Mutation.location : Mutation → Location
  | .write location _ => location
  | .makeDirectory location => location
  | .remove location => location

/-- What stands at the location of a mutation afterwards. -/
def Mutation.node? : Mutation → Option Node
  | .write _ bytes => some (.file bytes)
  | .makeDirectory _ => some .directory
  | .remove _ => none

namespace FileTree

def empty : FileTree := ⟨∅⟩

/-- What stands at a location.  The root is always a directory. -/
def node? (tree : FileTree) (location : Location) : Option Node :=
  if location = [] then some .directory else tree.nodes[location]?

def apply (tree : FileTree) : Mutation → FileTree
  | .write location bytes => ⟨tree.nodes.insert location (.file bytes)⟩
  | .makeDirectory location => ⟨tree.nodes.insert location .directory⟩
  | .remove location => ⟨tree.nodes.erase location⟩

def applyAll (tree : FileTree) (mutations : List Mutation) : FileTree :=
  mutations.foldl apply tree

/-- All locations below the root, in order. -/
def locations (tree : FileTree) : List Location :=
  tree.nodes.keys

/-- A mutation changes the node at its own location and no other. -/
theorem node?_apply (tree : FileTree) (mutation : Mutation) (location : Location)
    (h : location ≠ []) :
    (tree.apply mutation).node? location =
      if mutation.location = location then mutation.node? else tree.node? location := by
  cases mutation <;>
    simp [node?, apply, h, Mutation.location, Mutation.node?, Std.ExtTreeMap.getElem?_insert,
      Std.ExtTreeMap.getElem?_erase, Std.LawfulEqCmp.compare_eq_iff_eq]

@[simp] theorem node?_nil (tree : FileTree) : tree.node? [] = some .directory := rfl

@[simp] theorem applyAll_nil (tree : FileTree) : tree.applyAll [] = tree := rfl

@[simp] theorem applyAll_cons (tree : FileTree) (mutation : Mutation) (rest : List Mutation) :
    tree.applyAll (mutation :: rest) = (tree.apply mutation).applyAll rest := rfl

theorem applyAll_append (tree : FileTree) (first second : List Mutation) :
    tree.applyAll (first ++ second) = (tree.applyAll first).applyAll second :=
  List.foldl_append

end FileTree
end SymbolRename
