import SymbolRename.Disk.Path
import SymbolRename.Disk.Tree

/-!
# Looking up paths

A disk is a file tree with a working directory.  Paths are walked step by step: every step but the
last has to lead to a directory, and `..` leads to the directory above.  What cannot be walked fails
with the error that the system gives.

The names on a disk are texts.  The canonical path of a directory is put together from such names
and is itself a text, so `Disk.canonicalize` fails only where the path cannot be walked.
-/

namespace SymbolRename

inductive OsError where
  | notFound
  | exists
  | notDirectory
  | isDirectory
  | nameTooLong
  /-- The path holds a NUL character and never reaches the system. -/
  | nulInPath
  deriving DecidableEq, Repr

def OsError.message : OsError → String
  | .notFound => "No such file or directory (os error 2)"
  | .exists => "File exists (os error 17)"
  | .notDirectory => "Not a directory (os error 20)"
  | .isDirectory => "Is a directory (os error 21)"
  | .nameTooLong => "File name too long (os error 36)"
  | .nulInPath => "file name contained an unexpected NUL byte"

/-- A file tree as seen from a working directory. -/
structure Disk where
  tree : FileTree
  cwd : Location

namespace Disk

/-- The greatest length of a name in bytes. -/
def maxNameLength : Nat := 255

/-- The greatest length of a path in bytes. -/
def maxPathLength : Nat := 4095

def byteLength (text : String) : Nat := (Utf8.encode text.toList).length

/-- The location of a name in a directory, if the name can be one. -/
def child (here : Location) (name : String) : Except OsError Location :=
  if maxNameLength < byteLength name then .error .nameTooLong else .ok (here ++ [name])

/-- One step from a directory to a directory. -/
def descend (disk : Disk) (here : Location) (step : String) : Except OsError Location :=
  if step = "." then .ok here
  else if step = ".." then .ok here.dropLast
  else do
    let there ← child here step
    match disk.tree.node? there with
    | none => .error .notFound
    | some (.file _) => .error .notDirectory
    | some .directory => .ok there

def walk (disk : Disk) (here : Location) (steps : List String) : Except OsError Location :=
  steps.foldlM disk.descend here

/-- Where a route ends, before its last step is looked up. -/
inductive Ending where
  /-- The route ends at a directory that its last step does not name. -/
  | here (location : Location)
  /-- The route ends with a name in a directory. -/
  | named (directory : Location) (name : String)
  deriving DecidableEq, Repr

/-- The route of a path that names something.  It may have any length. -/
def plainRoute (path : String) : Except OsError Route :=
  if path.toList.contains '\x00' then .error .nulInPath
  else if path.toList = [] then .error .notFound
  else .ok (Route.ofPath path)

/-- The route of a path that is handed to the system as a whole. -/
def route (path : String) : Except OsError Route := do
  let route ← plainRoute path
  if maxPathLength < byteLength path then .error .nameTooLong else .ok route

/-- Walks all but the last step of a route. -/
def approach (disk : Disk) (route : Route) : Except OsError Ending := do
  let start : Location := if route.absolute then [] else disk.cwd
  let here ← disk.walk start route.steps.dropLast
  match route.steps.getLast? with
  | none => .ok (.here here)
  | some step =>
    if step = "." then .ok (.here here)
    else if step = ".." then .ok (.here here.dropLast)
    else .ok (.named here step)

def follow (disk : Disk) (route : Route) : Except OsError (Location × Node) := do
  match ← disk.approach route with
  | .here location => .ok (location, .directory)
  | .named directory name =>
    let there ← child directory name
    match disk.tree.node? there with
    | none => .error .notFound
    | some .directory => .ok (there, .directory)
    | some (.file bytes) => if route.slash then .error .notDirectory else .ok (there, .file bytes)

/-- The location and the node that a path leads to. -/
def lookup (disk : Disk) (path : String) : Except OsError (Location × Node) :=
  route path >>= disk.follow

/-- The absolute path, without detours, of what a path leads to.  The path is followed step by step,
so that its own length does not matter. -/
def canonicalize (disk : Disk) (path : String) : Except OsError String := do
  let (location, _) ← plainRoute path >>= disk.follow
  .ok (absolutePath location)

def pathExists (disk : Disk) (path : String) : Bool :=
  (disk.lookup path).isOk

def isFile (disk : Disk) (path : String) : Bool :=
  match disk.lookup path with
  | .ok (_, .file _) => true
  | _ => false

def isDirectory (disk : Disk) (path : String) : Bool :=
  match disk.lookup path with
  | .ok (_, .directory) => true
  | _ => false

/-- Where a file is created or overwritten under a path. -/
def writeTarget (disk : Disk) (path : String) : Except OsError Location := do
  let route ← route path
  match ← disk.approach route with
  | .here _ => .error .isDirectory
  | .named directory name =>
    if route.slash then .error .isDirectory
    else
      let there ← child directory name
      match disk.tree.node? there with
      | some .directory => .error .isDirectory
      | _ => .ok there

/-- Where a directory is created under a path. -/
def makeTarget (disk : Disk) (path : String) : Except OsError Location := do
  let route ← route path
  match ← disk.approach route with
  | .here _ => .error .exists
  | .named directory name =>
    let there ← child directory name
    match disk.tree.node? there with
    | some _ => .error .exists
    | none => .ok there

/-- The file that is removed under a path. -/
def removeTarget (disk : Disk) (path : String) : Except OsError Location := do
  match ← disk.lookup path with
  | (_, .directory) => .error .isDirectory
  | (there, .file _) => .ok there

def applyAll (disk : Disk) (mutations : List Mutation) : Disk :=
  { disk with tree := disk.tree.applyAll mutations }

end Disk
end SymbolRename
