import SymbolRename.Disk.Lookup

/-!
# Writing a file where its directories may be missing

Reports are written to any path: directories on the way that do not exist are created first.  A
failure may leave some of these directories behind, and nothing else.
-/

namespace SymbolRename

/-- What was being done when a file could not be written. -/
inductive PublishStep where
  | createParents
  | write
  deriving DecidableEq, Repr

structure PublishError where
  step : PublishStep
  path : String
  cause : OsError
  deriving DecidableEq, Repr

/-- The error and its cause. -/
def PublishError.chain (error : PublishError) : List String :=
  [match error.step with
    | .createParents => "create parent dir for " ++ error.path
    | .write => "write " ++ error.path,
    error.cause.message]

namespace Disk

/-- Creates the directory at a path and those above it that are missing.  The path is given by its
start, which needs no creation, and its parts, last part first.  The paths above it are cut from it
as they stand, so that every one of them has its own length. -/
def ensureParts (disk : Disk) (start : List Char) :
    (partsUp : List (List Char)) → Except OsError Unit × List Mutation
  | [] => (.ok (), [])
  | part :: above =>
    if staysPut part then disk.ensureParts start above
    else
      let path := String.ofList (start ++ joinSlashes (part :: above).reverse)
      match disk.makeTarget path with
      | .ok there => (.ok (), [.makeDirectory there])
      | .error .notFound =>
        match disk.ensureParts start above with
        | (.error e, made) => (.error e, made)
        | (.ok (), made) =>
          let disk := disk.applyAll made
          match disk.makeTarget path with
          | .ok there => (.ok (), made ++ [.makeDirectory there])
          | .error e =>
            if e = .exists ∧ disk.isDirectory path then (.ok (), made) else (.error e, made)
      | .error e =>
        if e = .exists ∧ disk.isDirectory path then (.ok (), []) else (.error e, [])

/-- Creates the directory at a path and those above it that are missing. -/
def ensureDirectory (disk : Disk) (path : String) : Except OsError Unit × List Mutation :=
  disk.ensureParts (pathStart path.toList) (partsUp path.toList)

/-- Creates the directories on the way to a path. -/
def ensureParents (disk : Disk) (path : String) : Except OsError Unit × List Mutation :=
  disk.ensureParts (pathStart path.toList) (((partsUp path.toList).dropWhile staysPut).drop 1)

/-- Writes a file, after creating the directories on the way to it.  The result comes with the
mutations that were made. -/
def publish (disk : Disk) (path : String) (bytes : Bytes) :
    Except PublishError Unit × List Mutation :=
  match disk.ensureParents path with
  | (.error e, made) => (.error ⟨.createParents, path, e⟩, made)
  | (.ok (), made) =>
    match (disk.applyAll made).writeTarget path with
    | .error e => (.error ⟨.write, path, e⟩, made)
    | .ok there => (.ok (), made ++ [.write there bytes])

end Disk
end SymbolRename
