import SymbolRename.Digest.Sha256
import SymbolRename.Disk.Lookup
import SymbolRename.Report.Outcome
import SymbolRename.Source

/-!
# Backups

The backup of a file stands next to it, under the path of the file with a suffix, and holds the
bytes that were read from the file.  A file is overwritten only after its backup has been written
and read back.
-/

namespace SymbolRename

/-! ## Errors -/

/-- What was being done with a file. -/
inductive FileTask where
  | read
  | write
  | writeBackup
  | readBackup
  | removeBackup
  deriving DecidableEq, Repr

def FileTask.name : FileTask → String
  | .read => "read"
  | .write => "write"
  | .writeBackup => "write backup"
  | .readBackup => "read backup"
  | .removeBackup => "remove backup"

/-- What was asked of the system. -/
inductive FileRequest where
  | openFile
  | readFrom
  | create
  | removeFile
  | canonicalize
  deriving DecidableEq, Repr

/-- The wording of a failed request. -/
def FileRequest.failure (path : String) : FileRequest → String
  | .openFile => "failed to open file `" ++ path ++ "`"
  | .readFrom => "failed to read from file `" ++ path ++ "`"
  | .create => "failed to create file `" ++ path ++ "`"
  | .removeFile => "failed to remove file `" ++ path ++ "`"
  | .canonicalize => "failed to canonicalize path `" ++ path ++ "`"

/-- A request that the system refused. -/
structure Refusal where
  request : FileRequest
  cause : OsError
  deriving DecidableEq, Repr

def Refusal.message (path : String) (refusal : Refusal) : String :=
  refusal.request.failure path ++ ": " ++ refusal.cause.message

/-- Why one file could not be processed. -/
inductive EditError where
  | io (task : FileTask) (path : String) (refusal : Refusal)
  | decode (path : String) (validUpTo : Nat)
  | backupMismatch (path : String)
  | backupMissing (path : String)
  deriving DecidableEq, Repr

def EditError.message : EditError → String
  | .io task path refusal => task.name ++ " " ++ path ++ ": " ++ refusal.message path
  | .decode path validUpTo =>
    path ++ " is not valid UTF-8 (first invalid byte at offset " ++ numeral validUpTo ++ ")"
  | .backupMismatch path => "backup " ++ path ++ " does not match the original content"
  | .backupMissing path => "no backup at " ++ path

/-! ## Reading and writing -/

/-- The bytes of a file.  A directory can be opened, but not read. -/
def Disk.readBytes (disk : Disk) (path : String) : Except Refusal Bytes :=
  match disk.lookup path with
  | .error e => .error ⟨.openFile, e⟩
  | .ok (_, .directory) => .error ⟨.readFrom, .isDirectory⟩
  | .ok (_, .file bytes) => .ok bytes

def Disk.writeBytes (disk : Disk) (path : String) (bytes : Bytes) : Except Refusal Mutation :=
  match disk.writeTarget path with
  | .error e => .error ⟨.create, e⟩
  | .ok there => .ok (.write there bytes)

def Disk.removeFile (disk : Disk) (path : String) : Except Refusal Mutation :=
  match disk.removeTarget path with
  | .error e => .error ⟨.removeFile, e⟩
  | .ok there => .ok (.remove there)

/-! ## Backups -/

def defaultBackupSuffix : String := ".backup"

def backupPath (suffix file : String) : String := file ++ suffix

def BackupRecord.ofBytes (suffix source absPath : String) (bytes : Bytes) : BackupRecord :=
  ⟨source, absPath, backupPath suffix absPath, SymbolRename.sha256 bytes, bytes.length⟩

/-- Saves the bytes of a file and reads them back.  The result of an operation on a disk comes with
the mutations that it made. -/
def Disk.snapshot (disk : Disk) (suffix : String) (file : SourceFile) :
    Except EditError BackupRecord × List Mutation :=
  let path := backupPath suffix file.absPath
  match disk.writeBytes path file.raw with
  | .error refusal => (.error (.io .writeBackup path refusal), [])
  | .ok saved =>
    match (disk.applyAll [saved]).readBytes path with
    | .error refusal => (.error (.io .readBackup path refusal), [saved])
    | .ok written =>
      if sha256 written = sha256 file.raw then
        (.ok (.ofBytes suffix file.path file.absPath file.raw), [saved])
      else (.error (.backupMismatch path), [saved])

/-- A backup that was made, and the digest of the file that was then written. -/
structure Committed where
  backup : BackupRecord
  sha256After : String
  deriving DecidableEq, Repr

/-- Backs a changed file up and writes its new text.  Nothing is done for other files. -/
def Disk.commit (disk : Disk) (suffix : String) (file : SourceFile) :
    Except EditError (Option Committed) × List Mutation :=
  if file.changed then
    match disk.snapshot suffix file with
    | (.error e, made) => (.error e, made)
    | (.ok backup, made) =>
      let bytes := Utf8.encode file.transformed.toList
      match (disk.applyAll made).writeBytes file.absPath bytes with
      | .error refusal => (.error (.io .write file.absPath refusal), made)
      | .ok written => (.ok (some ⟨backup, sha256 bytes⟩), made ++ [written])
  else (.ok none, [])

/-- The backup of a file, if there is one. -/
def Disk.findBackup (disk : Disk) (suffix source absPath : String) :
    Except EditError (Option BackupRecord) :=
  let path := backupPath suffix absPath
  if disk.isFile path then
    match disk.readBytes path with
    | .error refusal => .error (.io .readBackup path refusal)
    | .ok bytes => .ok (some (.ofBytes suffix source absPath bytes))
  else .ok none

/-- Copies a backup over its file and returns the restored file.  A backup that does not match
its record is not used. -/
def Disk.restoreBackup (disk : Disk) (record : BackupRecord) (remove : Bool) :
    Except EditError SourceFile × List Mutation :=
  if disk.isFile record.path then
    match disk.readBytes record.path with
    | .error refusal => (.error (.io .readBackup record.path refusal), [])
    | .ok raw =>
      if sha256 raw = record.sha256 then
        match disk.writeBytes record.absPath raw with
        | .error refusal => (.error (.io .write record.absPath refusal), [])
        | .ok written =>
          let file :=
            SourceFile.ofDecoded record.source record.absPath raw
              ⟨String.ofList (Utf8.decodeLossy raw), !Utf8.valid raw⟩
          if remove then
            match (disk.applyAll [written]).removeFile record.path with
            | .error refusal => (.error (.io .removeBackup record.path refusal), [written])
            | .ok removed => (.ok file, [written, removed])
          else (.ok file, [written])
      else (.error (.backupMismatch record.path), [])
  else (.error (.backupMissing record.path), [])

end SymbolRename
