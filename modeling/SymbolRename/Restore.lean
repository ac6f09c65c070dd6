import SymbolRename.Run

/-!
# Restoring

A restore copies the backup of every file of a list over the file.
-/

namespace SymbolRename

structure RestoreSettings where
  root : String
  files : List String
  backupSuffix : String
  /-- Whether a backup is removed once its file has been restored. -/
  removeBackups : Bool
  deriving DecidableEq, Repr

def RestoreSettings.default : RestoreSettings := ⟨".", defaultFiles, defaultBackupSuffix, false⟩

def Disk.restoreEntry (disk : Disk) (settings : RestoreSettings) (path : String) :
    RestoreOutcome × List Mutation :=
  let absPath := entryPath settings.root path
  let outcome : RestoreOutcome :=
    ⟨path, backupPath settings.backupSuffix absPath, .noBackup, none, false⟩
  let failed (e : EditError) : RestoreOutcome :=
    { outcome with status := .failed, message? := some e.message }
  match disk.findBackup settings.backupSuffix path absPath with
  | .error e => (failed e, [])
  | .ok none => (outcome, [])
  | .ok (some record) =>
    match disk.restoreBackup record settings.removeBackups with
    | (.ok _, made) =>
      ({ outcome with status := .restored, backupRemoved := settings.removeBackups }, made)
    | (.error e, made) => (failed e, made)

/-- Restores the entries of a file list one after the other. -/
def Disk.restoreEntries (disk : Disk) (settings : RestoreSettings) :
    List String → List RestoreOutcome × List Mutation
  | [] => ([], [])
  | path :: paths =>
    let (outcome, made) := disk.restoreEntry settings path
    let (outcomes, later) := (disk.applyAll made).restoreEntries settings paths
    (outcome :: outcomes, made ++ later)

/-- Restores all files of a list.  The report comes with the mutations that were made. -/
def Disk.restore (disk : Disk) (settings : RestoreSettings) (tool : ToolInfo) :
    Except SetupError (RestoreReport × List Mutation) :=
  match checkSetup settings.files settings.backupSuffix with
  | .error e => .error e
  | .ok () =>
    let (outcomes, made) := disk.restoreEntries settings settings.files
    .ok (⟨RestoreReport.currentSchema, tool, settings.root, outcomes⟩, made)

end SymbolRename
