import SymbolRename.Rename.Engine
import SymbolRename.Timestamp

/-!
# Reports

What a run leaves behind: one outcome for every file of the list, in order, and a summary that is a
projection of the outcomes.
-/

namespace SymbolRename

structure ToolInfo where
  name : String
  version? : Option String
  deriving DecidableEq, Repr

/-! ## Namespacing -/

/-- What became of a file. -/
inductive FileStatus where
  /-- Backed up and written. -/
  | changed
  /-- Read, with nothing to rename in it. -/
  | unchanged
  /-- Would be changed if the run were not a check. -/
  | pending
  | missing
  /-- Could not be read, decoded, backed up or written. -/
  | failed
  deriving DecidableEq, Repr

structure FileOutcome where
  path : String
  status : FileStatus
  message? : Option String
  backupPath? : Option String
  sha256Before? : Option String
  sha256After? : Option String
  counts? : Option NamespaceCounts
  lossyDecode : Bool
  patch? : Option String
  deriving DecidableEq, Repr

namespace FileOutcome

/-- An outcome of which nothing but the path and the status is known. -/
def bare (path : String) (status : FileStatus) : FileOutcome :=
  ⟨path, status, none, none, none, none, none, false, none⟩

def missing (path : String) : FileOutcome := bare path .missing

def failed (path message : String) : FileOutcome :=
  { bare path .failed with message? := some message }

end FileOutcome

inductive RunStatus where
  | success
  | partialFailure
  | failure
  deriving DecidableEq, Repr

/-- How many files had which outcome. -/
structure RunSummary where
  total : Nat
  processed : Nat
  changed : Nat
  unchanged : Nat
  pending : Nat
  missing : Nat
  failed : Nat
  deriving DecidableEq, Repr

namespace RunSummary

def empty : RunSummary := ⟨0, 0, 0, 0, 0, 0, 0⟩

def ofOutcomes (outcomes : List FileOutcome) : RunSummary :=
  let count (status : FileStatus) : Nat := outcomes.countP fun outcome ↦ outcome.status = status
  { total := outcomes.length
    processed := count .changed + count .unchanged + count .pending
    changed := count .changed
    unchanged := count .unchanged
    pending := count .pending
    missing := count .missing
    failed := count .failed }

/-- Whether a file was changed or would be. -/
def changesMade (summary : RunSummary) : Bool :=
  0 < summary.changed || 0 < summary.pending

/-- Missing files do not count: a run fails only through files that failed. -/
def status (summary : RunSummary) : RunStatus :=
  if summary.failed = 0 then .success
  else if 0 < summary.processed then .partialFailure
  else .failure

end RunSummary

structure RunReport where
  schema : String
  tool : ToolInfo
  root : String
  backupSuffix : String
  dryRun : Bool
  startedAt : Timestamp
  endedAt? : Option Timestamp
  status : RunStatus
  summary : RunSummary
  files : List FileOutcome
  deriving DecidableEq, Repr

namespace RunReport

def currentSchema : String := "nsprefix.report.v1"

/-- The report of a run that has not looked at any file yet. -/
def start (tool : ToolInfo) (root backupSuffix : String) (dryRun : Bool) (now : Timestamp) :
    RunReport where
  schema := currentSchema
  tool := tool
  root := root
  backupSuffix := backupSuffix
  dryRun := dryRun
  startedAt := now
  endedAt? := none
  status := .success
  summary := .empty
  files := []

def push (report : RunReport) (outcome : FileOutcome) : RunReport :=
  let files := report.files ++ [outcome]
  let summary := RunSummary.ofOutcomes files
  { report with files := files, summary := summary, status := summary.status }

def finish (report : RunReport) (now : Timestamp) : RunReport :=
  { report with endedAt? := some now }

/-- 1 if a file failed, 2 if a check found something to change, else 0. -/
def exitCode (report : RunReport) : Nat :=
  match report.status with
  | .success => if report.dryRun && decide (0 < report.summary.pending) then 2 else 0
  | .partialFailure => 1
  | .failure => 1

end RunReport

/-! ## Restoring -/

/-- What became of a file that was to be restored. -/
inductive RestoreStatus where
  | restored
  | noBackup
  | failed
  deriving DecidableEq, Repr

structure RestoreOutcome where
  path : String
  backupPath : String
  status : RestoreStatus
  message? : Option String
  backupRemoved : Bool
  deriving DecidableEq, Repr

structure RestoreReport where
  schema : String
  tool : ToolInfo
  root : String
  files : List RestoreOutcome
  deriving DecidableEq, Repr

namespace RestoreReport

def currentSchema : String := "nsprefix.restore.v1"

def restored (report : RestoreReport) : Nat :=
  report.files.countP fun outcome ↦ outcome.status = .restored

def failed (report : RestoreReport) : Nat :=
  report.files.countP fun outcome ↦ outcome.status = .failed

/-- 1 if a file failed, else 0. -/
def exitCode (report : RestoreReport) : Nat :=
  if 0 < report.failed then 1 else 0

end RestoreReport

/-- Where the bytes of a file were saved. -/
structure BackupRecord where
  /-- The path of the file as configured. -/
  source : String
  /-- The path of the file joined onto the root. -/
  absPath : String
  path : String
  /-- The digest of the saved bytes. -/
  sha256 : String
  bytes : Nat
  deriving DecidableEq, Repr

end SymbolRename
