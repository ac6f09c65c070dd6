import SymbolRename.Resolve

/-!
# Namespacing runs

A run goes through the file list in order.  It is described by its events: progress that is reported
while the run is going, and the mutations that it makes.  What happens to one file never stops the
run.
-/

namespace SymbolRename

inductive SetupError where
  | emptyFileSet
  /-- An empty suffix would put every backup on top of its file. -/
  | emptyBackupSuffix
  deriving DecidableEq, Repr

def SetupError.message : SetupError → String
  | .emptyFileSet => "no files configured"
  | .emptyBackupSuffix => "backup suffix must not be empty"

/-- The check that stands before every run. -/
def checkSetup (files : List String) (backupSuffix : String) : Except SetupError Unit :=
  if files = [] then .error .emptyFileSet
  else if backupSuffix = "" then .error .emptyBackupSuffix
  else .ok ()

structure RunSettings where
  root : String
  files : List String
  policy : DecodePolicy
  backupSuffix : String
  /-- Whether the run only tells what it would do. -/
  dryRun : Bool
  deriving DecidableEq, Repr

def RunSettings.default : RunSettings := ⟨".", defaultFiles, .strict, defaultBackupSuffix, false⟩

/-- When a run starts and when it ends. -/
structure Clock where
  start : Timestamp
  finish : Timestamp
  deriving DecidableEq, Repr

/-- Something that happens during a run. -/
inductive RunEvent where
  /-- A file has been loaded, or could not be. -/
  | started (path : String)
  | mutation (mutation : Mutation)
  | finished (outcome : FileOutcome)
  deriving DecidableEq, Repr

def RunEvent.mutation? : RunEvent → Option Mutation
  | .mutation m => some m
  | _ => none

def mutationsOf (events : List RunEvent) : List Mutation :=
  events.filterMap RunEvent.mutation?

/-- Renames the symbols of a file that has been loaded, and writes it unless the run is dry. -/
def Disk.namespaceFile (disk : Disk) (settings : RunSettings) (loaded : SourceFile) :
    FileOutcome × List Mutation :=
  let file := loaded.namespaced
  let outcome : FileOutcome :=
    { FileOutcome.bare file.path .unchanged with
      sha256Before? := some (sha256 file.raw)
      counts? := some (countNamespaced file.transformed.toList)
      lossyDecode := file.lossy }
  if !file.changed then ({ outcome with sha256After? := some (sha256 file.raw) }, [])
  else if settings.dryRun then
    ({ outcome with
        status := .pending
        sha256After? := some (sha256 (Utf8.encode file.transformed.toList))
        patch? := some file.patch }, [])
  else match disk.commit settings.backupSuffix file with
    | (.ok (some committed), made) =>
      ({ outcome with
          status := .changed
          backupPath? := some committed.backup.path
          sha256After? := some committed.sha256After }, made)
    | (.ok none, made) => (outcome, made)
    | (.error e, made) =>
      ({ outcome with status := .failed, message? := some e.message, counts? := none }, made)

def Disk.runEntry (disk : Disk) (settings : RunSettings) (path : String) :
    FileOutcome × List RunEvent :=
  match disk.resolve settings.root settings.policy path with
  | .found file =>
    let (outcome, made) := disk.namespaceFile settings file
    (outcome, .started file.path :: made.map .mutation ++ [.finished outcome])
  | .missing path _ =>
    let outcome := FileOutcome.missing path
    (outcome, [.finished outcome])
  | .failed path error =>
    let outcome := FileOutcome.failed path error.message
    (outcome, [.started path, .finished outcome])

/-- Processes the entries of a file list one after the other. -/
def Disk.runEntries (disk : Disk) (settings : RunSettings) :
    List String → List FileOutcome × List RunEvent
  | [] => ([], [])
  | path :: paths =>
    let (outcome, events) := disk.runEntry settings path
    let (outcomes, later) := (disk.applyAll (mutationsOf events)).runEntries settings paths
    (outcome :: outcomes, events ++ later)

/-- The report of a run and what happened in it. -/
structure RunResult where
  report : RunReport
  events : List RunEvent

def RunResult.mutations (result : RunResult) : List Mutation := mutationsOf result.events

/-- Puts the symbols of all files of a list under the namespace. -/
def Disk.run (disk : Disk) (settings : RunSettings) (tool : ToolInfo) (clock : Clock) :
    Except SetupError RunResult :=
  match checkSetup settings.files settings.backupSuffix with
  | .error e => .error e
  | .ok () =>
    let (outcomes, events) := disk.runEntries settings settings.files
    let report :=
      RunReport.start tool settings.root settings.backupSuffix settings.dryRun clock.start
    .ok ⟨(outcomes.foldl RunReport.push report).finish clock.finish, events⟩

end SymbolRename
