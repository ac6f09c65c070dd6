import SymbolRename.Disk.Path
import SymbolRename.Report.Outcome
import SymbolRename.Text.Decimal

/-!
# Console text

The lines that a run prints: a header, two pieces for every file, a footer.  Other programs search
them for fixed phrases, so they do not vary.
-/

namespace SymbolRename
namespace Console

/-- How many characters a ruler has. -/
def rulerWidth : Nat := 80

def ruler : String := String.ofList (List.replicate rulerWidth '=')

def header (dryRun : Bool) : String :=
  let title :=
    if dryRun then "Checking miniaudio symbols in flutter_soloud"
    else "Namespacing miniaudio symbols in flutter_soloud"
  ruler ++ "\n" ++ title ++ "\n" ++ ruler ++ "\n\n"

/-- The path that is shown for an entry: the entry joined onto the root, whatever it is. -/
def displayPath (root path : String) : String := joinPath root path

/-- The first line for a file, before any work is done on it. -/
def fileStart (root path : String) : String :=
  "Processing: " ++ displayPath root path ++ "\n"

def countsPhrase (counts : NamespaceCounts) : String :=
  numeral counts.lowercase ++ " soloud_ma_ symbols and " ++ numeral counts.uppercase ++
    " SOLOUD_MA_ macros"

/-- Why a file failed. -/
def reason (message? : Option String) : String :=
  message?.getD "unknown error"

/-- The lines for a file with a given status. -/
def statusLines (path : String) (outcome : FileOutcome) : String :=
  let counts := outcome.counts?.getD ⟨0, 0⟩
  match outcome.status with
  | .changed =>
    (match outcome.backupPath? with
      | some backup => "  ✓ Created backup: " ++ backup ++ "\n"
      | none => "") ++
    "  ✓ Namespaced symbols in: " ++ path ++ "\n" ++
    "  ✓ Found " ++ countsPhrase counts ++ "\n"
  | .pending =>
    "  ~ Would namespace: " ++ path ++ "\n" ++
    "  ~ Would find " ++ countsPhrase counts ++ "\n" ++
    (match outcome.patch? with
      | some patch => "\n" ++ patch
      | none => "")
  | .unchanged => "  - No changes needed\n"
  | .failed => "ERROR: " ++ path ++ ": " ++ reason outcome.message? ++ "\n"
  | .missing => ""

/-- The lines for a file once its outcome is known, with an empty line at the end. -/
def fileOutcome (root : String) (outcome : FileOutcome) : String :=
  let path := displayPath root outcome.path
  if outcome.status = .missing then "WARNING: File not found: " ++ path ++ "\n\n"
  else
    (if outcome.lossyDecode then "  ! Invalid UTF-8 sequences were replaced while decoding\n"
      else "") ++
    statusLines path outcome ++ "\n"

def noChanges : String :=
  "No changes were needed - files may already be namespaced\n" ++ ruler ++ "\n"

/-- The last lines of a run, with advice on what to do next. -/
def footer (report : RunReport) : String :=
  let summary := report.summary
  (if 0 < summary.failed then
    "✗ " ++ numeral summary.failed ++
      " file(s) failed; files listed above with ERROR were left untouched\n\n"
    else "") ++
  ruler ++ "\n" ++
  if report.dryRun then
    if 0 < summary.pending then
      numeral summary.pending ++ " file(s) would be namespaced\n" ++ ruler ++ "\n\n" ++
        "Run `nsprefix run` to apply the changes.\n"
    else noChanges
  else if summary.changesMade then
    "✓ Namespacing complete!\n" ++ ruler ++ "\n\n" ++
    "Next steps:\n" ++
    "1. Review the changes in the modified files\n" ++
    "2. Test the package locally\n" ++
    "3. Update your pubspec.yaml to use this forked version\n\n" ++
    "To restore original files, use the " ++ report.backupSuffix ++
      " files created (or run `nsprefix restore`)\n"
  else noChanges

/-! ## Restoring -/

def restoreLines (root : String) (outcome : RestoreOutcome) : String :=
  let path := displayPath root outcome.path
  "Restoring: " ++ path ++ "\n" ++
  match outcome.status with
  | .restored =>
    "  ✓ Restored from: " ++ outcome.backupPath ++ "\n" ++
    if outcome.backupRemoved then "  ✓ Removed backup: " ++ outcome.backupPath ++ "\n" else ""
  | .noBackup => "  - No backup found\n"
  | .failed => "ERROR: " ++ path ++ ": " ++ reason outcome.message? ++ "\n"

def restore (report : RestoreReport) : String :=
  String.join (report.files.map (restoreLines report.root)) ++
    "\nRestored " ++ numeral report.restored ++ " file(s), " ++ numeral report.failed ++
    " failed\n"

/-! ## The file list -/

/-- A line of the file list. -/
def listLine (path : String) (isFile : Bool) : String :=
  "  " ++ (if isFile then "✓" else "✗") ++ " " ++ path ++ "\n"

end Console
end SymbolRename
