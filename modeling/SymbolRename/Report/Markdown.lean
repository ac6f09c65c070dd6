import SymbolRename.Report.Codec
import SymbolRename.Report.Console

/-!
# Markdown reports
-/

namespace SymbolRename
namespace Markdown

/-- A text as code. -/
def code (text : String) : String := "`" ++ text ++ "`"

def tableRow (outcome : FileOutcome) : String :=
  let cell (count : NamespaceCounts → Nat) : String :=
    match outcome.counts? with
    | some counts => numeral (count counts)
    | none => "-"
  let backup :=
    match outcome.backupPath? with
    | some path => code path
    | none => "-"
  "| " ++ code outcome.path ++ " | " ++ outcome.status.name ++ " | " ++ cell (·.lowercase) ++
    " | " ++ cell (·.uppercase) ++ " | " ++ backup ++ " |\n"

/-- A section with one part for every element, or nothing without elements. -/
def listSection {α : Type} (title : String) (part : α → String) (elements : List α) : String :=
  if elements.isEmpty then "" else title ++ String.join (elements.map part)

def failureItem (outcome : FileOutcome) : String :=
  "- " ++ code outcome.path ++ ": " ++ Console.reason outcome.message? ++ "\n"

def patchBlock (entry : String × String) : String :=
  "\n### " ++ code entry.1 ++ "\n\n```diff\n" ++ entry.2 ++ "```\n"

def fileSections (files : List FileOutcome) : String :=
  if files.isEmpty then "_No files configured._\n"
  else
    "| Path | Status | soloud_ma_ | SOLOUD_MA_ | Backup |\n|---|---|---|---|---|\n" ++
    String.join (files.map tableRow) ++
    listSection "\n## Failures\n\n" failureItem
      (files.filter fun outcome ↦ outcome.status = .failed) ++
    listSection "\n## Pending changes\n" patchBlock
      (files.filterMap fun outcome ↦ outcome.patch?.map fun patch ↦ (outcome.path, patch))

/-- The report of a run. -/
def report (r : RunReport) : String :=
  let s := r.summary
  (if r.dryRun then "# nsprefix check\n\n" else "# nsprefix run\n\n") ++
  "- Status: " ++ code r.status.name ++ "\n" ++
  "- Root: " ++ code r.root ++ "\n" ++
  "- Files: " ++ numeral s.total ++ " (changed " ++ numeral s.changed ++ ", unchanged " ++
    numeral s.unchanged ++ ", pending " ++ numeral s.pending ++ ", missing " ++
    numeral s.missing ++ ", failed " ++ numeral s.failed ++ ")\n\n" ++
  "## Files\n\n" ++ fileSections r.files

end Markdown
end SymbolRename
