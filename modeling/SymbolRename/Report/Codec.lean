import SymbolRename.Json.Reader
import SymbolRename.Json.Record
import SymbolRename.Json.Writer
import SymbolRename.Report.Outcome

/-!
# Reports in JSON

Every record type has its field names, a writer and a reader.  A missing optional value is left out;
so is the mark of a lossy decoding when it is not set.
-/

namespace SymbolRename

open JsonValue

/-- A member for a value that may be missing. -/
def memberOf? {α : Type} (name : String) (write : α → JsonValue) :
    Option α → List (String × JsonValue)
  | none => []
  | some value => [(name, write value)]

/-! ## Cases -/

def FileStatus.name : FileStatus → String
  | .changed => "changed"
  | .unchanged => "unchanged"
  | .pending => "pending"
  | .missing => "missing"
  | .failed => "failed"

def FileStatus.ofName? (name : String) : Option FileStatus :=
  [FileStatus.changed, .unchanged, .pending, .missing, .failed].find? fun status ↦
    status.name = name

def RunStatus.name : RunStatus → String
  | .success => "success"
  | .partialFailure => "partial_failure"
  | .failure => "failure"

def RunStatus.ofName? (name : String) : Option RunStatus :=
  [RunStatus.success, .partialFailure, .failure].find? fun status ↦ status.name = name

def RestoreStatus.name : RestoreStatus → String
  | .restored => "restored"
  | .noBackup => "no_backup"
  | .failed => "failed"

def RestoreStatus.ofName? (name : String) : Option RestoreStatus :=
  [RestoreStatus.restored, .noBackup, .failed].find? fun status ↦ status.name = name

def Timestamp.toJson (t : Timestamp) : JsonValue := .text t.toText

def Timestamp.ofJson? (value : JsonValue) : Option Timestamp := value.text?.bind Timestamp.ofText?

/-! ## Records -/

namespace ToolInfo

def fieldNames : List String := ["name", "version"]

def toJson (tool : ToolInfo) : JsonValue :=
  .ofMembers <| ("name", .text tool.name) :: memberOf? "version" .text tool.version?

def ofJson? (value : JsonValue) : Option ToolInfo := do
  let fields ← value.fields? fieldNames
  let name ← required fields "name" text?
  let version? ← optional fields "version" text?
  some ⟨name, version?⟩

end ToolInfo

namespace NamespaceCounts

def fieldNames : List String := ["lowercase", "uppercase"]

def toJson (counts : NamespaceCounts) : JsonValue :=
  .ofMembers [("lowercase", .nat counts.lowercase), ("uppercase", .nat counts.uppercase)]

def ofJson? (value : JsonValue) : Option NamespaceCounts := do
  let fields ← value.fields? fieldNames
  let lowercase ← required fields "lowercase" counter?
  let uppercase ← required fields "uppercase" counter?
  some ⟨lowercase, uppercase⟩

end NamespaceCounts

namespace FileOutcome

def fieldNames : List String :=
  ["path", "status", "message", "backup_path", "sha256_before", "sha256_after", "counts",
    "lossy_decode", "patch"]

def toJson (outcome : FileOutcome) : JsonValue :=
  .ofMembers <|
    [("path", .text outcome.path), ("status", .text outcome.status.name)] ++
    memberOf? "message" .text outcome.message? ++
    memberOf? "backup_path" .text outcome.backupPath? ++
    memberOf? "sha256_before" .text outcome.sha256Before? ++
    memberOf? "sha256_after" .text outcome.sha256After? ++
    memberOf? "counts" NamespaceCounts.toJson outcome.counts? ++
    (if outcome.lossyDecode then [("lossy_decode", .bool true)] else []) ++
    memberOf? "patch" .text outcome.patch?

def ofJson? (value : JsonValue) : Option FileOutcome := do
  let fields ← value.fields? fieldNames
  let path ← required fields "path" text?
  let status ← required fields "status" (case? FileStatus.ofName?)
  let message? ← optional fields "message" text?
  let backupPath? ← optional fields "backup_path" text?
  let sha256Before? ← optional fields "sha256_before" text?
  let sha256After? ← optional fields "sha256_after" text?
  let counts? ← optional fields "counts" NamespaceCounts.ofJson?
  let lossyDecode ← defaulted false fields "lossy_decode" bool?
  let patch? ← optional fields "patch" text?
  some ⟨path, status, message?, backupPath?, sha256Before?, sha256After?, counts?, lossyDecode,
    patch?⟩

end FileOutcome

namespace RunSummary

def fieldNames : List String :=
  ["files_total", "files_processed", "files_changed", "files_unchanged", "files_pending",
    "files_missing", "files_failed"]

def toJson (summary : RunSummary) : JsonValue :=
  .ofMembers
    [("files_total", .nat summary.total), ("files_processed", .nat summary.processed),
      ("files_changed", .nat summary.changed), ("files_unchanged", .nat summary.unchanged),
      ("files_pending", .nat summary.pending), ("files_missing", .nat summary.missing),
      ("files_failed", .nat summary.failed)]

def ofJson? (value : JsonValue) : Option RunSummary := do
  let fields ← value.fields? fieldNames
  let total ← required fields "files_total" counter?
  let processed ← required fields "files_processed" counter?
  let changed ← required fields "files_changed" counter?
  let unchanged ← required fields "files_unchanged" counter?
  let pending ← required fields "files_pending" counter?
  let missing ← required fields "files_missing" counter?
  let failed ← required fields "files_failed" counter?
  some ⟨total, processed, changed, unchanged, pending, missing, failed⟩

end RunSummary

namespace RunReport

def fieldNames : List String :=
  ["schema", "tool", "root", "backup_suffix", "dry_run", "started_at", "ended_at", "status",
    "summary", "files"]

def toJson (report : RunReport) : JsonValue :=
  .ofMembers <|
    [("schema", .text report.schema), ("tool", report.tool.toJson), ("root", .text report.root),
      ("backup_suffix", .text report.backupSuffix), ("dry_run", .bool report.dryRun),
      ("started_at", report.startedAt.toJson)] ++
    memberOf? "ended_at" Timestamp.toJson report.endedAt? ++
    [("status", .text report.status.name), ("summary", report.summary.toJson),
      ("files", .array (report.files.map FileOutcome.toJson))]

def ofJson? (value : JsonValue) : Option RunReport := do
  let fields ← value.fields? fieldNames
  let schema ← required fields "schema" text?
  let tool ← required fields "tool" ToolInfo.ofJson?
  let root ← required fields "root" text?
  let backupSuffix ← required fields "backup_suffix" text?
  let dryRun ← required fields "dry_run" bool?
  let startedAt ← required fields "started_at" Timestamp.ofJson?
  let endedAt? ← optional fields "ended_at" Timestamp.ofJson?
  let status ← required fields "status" (case? RunStatus.ofName?)
  let summary ← required fields "summary" RunSummary.ofJson?
  let files ← defaulted [] fields "files" (list? FileOutcome.ofJson?)
  some ⟨schema, tool, root, backupSuffix, dryRun, startedAt, endedAt?, status, summary, files⟩

end RunReport

namespace RestoreOutcome

def fieldNames : List String := ["path", "backup_path", "status", "message", "backup_removed"]

def toJson (outcome : RestoreOutcome) : JsonValue :=
  .ofMembers <|
    [("path", .text outcome.path), ("backup_path", .text outcome.backupPath),
      ("status", .text outcome.status.name)] ++
    memberOf? "message" .text outcome.message? ++
    [("backup_removed", .bool outcome.backupRemoved)]

def ofJson? (value : JsonValue) : Option RestoreOutcome := do
  let fields ← value.fields? fieldNames
  let path ← required fields "path" text?
  let backupPath ← required fields "backup_path" text?
  let status ← required fields "status" (case? RestoreStatus.ofName?)
  let message? ← optional fields "message" text?
  let backupRemoved ← defaulted false fields "backup_removed" bool?
  some ⟨path, backupPath, status, message?, backupRemoved⟩

end RestoreOutcome

namespace RestoreReport

def fieldNames : List String := ["schema", "tool", "root", "files"]

def toJson (report : RestoreReport) : JsonValue :=
  .ofMembers
    [("schema", .text report.schema), ("tool", report.tool.toJson), ("root", .text report.root),
      ("files", .array (report.files.map RestoreOutcome.toJson))]

def ofJson? (value : JsonValue) : Option RestoreReport := do
  let fields ← value.fields? fieldNames
  let schema ← required fields "schema" text?
  let tool ← required fields "tool" ToolInfo.ofJson?
  let root ← required fields "root" text?
  let files ← defaulted [] fields "files" (list? RestoreOutcome.ofJson?)
  some ⟨schema, tool, root, files⟩

end RestoreReport

namespace BackupRecord

def fieldNames : List String := ["source", "original_path", "path", "sha256", "bytes"]

def toJson (record : BackupRecord) : JsonValue :=
  .ofMembers
    [("source", .text record.source), ("original_path", .text record.absPath),
      ("path", .text record.path), ("sha256", .text record.sha256), ("bytes", .nat record.bytes)]

def ofJson? (value : JsonValue) : Option BackupRecord := do
  let fields ← value.fields? fieldNames
  let source ← required fields "source" text?
  let absPath ← required fields "original_path" text?
  let path ← required fields "path" text?
  let sha256 ← required fields "sha256" text?
  let bytes ← required fields "bytes" counter?
  some ⟨source, absPath, path, sha256, bytes⟩

end BackupRecord

/-- The value of some type that a text holds in JSON. -/
def readJson? {α : Type} (ofJson? : JsonValue → Option α) (text : String) : Option α :=
  (JsonValue.ofText? text).bind ofJson?

end SymbolRename
