import SymbolRename.Disk.Publish
import SymbolRename.Report.Codec
import SymbolRename.Report.Markdown

/-!
# Report files
-/

namespace SymbolRename

/-- Which report could not be written. -/
inductive ArtifactKind where
  | json
  | markdown
  deriving DecidableEq, Repr

structure ArtifactError where
  kind : ArtifactKind
  error : PublishError
  deriving DecidableEq, Repr

/-- The error and its causes. -/
def ArtifactError.chain (e : ArtifactError) : List String :=
  (match e.kind with
    | .json => "write JSON report"
    | .markdown => "write markdown report") :: e.error.chain

/-- Writes a value as a JSON file. -/
def Disk.publishJson (disk : Disk) (path : String) (value : JsonValue) :
    Except PublishError Unit × List Mutation :=
  disk.publish path (Utf8.encode (value.write 0 ++ ['\n']))

/-- Writes the JSON report of a run, if it is asked for. -/
def Disk.publishRunJson (disk : Disk) (report : RunReport) :
    Option String → Except ArtifactError Unit × List Mutation
  | none => (.ok (), [])
  | some path =>
    let (result, made) := disk.publishJson path report.toJson
    (result.mapError (⟨.json, ·⟩), made)

/-- Writes the markdown report of a run, if it is asked for. -/
def Disk.publishRunMarkdown (disk : Disk) (report : RunReport) :
    Option String → Except ArtifactError Unit × List Mutation
  | none => (.ok (), [])
  | some path =>
    let (result, made) := disk.publish path (Utf8.encode (Markdown.report report).toList)
    (result.mapError (⟨.markdown, ·⟩), made)

/-- Writes the reports of a run that are asked for, first the JSON report.  The second is not tried
when the first fails. -/
def Disk.publishRun (disk : Disk) (report : RunReport) (json? markdown? : Option String) :
    Except ArtifactError Unit × List Mutation :=
  match disk.publishRunJson report json? with
  | (.error e, made) => (.error e, made)
  | (.ok (), made) =>
    let (result, more) := (disk.applyAll made).publishRunMarkdown report markdown?
    (result, made ++ more)

end SymbolRename
