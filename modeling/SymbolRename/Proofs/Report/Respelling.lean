import SymbolRename.Proofs.Json.Respelling
import SymbolRename.Proofs.Report.RoundTrip

/-!
# Other spellings of reports

The layout of every record in a report, and the readers that follow it.  So a report is read from
its text and from every other spelling of it, but not once one of its fields is written twice.
-/

namespace SymbolRename

open JsonValue

/-! ## Layouts -/

namespace ToolInfo

def jsonSchema : Schema :=
  .record [("name", .required, .leaf), ("version", .optional, .leaf)]

theorem follows : Follows jsonSchema ofJson? := by
  refine follows_record (by decide) (fun _ ↦ rfl) ?_
  refine .required (follows_leaf _) fun name ↦ ?_
  refine .optional (follows_leaf _) fun version? ↦ ?_
  exact .done _

end ToolInfo

namespace NamespaceCounts

def jsonSchema : Schema :=
  .record [("lowercase", .required, .leaf), ("uppercase", .required, .leaf)]

theorem follows : Follows jsonSchema ofJson? := by
  refine follows_record (by decide) (fun _ ↦ rfl) ?_
  refine .required (follows_leaf _) fun lowercase ↦ ?_
  refine .required (follows_leaf _) fun uppercase ↦ ?_
  exact .done _

end NamespaceCounts

namespace FileOutcome

def jsonSchema : Schema :=
  .record [("path", .required, .leaf), ("status", .required, .leaf),
    ("message", .optional, .leaf), ("backup_path", .optional, .leaf),
    ("sha256_before", .optional, .leaf), ("sha256_after", .optional, .leaf),
    ("counts", .optional, NamespaceCounts.jsonSchema),
    ("lossy_decode", .defaulted (.bool false), .leaf), ("patch", .optional, .leaf)]

theorem follows : Follows jsonSchema ofJson? := by
  refine follows_record (by decide) (fun _ ↦ rfl) ?_
  refine .required (follows_leaf _) fun path ↦ ?_
  refine .required (follows_leaf _) fun status ↦ ?_
  refine .optional (follows_leaf _) fun message? ↦ ?_
  refine .optional (follows_leaf _) fun backupPath? ↦ ?_
  refine .optional (follows_leaf _) fun sha256Before? ↦ ?_
  refine .optional (follows_leaf _) fun sha256After? ↦ ?_
  refine .optional NamespaceCounts.follows fun counts? ↦ ?_
  refine .defaulted (follows_leaf _) rfl fun lossyDecode ↦ ?_
  refine .optional (follows_leaf _) fun patch? ↦ ?_
  exact .done _

end FileOutcome

namespace RunSummary

def jsonSchema : Schema :=
  .record [("files_total", .required, .leaf), ("files_processed", .required, .leaf),
    ("files_changed", .required, .leaf), ("files_unchanged", .required, .leaf),
    ("files_pending", .required, .leaf), ("files_missing", .required, .leaf),
    ("files_failed", .required, .leaf)]

theorem follows : Follows jsonSchema ofJson? := by
  refine follows_record (by decide) (fun _ ↦ rfl) ?_
  refine .required (follows_leaf _) fun total ↦ ?_
  refine .required (follows_leaf _) fun processed ↦ ?_
  refine .required (follows_leaf _) fun changed ↦ ?_
  refine .required (follows_leaf _) fun unchanged ↦ ?_
  refine .required (follows_leaf _) fun pending ↦ ?_
  refine .required (follows_leaf _) fun missing ↦ ?_
  refine .required (follows_leaf _) fun failed ↦ ?_
  exact .done _

end RunSummary

namespace RunReport

def jsonSchema : Schema :=
  .record [("schema", .required, .leaf), ("tool", .required, ToolInfo.jsonSchema),
    ("root", .required, .leaf), ("backup_suffix", .required, .leaf),
    ("dry_run", .required, .leaf), ("started_at", .required, .leaf),
    ("ended_at", .optional, .leaf), ("status", .required, .leaf),
    ("summary", .required, RunSummary.jsonSchema),
    ("files", .defaulted (.array []), .list FileOutcome.jsonSchema)]

theorem follows : Follows jsonSchema ofJson? := by
  refine follows_record (by decide) (fun _ ↦ rfl) ?_
  refine .required (follows_leaf _) fun schema ↦ ?_
  refine .required ToolInfo.follows fun tool ↦ ?_
  refine .required (follows_leaf _) fun root ↦ ?_
  refine .required (follows_leaf _) fun backupSuffix ↦ ?_
  refine .required (follows_leaf _) fun dryRun ↦ ?_
  refine .required (follows_leaf _) fun startedAt ↦ ?_
  refine .optional (follows_leaf _) fun endedAt? ↦ ?_
  refine .required (follows_leaf _) fun status ↦ ?_
  refine .required RunSummary.follows fun summary ↦ ?_
  refine .defaulted (follows_list FileOutcome.follows) rfl fun files ↦ ?_
  exact .done _

end RunReport

namespace RestoreOutcome

def jsonSchema : Schema :=
  .record [("path", .required, .leaf), ("backup_path", .required, .leaf),
    ("status", .required, .leaf), ("message", .optional, .leaf),
    ("backup_removed", .defaulted (.bool false), .leaf)]

theorem follows : Follows jsonSchema ofJson? := by
  refine follows_record (by decide) (fun _ ↦ rfl) ?_
  refine .required (follows_leaf _) fun path ↦ ?_
  refine .required (follows_leaf _) fun backupPath ↦ ?_
  refine .required (follows_leaf _) fun status ↦ ?_
  refine .optional (follows_leaf _) fun message? ↦ ?_
  refine .defaulted (follows_leaf _) rfl fun backupRemoved ↦ ?_
  exact .done _

end RestoreOutcome

namespace RestoreReport

def jsonSchema : Schema :=
  .record [("schema", .required, .leaf), ("tool", .required, ToolInfo.jsonSchema),
    ("root", .required, .leaf), ("files", .defaulted (.array []), .list RestoreOutcome.jsonSchema)]

theorem follows : Follows jsonSchema ofJson? := by
  refine follows_record (by decide) (fun _ ↦ rfl) ?_
  refine .required (follows_leaf _) fun schema ↦ ?_
  refine .required ToolInfo.follows fun tool ↦ ?_
  refine .required (follows_leaf _) fun root ↦ ?_
  refine .defaulted (follows_list RestoreOutcome.follows) rfl fun files ↦ ?_
  exact .done _

end RestoreReport

namespace BackupRecord

def jsonSchema : Schema :=
  .record [("source", .required, .leaf), ("original_path", .required, .leaf),
    ("path", .required, .leaf), ("sha256", .required, .leaf), ("bytes", .required, .leaf)]

theorem follows : Follows jsonSchema ofJson? := by
  refine follows_record (by decide) (fun _ ↦ rfl) ?_
  refine .required (follows_leaf _) fun source ↦ ?_
  refine .required (follows_leaf _) fun absPath ↦ ?_
  refine .required (follows_leaf _) fun path ↦ ?_
  refine .required (follows_leaf _) fun sha256 ↦ ?_
  refine .required (follows_leaf _) fun bytes ↦ ?_
  exact .done _

end BackupRecord

/-! ## Spelled reports -/

/-- The value is read from every text that spells it, and from no text in which a field is written
twice.  There is a text for each of these spellings. -/
structure ReadLiberally {α : Type} (schema : Schema) (toJson : α → JsonValue)
    (ofJson? : JsonValue → Option α) (value : α) : Prop where
  read : ∀ json text, Respelled schema (toJson value) json → ofText? text = some json →
    readJson? ofJson? text = some value
  refused : ∀ json again text, Respelled schema (toJson value) json → Repeats schema json again →
    ofText? text = some again → readJson? ofJson? text = none
  text_read : ∀ json, Respelled schema (toJson value) json → ofText? json.pretty = some json
  text_refused : ∀ json again, Respelled schema (toJson value) json →
    Repeats schema json again → ofText? again.pretty = some again

theorem RoundTrips.readLiberally {α : Type} {schema : Schema} {toJson : α → JsonValue}
    {ofJson? : JsonValue → Option α} {value : α} (h : RoundTrips toJson ofJson? value)
    (hfollows : Follows schema ofJson?) : ReadLiberally schema toJson ofJson? value where
  read json text hjson htext := by
    rw [readJson?, htext, Option.bind_some, hfollows.respelled hjson, h.read]
  refused json again text _ hagain htext := by
    rw [readJson?, htext, Option.bind_some, hfollows.repeats hagain]
  text_read json hjson := (hjson.plain h.plain).ofText?_pretty
  text_refused json again hjson hagain := (hagain.plain (hjson.plain h.plain)).ofText?_pretty

/-- Whatever the order of the members of its records, whatever other members stand among them, and
whether or not nulls and defaults are written out: every spelling of a report, an outcome, a backup
or a tool is read as this value, and none that has one of the fields twice is read at all. -/
theorem reports_read_liberally :
    (∀ report : RunReport, report.Storable →
      ReadLiberally RunReport.jsonSchema RunReport.toJson RunReport.ofJson? report) ∧
    (∀ report : RestoreReport,
      ReadLiberally RestoreReport.jsonSchema RestoreReport.toJson RestoreReport.ofJson? report) ∧
    (∀ outcome : FileOutcome, outcome.InRange →
      ReadLiberally FileOutcome.jsonSchema FileOutcome.toJson FileOutcome.ofJson? outcome) ∧
    (∀ outcome : RestoreOutcome,
      ReadLiberally RestoreOutcome.jsonSchema RestoreOutcome.toJson RestoreOutcome.ofJson?
        outcome) ∧
    (∀ record : BackupRecord, record.bytes < counterLimit →
      ReadLiberally BackupRecord.jsonSchema BackupRecord.toJson BackupRecord.ofJson? record) ∧
    ∀ tool : ToolInfo, ReadLiberally ToolInfo.jsonSchema ToolInfo.toJson ToolInfo.ofJson? tool := by
  refine ⟨?_, ?_, ?_, ?_, ?_, ?_⟩
  · intro report hstorable
    exact hstorable.roundTrips.readLiberally RunReport.follows
  · intro report
    exact report.roundTrips.readLiberally RestoreReport.follows
  · intro outcome hrange
    exact hrange.roundTrips.readLiberally FileOutcome.follows
  · intro outcome
    exact outcome.roundTrips.readLiberally RestoreOutcome.follows
  · intro record hbytes
    exact (BackupRecord.roundTrips hbytes).readLiberally BackupRecord.follows
  · intro tool
    exact tool.roundTrips.readLiberally ToolInfo.follows

def countedOutcome : FileOutcome :=
  { FileOutcome.bare "a.h" .changed with counts? := some ⟨2, 0⟩ }

def oddNumber : List Char := '-' :: (decimal 0 ++ ['.', '5'] ++ ['E', '+', '3'])

/-- The outcome with the members of both records in reverse, a null and a default written out, and a
member that is not known. -/
def spelledOutcome (counts : Fields) : JsonValue :=
  .ofMembers [("counts", .ofMembers counts), ("status", .text "changed"), ("path", .text "a.h"),
    ("patch", .null), ("lossy_decode", .bool false), ("note", .number oddNumber)]

theorem respelled_countedOutcome :
    Respelled FileOutcome.jsonSchema countedOutcome.toJson
      (spelledOutcome [("uppercase", .nat 0), ("lowercase", .nat 2)]) := by
  have hcounts : Respells NamespaceCounts.jsonSchema
      (.ofMembers [("lowercase", .nat 2), ("uppercase", .nat 0)])
      (.ofMembers [("uppercase", .nat 0), ("lowercase", .nat 2)]) :=
    .reorder (.swap _ _ _)
  have hnumber : IsNumber oddNumber :=
    .negative (.digits ⟨by simp, by simp⟩)
      (@IsExponent.digits 'E' ['+'] ['3'] (Or.inr rfl) (Or.inr (Or.inl rfl)) ⟨by simp, by simp⟩)
  have hfirst : Respells FileOutcome.jsonSchema countedOutcome.toJson _ :=
    @Respells.member _ [("path", .text "a.h"), ("status", .text "changed")] [] "counts" .optional _
      _ _ (by simp) hcounts
  have hnull := Relation.ReflTransGen.single hfirst |>.tail
    (@Respells.null _ _ "patch" .leaf (by simp) (by decide))
  have hdefault := hnull.tail
    (@Respells.default _ _ "lossy_decode" _ .leaf (by simp) (.bool false) (by decide))
  have hinsert := hdefault.tail (@Respells.insert _ _ "note" _ (by decide) (.number hnumber))
  exact hinsert.tail (.reorder (List.reverse_perm _).symm)

/-- An outcome is read from another spelling of it, and not if its counts name a field twice.  Times
may have the first year of all. -/
theorem countedOutcome_read_liberally :
    let spelled := spelledOutcome [("uppercase", .nat 0), ("lowercase", .nat 2)]
    let doubled := spelledOutcome [("uppercase", .nat 0), ("lowercase", .nat 2),
      ("uppercase", .nat 0)]
    let report := { crowdedReport with startedAt := ⟨-262143, 1, 1, 0, 0, 0, 0⟩ }
    (countedOutcome.InRange ∧
      readJson? FileOutcome.ofJson? spelled.pretty = some countedOutcome ∧
      readJson? FileOutcome.ofJson? doubled.pretty = none) ∧
    report.Storable ∧ readJson? RunReport.ofJson? report.toJson.pretty = some report := by
  intro spelled doubled report
  have hrange : countedOutcome.InRange := by decide
  have hstorable : report.Storable := ⟨by decide, by decide, by decide, by decide⟩
  have hspelled := respelled_countedOutcome
  have hdoubled : Repeats FileOutcome.jsonSchema spelled doubled := by
    refine @Repeats.member _ [] _ "counts" .optional NamespaceCounts.jsonSchema _ _ (by simp) ?_
    have hperm : ([("uppercase", .nat 0), ("lowercase", .nat 2)] ++ [("uppercase", .nat 0)] :
        Fields).Perm _ := List.perm_append_singleton _ _
    exact @Repeats.here _ _ _ "uppercase" (.nat 0) (.nat 0) (by decide) (by simp) (.nat 0) hperm
  obtain ⟨hread, hrefused, htext, htext'⟩ := reports_read_liberally.2.2.1 countedOutcome hrange
  have hreport := reports_read_liberally.1 report hstorable
  exact ⟨⟨hrange, hread _ _ hspelled (htext _ hspelled),
      hrefused _ _ _ hspelled hdoubled (htext' _ _ hspelled hdoubled)⟩,
    hstorable, hreport.read _ _ .refl (hreport.text_read _ .refl)⟩

end SymbolRename
