import SymbolRename.Proofs.Json.Record
import SymbolRename.Proofs.Json.RoundTrip
import SymbolRename.Proofs.Report.Timestamp
import SymbolRename.Report.Codec

/-!
# Reports are read back

What is written for a report, an outcome, a backup or a tool is read back as the same value.  The
members of a record are some of its fields in their order, so no field is named twice; a field that
is left out is one that reading fills in.
-/

namespace SymbolRename

/-! ## Members and fields -/

namespace JsonValue

/-- The members are values of some of the named fields, in their order. -/
inductive MembersOf : List String → Fields → Prop where
  | nil : MembersOf [] []
  | member {name : String} {names : List String} {value : JsonValue} {members : Fields}
      (hvalue : value.Plain) (hmembers : MembersOf names members) :
      MembersOf (name :: names) ((name, value) :: members)
  | skip {name : String} {names : List String} {members : Fields}
      (hmembers : MembersOf names members) : MembersOf (name :: names) members

namespace MembersOf

variable {α : Type} {name : String} {names : List String} {members : Fields}

theorem sublist (h : MembersOf names members) : (members.map Prod.fst).Sublist names := by
  induction h with
  | nil => exact .slnil
  | member _ _ ih => exact ih.cons_cons _
  | skip _ ih => exact ih.cons _

theorem plain (h : MembersOf names members) : (ofMembers members).Plain := by
  have hvalues : ∀ member ∈ members, member.2.Plain := by
    induction h with
    | nil => simp
    | member hvalue _ ih => exact List.forall_mem_cons.mpr ⟨hvalue, ih⟩
    | skip _ ih => exact ih
  apply Plain.object
  intro member hmember
  obtain ⟨field, hfield, rfl⟩ := List.mem_map.mp hmember
  exact hvalues field hfield

theorem memberOf? {write : α → JsonValue} {value? : Option α}
    (hvalue : ∀ value ∈ value?, (write value).Plain) (hmembers : MembersOf names members) :
    MembersOf (name :: names) (SymbolRename.memberOf? name write value? ++ members) := by
  cases value? with
  | none => exact .skip hmembers
  | some value => exact .member (hvalue value rfl) hmembers

end MembersOf

theorem MembersOf.fields?_eq {names : List String} {members : Fields}
    (h : MembersOf names members) (hnames : names.Nodup) :
    (ofMembers members).fields? names = some members := by
  have hknown : known names members = members := by
    apply List.filter_eq_self.mpr
    intro member hmember
    simpa using h.sublist.subset (List.mem_map_of_mem hmember)
  rw [fields?_of_nodup (by rw [hknown]; exact hnames.sublist h.sublist), hknown]

theorem lookup_memberOf? {α : Type} {name : String} {write : α → JsonValue} {value? : Option α}
    (key : String) :
    (memberOf? name write value?).lookup key =
      if key = name then value?.map write else none := by
  cases value? with
  | none => simp [memberOf?]
  | some value =>
      by_cases hkey : key = name
      · simp [memberOf?, hkey]
      · have hne : (key == name) = false := by simpa using hkey
        simp [memberOf?, List.lookup_cons, hne, hkey]

theorem optionalValue_map {α : Type} {write : α → JsonValue} {read? : JsonValue → Option α}
    {value? : Option α}
    (h : ∀ value ∈ value?, write value ≠ .null ∧ read? (write value) = some value) :
    optionalValue read? (value?.map write) = some value? := by
  cases value? with
  | none => rfl
  | some value =>
      obtain ⟨hnull, hread⟩ := h value rfl
      rw [Option.map_some, optionalValue.eq_def]
      split
      · next heq => cases heq
      · next heq => exact absurd (Option.some.inj heq) hnull
      · next heq =>
        cases heq
        rw [hread, Option.map_some]

theorem plain_text (text : String) : (JsonValue.text text).Plain := .string (some text)

theorem text?_text (text : String) : (JsonValue.text text).text? = some text := rfl

theorem optionalValue_text (value? : Option String) :
    optionalValue text? (value?.map .text) = some value? :=
  optionalValue_map fun value _ ↦ ⟨by simp [text], text?_text value⟩

theorem counter?_nat {n : Nat} (h : n < counterLimit) : counter? (.nat n) = some n :=
  if_pos h

end JsonValue

open JsonValue

/-! ## Values that are kept -/

/-- What is written for the value is read back as the value. -/
structure RoundTrips {α : Type} (toJson : α → JsonValue) (ofJson? : JsonValue → Option α)
    (value : α) : Prop where
  plain : (toJson value).Plain
  read : ofJson? (toJson value) = some value

section RoundTrips

variable {α : Type} {toJson : α → JsonValue} {ofJson? : JsonValue → Option α} {value : α}

theorem RoundTrips.readJson?_pretty (h : RoundTrips toJson ofJson? value) :
    readJson? ofJson? (toJson value).pretty = some value := by
  rw [readJson?, h.plain.ofText?_pretty, Option.bind_some, h.read]

theorem roundTrips_of_members {names : List String} {members : Fields}
    {read : Fields → Option α} (hnames : names.Nodup) (hmembers : MembersOf names members)
    (hwrite : toJson value = ofMembers members)
    (hread? : ∀ json, ofJson? json = (fields? names json).bind read)
    (hread : read members = some value) : RoundTrips toJson ofJson? value where
  plain := by
    rw [hwrite]
    exact hmembers.plain
  read := by rw [hread?, hwrite, hmembers.fields?_eq hnames, Option.bind_some, hread]

theorem optionalValue_of_roundTrips {value? : Option α}
    (h : ∀ value ∈ value?, RoundTrips toJson ofJson? value)
    (hnull : ∀ value, toJson value ≠ .null) :
    optionalValue ofJson? (value?.map toJson) = some value? :=
  optionalValue_map fun value hvalue ↦ ⟨hnull value, (h value hvalue).read⟩

theorem plain_array_of_roundTrips {values : List α}
    (h : ∀ value ∈ values, RoundTrips toJson ofJson? value) :
    (JsonValue.array (values.map toJson)).Plain := by
  apply Plain.array
  intro item hitem
  obtain ⟨value, hvalue, rfl⟩ := List.mem_map.mp hitem
  exact (h value hvalue).plain

theorem list?_of_roundTrips {values : List α}
    (h : ∀ value ∈ values, RoundTrips toJson ofJson? value) :
    list? ofJson? (.array (values.map toJson)) = some values := by
  rw [list?]
  induction values with
  | nil => rfl
  | cons value values ih =>
      have hvalue := (h value List.mem_cons_self).read
      have hvalues := ih fun other hother ↦ h other (List.mem_cons_of_mem _ hother)
      simp [hvalue, hvalues]

end RoundTrips

theorem case?_fileStatus (status : FileStatus) :
    case? FileStatus.ofName? (.text status.name) = some status := by
  cases status <;> decide

theorem case?_runStatus (status : RunStatus) :
    case? RunStatus.ofName? (.text status.name) = some status := by
  cases status <;> decide

theorem case?_restoreStatus (status : RestoreStatus) :
    case? RestoreStatus.ofName? (.text status.name) = some status := by
  cases status <;> decide

theorem Timestamp.Valid.roundTrips {t : Timestamp} (h : t.Valid) :
    RoundTrips toJson ofJson? t where
  plain := plain_text _
  read := by simp [toJson, ofJson?, text?_text, h.ofText?_toText]

theorem ToolInfo.roundTrips (tool : ToolInfo) : RoundTrips toJson ofJson? tool := by
  refine roundTrips_of_members ?_ ?_ rfl (fun _ ↦ rfl) ?_
  · decide
  · rw [← List.append_nil (memberOf? "version" _ _)]
    exact .member (plain_text _) (.memberOf? (fun _ _ ↦ plain_text _) .nil)
  · simp [required_eq, optional_eq, List.lookup_cons, lookup_memberOf?, text?_text,
      optionalValue_text]

/-! ## Namespacing -/

namespace NamespaceCounts

/-- Both counters can be held. -/
def InRange (counts : NamespaceCounts) : Prop :=
  counts.lowercase < counterLimit ∧ counts.uppercase < counterLimit

instance (counts : NamespaceCounts) : Decidable counts.InRange :=
  inferInstanceAs (Decidable (_ ∧ _))

theorem InRange.roundTrips {counts : NamespaceCounts} (h : counts.InRange) :
    RoundTrips toJson ofJson? counts := by
  refine roundTrips_of_members ?_ ?_ rfl (fun _ ↦ rfl) ?_
  · decide
  · exact .member (.nat _) (.member (.nat _) .nil)
  · simp [required_eq, List.lookup_cons, counter?_nat h.1, counter?_nat h.2]

end NamespaceCounts

namespace FileOutcome

def InRange (outcome : FileOutcome) : Prop := ∀ counts ∈ outcome.counts?, counts.InRange

instance (outcome : FileOutcome) : Decidable outcome.InRange :=
  inferInstanceAs (Decidable (∀ counts ∈ outcome.counts?, counts.InRange))

theorem InRange.roundTrips {outcome : FileOutcome} (h : outcome.InRange) :
    RoundTrips toJson ofJson? outcome := by
  have hcounts : ∀ counts ∈ outcome.counts?,
      RoundTrips NamespaceCounts.toJson NamespaceCounts.ofJson? counts :=
    fun counts hmem ↦ (h counts hmem).roundTrips
  -- the mark of a lossy decoding is like an optional value that is there when it is true
  have hlossy : (if outcome.lossyDecode then [("lossy_decode", JsonValue.bool true)] else []) =
      memberOf? "lossy_decode" .bool (if outcome.lossyDecode then some true else none) := by
    cases outcome.lossyDecode <;> rfl
  have hlossyRead : (if outcome.lossyDecode then some (JsonValue.bool true) else none).elim
      (some false) bool? = some outcome.lossyDecode := by
    cases outcome.lossyDecode <;> rfl
  refine roundTrips_of_members ?_ ?_ rfl (fun _ ↦ rfl) ?_
  · decide
  · simp only [hlossy, List.append_assoc, List.cons_append, List.nil_append]
    rw [← List.append_nil (memberOf? "patch" _ _)]
    apply MembersOf.member (plain_text _)
    apply MembersOf.member (plain_text _)
    apply MembersOf.memberOf? fun _ _ ↦ plain_text _
    apply MembersOf.memberOf? fun _ _ ↦ plain_text _
    apply MembersOf.memberOf? fun _ _ ↦ plain_text _
    apply MembersOf.memberOf? fun _ _ ↦ plain_text _
    apply MembersOf.memberOf? fun counts hmem ↦ (hcounts counts hmem).plain
    apply MembersOf.memberOf? fun _ _ ↦ .bool _
    exact .memberOf? (fun _ _ ↦ plain_text _) .nil
  · simp [hlossy, required_eq, optional_eq, defaulted_eq, List.lookup_append, List.lookup_cons,
      lookup_memberOf?, text?_text, optionalValue_text, case?_fileStatus, hlossyRead,
      optionalValue_of_roundTrips hcounts (by simp [NamespaceCounts.toJson, ofMembers])]

end FileOutcome

namespace RunSummary

/-- All counters can be held. -/
def InRange (summary : RunSummary) : Prop :=
  summary.total < counterLimit ∧ summary.processed < counterLimit ∧
    summary.changed < counterLimit ∧ summary.unchanged < counterLimit ∧
    summary.pending < counterLimit ∧ summary.missing < counterLimit ∧
    summary.failed < counterLimit

instance (summary : RunSummary) : Decidable summary.InRange :=
  inferInstanceAs (Decidable (_ ∧ _))

theorem InRange.roundTrips {summary : RunSummary} (h : summary.InRange) :
    RoundTrips toJson ofJson? summary := by
  obtain ⟨htotal, hprocessed, hchanged, hunchanged, hpending, hmissing, hfailed⟩ := h
  refine roundTrips_of_members ?_ ?_ rfl (fun _ ↦ rfl) ?_
  · decide
  · iterate 7 apply MembersOf.member (.nat _)
    exact .nil
  · simp [required_eq, List.lookup_cons, counter?_nat, *]

end RunSummary

namespace RunReport

/-- All counters and all times can be held. -/
structure Storable (report : RunReport) : Prop where
  startedAt : report.startedAt.Valid
  endedAt : ∀ t ∈ report.endedAt?, t.Valid
  summary : report.summary.InRange
  files : ∀ outcome ∈ report.files, outcome.InRange

theorem Storable.roundTrips {report : RunReport} (h : report.Storable) :
    RoundTrips toJson ofJson? report := by
  have hstarted := h.startedAt.roundTrips
  have hended : ∀ t ∈ report.endedAt?, RoundTrips Timestamp.toJson Timestamp.ofJson? t :=
    fun t ht ↦ (h.endedAt t ht).roundTrips
  have hsummary := h.summary.roundTrips
  have hfiles : ∀ outcome ∈ report.files,
      RoundTrips FileOutcome.toJson FileOutcome.ofJson? outcome :=
    fun outcome houtcome ↦ (h.files outcome houtcome).roundTrips
  refine roundTrips_of_members ?_ ?_ rfl (fun _ ↦ rfl) ?_
  · decide
  · simp only [List.cons_append, List.nil_append]
    apply MembersOf.member (plain_text _)
    apply MembersOf.member report.tool.roundTrips.plain
    apply MembersOf.member (plain_text _)
    apply MembersOf.member (plain_text _)
    apply MembersOf.member (.bool _)
    apply MembersOf.member hstarted.plain
    apply MembersOf.memberOf? fun t ht ↦ (hended t ht).plain
    apply MembersOf.member (plain_text _)
    apply MembersOf.member hsummary.plain
    exact .member (plain_array_of_roundTrips hfiles) .nil
  · simp [required_eq, optional_eq, defaulted_eq, List.lookup_append, List.lookup_cons,
      lookup_memberOf?, text?_text, bool?, case?_runStatus, report.tool.roundTrips.read,
      hstarted.read, hsummary.read, list?_of_roundTrips hfiles,
      optionalValue_of_roundTrips hended (by simp [Timestamp.toJson, text])]

/-- All counters can be held, and all times have years of four digits. -/
structure InRange (report : RunReport) : Prop where
  startedAt : report.startedAt.Ordinary
  endedAt : ∀ t ∈ report.endedAt?, t.Ordinary
  summary : report.summary.InRange
  files : ∀ outcome ∈ report.files, outcome.InRange

theorem InRange.roundTrips {report : RunReport} (h : report.InRange) :
    RoundTrips toJson ofJson? report := by
  have hstorable : report.Storable :=
    ⟨h.startedAt.1, fun t ht ↦ (h.endedAt t ht).1, h.summary, h.files⟩
  exact hstorable.roundTrips

end RunReport

/-! ## Restoring -/

theorem RestoreOutcome.roundTrips (outcome : RestoreOutcome) :
    RoundTrips toJson ofJson? outcome := by
  refine roundTrips_of_members ?_ ?_ rfl (fun _ ↦ rfl) ?_
  · decide
  · simp only [List.cons_append, List.nil_append]
    apply MembersOf.member (plain_text _)
    apply MembersOf.member (plain_text _)
    apply MembersOf.member (plain_text _)
    apply MembersOf.memberOf? fun _ _ ↦ plain_text _
    exact .member (.bool _) .nil
  · simp [required_eq, optional_eq, defaulted_eq, List.lookup_append, List.lookup_cons,
      lookup_memberOf?, text?_text, optionalValue_text, bool?, case?_restoreStatus]

theorem RestoreReport.roundTrips (report : RestoreReport) : RoundTrips toJson ofJson? report := by
  have hfiles : ∀ outcome ∈ report.files,
      RoundTrips RestoreOutcome.toJson RestoreOutcome.ofJson? outcome :=
    fun outcome _ ↦ outcome.roundTrips
  refine roundTrips_of_members ?_ ?_ rfl (fun _ ↦ rfl) ?_
  · decide
  · apply MembersOf.member (plain_text _)
    apply MembersOf.member report.tool.roundTrips.plain
    apply MembersOf.member (plain_text _)
    exact .member (plain_array_of_roundTrips hfiles) .nil
  · simp [required_eq, defaulted_eq, List.lookup_cons, text?_text, report.tool.roundTrips.read,
      list?_of_roundTrips hfiles]

theorem BackupRecord.roundTrips {record : BackupRecord} (h : record.bytes < counterLimit) :
    RoundTrips toJson ofJson? record := by
  refine roundTrips_of_members ?_ ?_ rfl (fun _ ↦ rfl) ?_
  · decide
  · iterate 4 apply MembersOf.member (plain_text _)
    exact .member (.nat _) .nil
  · simp [required_eq, List.lookup_cons, text?_text, counter?_nat h]

/-! ## Written reports -/

/-- A report, an outcome, a backup or a tool is read back from its text.  The texts in it are
arbitrary, any optional value may be missing, and there may be any number of outcomes. -/
theorem reports_read_back :
    (∀ report : RunReport, report.InRange →
      readJson? RunReport.ofJson? report.toJson.pretty = some report) ∧
    (∀ report : RestoreReport,
      readJson? RestoreReport.ofJson? report.toJson.pretty = some report) ∧
    (∀ outcome : FileOutcome, outcome.InRange →
      readJson? FileOutcome.ofJson? outcome.toJson.pretty = some outcome) ∧
    (∀ outcome : RestoreOutcome,
      readJson? RestoreOutcome.ofJson? outcome.toJson.pretty = some outcome) ∧
    (∀ record : BackupRecord, record.bytes < counterLimit →
      readJson? BackupRecord.ofJson? record.toJson.pretty = some record) ∧
    ∀ tool : ToolInfo, readJson? ToolInfo.ofJson? tool.toJson.pretty = some tool := by
  refine ⟨?_, ?_, ?_, ?_, ?_, ?_⟩
  · intro report hrange
    exact hrange.roundTrips.readJson?_pretty
  · intro report
    exact report.roundTrips.readJson?_pretty
  · intro outcome hrange
    exact hrange.roundTrips.readJson?_pretty
  · intro outcome
    exact outcome.roundTrips.readJson?_pretty
  · intro record hbytes
    exact (BackupRecord.roundTrips hbytes).readJson?_pretty
  · intro tool
    exact tool.roundTrips.readJson?_pretty

/-- An outcome with escapes, a null character and the greatest count. -/
def crowdedOutcome : FileOutcome where
  path := "in\"clude\\\t\u0000/ä\u2028😀.h"
  status := .pending
  message? := none
  backupPath? := some ""
  sha256Before? := some "null"
  sha256After? := none
  counts? := some ⟨18446744073709551615, 0⟩
  lossyDecode := true
  patch? := some "--- a\n+++ b\n@@ -1 +1 @@\n-\u007f\n"

/-- A report on the last leap second of a year of four digits. -/
def crowdedReport : RunReport where
  schema := ""
  tool := ⟨"soloud-\x7b,\x7d", none⟩
  root := "\r\n[]"
  backupSuffix := ".backup"
  dryRun := true
  startedAt := ⟨9999, 12, 31, 23, 59, 60, 20000⟩
  endedAt? := some ⟨0, 2, 29, 0, 0, 0, 999999999⟩
  status := .partialFailure
  summary := ⟨18446744073709551615, 2, 0, 1, 0, 0, 1⟩
  files := [crowdedOutcome, .missing "", .failed "a.h" "cannot read\x0b"]

theorem crowded_report_read_back :
    (crowdedReport.InRange ∧
      readJson? RunReport.ofJson? crowdedReport.toJson.pretty = some crowdedReport) ∧
    (crowdedOutcome.InRange ∧
      readJson? FileOutcome.ofJson? crowdedOutcome.toJson.pretty = some crowdedOutcome) ∧
    readJson? BackupRecord.ofJson?
        (BackupRecord.toJson ⟨"\\", "/r/\\", "/r/\\~", "", 18446744073709551615⟩).pretty =
      some ⟨"\\", "/r/\\", "/r/\\~", "", 18446744073709551615⟩ := by
  have hreport : crowdedReport.InRange := ⟨by decide, by decide, by decide, by decide⟩
  have houtcome : crowdedOutcome.InRange := by decide
  exact ⟨⟨hreport, reports_read_back.1 _ hreport⟩,
    ⟨houtcome, reports_read_back.2.2.1 _ houtcome⟩,
    reports_read_back.2.2.2.2.1 _ (by decide)⟩

end SymbolRename
