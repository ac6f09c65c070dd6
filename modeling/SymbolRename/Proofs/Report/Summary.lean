import SymbolRename.Report.Outcome

/-!
# Reports and their outcomes

Whatever is pushed onto a report, its summary and its status are read off its outcomes.  So the exit
code tells whether a file failed and, for a check, whether one is to be changed.
-/

namespace SymbolRename

/-- A summary does not tell outcomes in one order from the same in another one. -/
theorem RunSummary.ofOutcomes_eq_of_perm {outcomes others : List FileOutcome}
    (h : outcomes.Perm others) : ofOutcomes outcomes = ofOutcomes others := by
  simp only [ofOutcomes, h.length_eq, h.countP_eq]

namespace RunReport

structure Consistent (report : RunReport) : Prop where
  summary_eq : report.summary = RunSummary.ofOutcomes report.files
  status_eq : report.status = report.summary.status

theorem consistent_start (tool : ToolInfo) (root backupSuffix : String) (dryRun : Bool)
    (now : Timestamp) : (start tool root backupSuffix dryRun now).Consistent :=
  ⟨rfl, rfl⟩

theorem consistent_push (report : RunReport) (outcome : FileOutcome) :
    (report.push outcome).Consistent :=
  ⟨rfl, rfl⟩

theorem Consistent.finish {report : RunReport} (h : report.Consistent) (now : Timestamp) :
    (report.finish now).Consistent :=
  ⟨h.summary_eq, h.status_eq⟩

theorem Consistent.foldl_push {report : RunReport} (h : report.Consistent)
    (outcomes : List FileOutcome) : (outcomes.foldl push report).Consistent := by
  induction outcomes generalizing report with
  | nil => exact h
  | cons outcome outcomes ih => exact ih (report.consistent_push outcome)

theorem files_foldl_push (report : RunReport) (outcomes : List FileOutcome) :
    (outcomes.foldl push report).files = report.files ++ outcomes := by
  induction outcomes generalizing report with
  | nil => simp
  | cons outcome outcomes ih => rw [List.foldl_cons, ih, push, List.append_assoc]; rfl

theorem dryRun_foldl_push (report : RunReport) (outcomes : List FileOutcome) :
    (outcomes.foldl push report).dryRun = report.dryRun := by
  induction outcomes generalizing report with
  | nil => rfl
  | cons outcome outcomes ih => exact ih (report.push outcome)

namespace Consistent

variable {report : RunReport} (h : report.Consistent)

include h

theorem failed_pos_iff :
    0 < report.summary.failed ↔ ∃ outcome ∈ report.files, outcome.status = .failed := by
  rw [h.summary_eq, RunSummary.ofOutcomes, List.countP_pos_iff]
  simp only [decide_eq_true_eq]

theorem pending_pos_iff :
    0 < report.summary.pending ↔ ∃ outcome ∈ report.files, outcome.status = .pending := by
  rw [h.summary_eq, RunSummary.ofOutcomes, List.countP_pos_iff]
  simp only [decide_eq_true_eq]

theorem exitCode_eq : report.exitCode =
    if 0 < report.summary.failed then 1
    else if report.dryRun = true ∧ 0 < report.summary.pending then 2
    else 0 := by
  rw [exitCode, h.status_eq, RunSummary.status]
  by_cases hfailed : report.summary.failed = 0
  · simp [hfailed]
  · by_cases hprocessed : 0 < report.summary.processed <;>
      simp [hfailed, hprocessed, Nat.pos_of_ne_zero hfailed]

theorem exitCode_eq_one_iff :
    report.exitCode = 1 ↔ ∃ outcome ∈ report.files, outcome.status = .failed := by
  rw [h.exitCode_eq, ← h.failed_pos_iff]
  split
  · next hfailed => exact iff_of_true rfl hfailed
  · next hfailed =>
    refine iff_of_false ?_ hfailed
    split <;> simp

theorem exitCode_eq_two_iff :
    report.exitCode = 2 ↔ (¬∃ outcome ∈ report.files, outcome.status = .failed) ∧
      report.dryRun = true ∧ ∃ outcome ∈ report.files, outcome.status = .pending := by
  rw [h.exitCode_eq, ← h.failed_pos_iff, ← h.pending_pos_iff]
  split
  · next hfailed => exact iff_of_false (by simp) fun hpending ↦ hpending.1 hfailed
  · next hfailed =>
    split
    · next hpending => exact iff_of_true rfl ⟨hfailed, hpending⟩
    · next hpending => exact iff_of_false (by simp) fun h ↦ hpending h.2

theorem exitCode_eq_zero_iff :
    report.exitCode = 0 ↔ (¬∃ outcome ∈ report.files, outcome.status = .failed) ∧
      ¬(report.dryRun = true ∧ ∃ outcome ∈ report.files, outcome.status = .pending) := by
  rw [h.exitCode_eq, ← h.failed_pos_iff, ← h.pending_pos_iff]
  split
  · next hfailed => exact iff_of_false (by simp) fun hnone ↦ hnone.1 hfailed
  · next hfailed =>
    split
    · next hpending => exact iff_of_false (by simp) fun hnone ↦ hnone.2 hpending
    · next hpending => exact iff_of_true rfl ⟨hfailed, hpending⟩

end Consistent
end RunReport
end SymbolRename
