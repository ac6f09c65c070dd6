import Mathlib.Data.Multiset.Replicate
import SymbolRename.Proofs.Report.Summary

/-!
# Reports as projections

All that a report says beside its outcomes can be told from how often each status occurs among
them.  Files that are missing are counted, and make no other difference.
-/

namespace SymbolRename

/-- The statuses of some outcomes, whatever their order. -/
def statuses (outcomes : List FileOutcome) : Multiset FileStatus :=
  ↑(outcomes.map FileOutcome.status)

theorem mem_statuses {outcomes : List FileOutcome} {status : FileStatus} :
    status ∈ statuses outcomes ↔ ∃ outcome ∈ outcomes, outcome.status = status := by
  rw [statuses, Multiset.mem_coe, List.mem_map]

theorem count_statuses (outcomes : List FileOutcome) (status : FileStatus) :
    (statuses outcomes).count status =
      outcomes.countP fun outcome ↦ outcome.status = status := by
  rw [statuses, Multiset.coe_count, List.count, List.countP_map]
  congr 1

theorem card_eq_sum_count (s : Multiset FileStatus) :
    s.card = s.count .changed + s.count .unchanged + s.count .pending + s.count .missing +
      s.count .failed := by
  induction s using Multiset.induction_on with
  | empty => rfl
  | cons status s ih =>
      cases status <;> simp only [Multiset.card_cons, Multiset.count_cons, ih] <;> simp <;> omega

namespace RunSummary

/-- The counter for the files with a status. -/
def counter (summary : RunSummary) : FileStatus → Nat
  | .changed => summary.changed
  | .unchanged => summary.unchanged
  | .pending => summary.pending
  | .missing => summary.missing
  | .failed => summary.failed

/-- The summary of a run, from the statuses alone. -/
def ofStatuses (s : Multiset FileStatus) : RunSummary where
  total := s.card
  processed := s.count .changed + s.count .unchanged + s.count .pending
  changed := s.count .changed
  unchanged := s.count .unchanged
  pending := s.count .pending
  missing := s.count .missing
  failed := s.count .failed

theorem ofOutcomes_eq_ofStatuses (outcomes : List FileOutcome) :
    ofOutcomes outcomes = ofStatuses (statuses outcomes) := by
  have hlength : (statuses outcomes).card = outcomes.length := by simp [statuses]
  simp only [ofOutcomes, ofStatuses, count_statuses, hlength]

theorem counter_ofStatuses (s : Multiset FileStatus) (status : FileStatus) :
    (ofStatuses s).counter status = s.count status := by
  cases status <;> rfl

theorem total_ofStatuses (s : Multiset FileStatus) :
    (ofStatuses s).total =
      (ofStatuses s).processed + (ofStatuses s).missing + (ofStatuses s).failed :=
  card_eq_sum_count s

/-- Missing files are counted, and nothing else is. -/
theorem ofStatuses_add_missing (s : Multiset FileStatus) (n : Nat) :
    ofStatuses (s + Multiset.replicate n .missing) =
      { ofStatuses s with
        total := (ofStatuses s).total + n
        missing := (ofStatuses s).missing + n } := by
  simp [ofStatuses, Multiset.count_replicate]

theorem status_with_missing (summary : RunSummary) (total missing : Nat) :
    { summary with total := total, missing := missing }.status = summary.status := rfl

theorem processed_ofStatuses_eq_zero_iff {s : Multiset FileStatus} :
    (ofStatuses s).processed = 0 ↔ ∀ status ∈ s, status = .failed ∨ status = .missing := by
  simp only [ofStatuses, Nat.add_eq_zero_iff, Multiset.count_eq_zero]
  constructor
  · rintro ⟨⟨hchanged, hunchanged⟩, hpending⟩ status hstatus
    cases status with
    | changed => exact absurd hstatus hchanged
    | unchanged => exact absurd hstatus hunchanged
    | pending => exact absurd hstatus hpending
    | missing => exact Or.inr rfl
    | failed => exact Or.inl rfl
  · intro h
    refine ⟨⟨?_, ?_⟩, ?_⟩ <;> (intro hstatus; simpa using h _ hstatus)

theorem status_ofStatuses_eq_success_iff {s : Multiset FileStatus} :
    (ofStatuses s).status = .success ↔ .failed ∉ s := by
  rw [status, ← Multiset.count_eq_zero]
  split
  · next hnone => exact iff_of_true rfl hnone
  · next hsome =>
    refine iff_of_false ?_ hsome
    split <;> simp

theorem status_ofStatuses_eq_failure_iff {s : Multiset FileStatus} :
    (ofStatuses s).status = .failure ↔
      .failed ∈ s ∧ ∀ status ∈ s, status = .failed ∨ status = .missing := by
  rw [← processed_ofStatuses_eq_zero_iff, ← Multiset.count_ne_zero, status]
  split
  · next hnone => exact iff_of_false (by simp) fun h ↦ h.1 hnone
  · next hsome =>
    split
    · next hprocessed => exact iff_of_false (by simp) fun h ↦ Nat.ne_of_gt hprocessed h.2
    · next hprocessed => exact iff_of_true rfl ⟨hsome, Nat.eq_zero_of_not_pos hprocessed⟩

end RunSummary

namespace RunReport

/-- The report of a run in which these outcomes came one after the other. -/
def ofOutcomes (tool : ToolInfo) (root backupSuffix : String) (dryRun : Bool) (now : Timestamp)
    (outcomes : List FileOutcome) : RunReport :=
  outcomes.foldl push (start tool root backupSuffix dryRun now)

section OfOutcomes

variable (tool : ToolInfo) (root backupSuffix : String) (dryRun : Bool) (now : Timestamp)
  (outcomes : List FileOutcome)

theorem files_ofOutcomes :
    (ofOutcomes tool root backupSuffix dryRun now outcomes).files = outcomes :=
  files_foldl_push _ _

theorem dryRun_ofOutcomes :
    (ofOutcomes tool root backupSuffix dryRun now outcomes).dryRun = dryRun :=
  dryRun_foldl_push _ _

theorem consistent_ofOutcomes :
    (ofOutcomes tool root backupSuffix dryRun now outcomes).Consistent :=
  (consistent_start tool root backupSuffix dryRun now).foldl_push outcomes

theorem summary_ofOutcomes :
    (ofOutcomes tool root backupSuffix dryRun now outcomes).summary =
      .ofStatuses (statuses outcomes) := by
  rw [(consistent_ofOutcomes tool root backupSuffix dryRun now outcomes).summary_eq,
    files_ofOutcomes, RunSummary.ofOutcomes_eq_ofStatuses]

theorem status_ofOutcomes :
    (ofOutcomes tool root backupSuffix dryRun now outcomes).status =
      (RunSummary.ofStatuses (statuses outcomes)).status := by
  rw [(consistent_ofOutcomes tool root backupSuffix dryRun now outcomes).status_eq,
    summary_ofOutcomes]

end OfOutcomes

/-- What a report says is what can be read off these outcomes. -/
structure Projects (report : RunReport) (outcomes : List FileOutcome) : Prop where
  files_eq : report.files = outcomes
  total_eq : report.summary.total = outcomes.length
  counter_eq : ∀ status, report.summary.counter status =
    outcomes.countP fun outcome ↦ outcome.status = status
  processed_eq : report.summary.processed =
    report.summary.changed + report.summary.unchanged + report.summary.pending
  total_eq_sum : report.summary.total =
    report.summary.processed + report.summary.missing + report.summary.failed
  exitCode_one : report.exitCode = 1 ↔ ∃ outcome ∈ outcomes, outcome.status = .failed
  exitCode_two : report.exitCode = 2 ↔ (¬∃ outcome ∈ outcomes, outcome.status = .failed) ∧
    report.dryRun = true ∧ ∃ outcome ∈ outcomes, outcome.status = .pending
  exitCode_zero : report.exitCode = 0 ↔ report.exitCode ≠ 1 ∧ report.exitCode ≠ 2
  status_failure : report.status = .failure ↔ (∃ outcome ∈ outcomes, outcome.status = .failed) ∧
    ∀ outcome ∈ outcomes, outcome.status = .failed ∨ outcome.status = .missing
  status_success : report.status = .success ↔ ¬∃ outcome ∈ outcomes, outcome.status = .failed

theorem projects_ofOutcomes (tool : ToolInfo) (root backupSuffix : String) (dryRun : Bool)
    (now : Timestamp) (outcomes : List FileOutcome) :
    (ofOutcomes tool root backupSuffix dryRun now outcomes).Projects outcomes := by
  have hfiles := files_ofOutcomes tool root backupSuffix dryRun now outcomes
  have hconsistent := consistent_ofOutcomes tool root backupSuffix dryRun now outcomes
  have hsummary := summary_ofOutcomes tool root backupSuffix dryRun now outcomes
  have hstatus := status_ofOutcomes tool root backupSuffix dryRun now outcomes
  have hone := hconsistent.exitCode_eq_one_iff
  have htwo := hconsistent.exitCode_eq_two_iff
  have hzero := hconsistent.exitCode_eq_zero_iff
  rw [hfiles] at hone htwo hzero
  refine ⟨hfiles, ?_, ?_, ?_, ?_, hone, htwo, ?_, ?_, ?_⟩
  · rw [hsummary]
    simp [RunSummary.ofStatuses, statuses]
  · intro status
    rw [hsummary, RunSummary.counter_ofStatuses, count_statuses]
  · rw [hsummary]
    rfl
  · rw [hsummary]
    exact RunSummary.total_ofStatuses _
  · rw [hzero, Ne, Ne, hone, htwo]
    exact and_congr_right fun hnone ↦ not_congr (and_iff_right hnone).symm
  · rw [hstatus, RunSummary.status_ofStatuses_eq_failure_iff, mem_statuses]
    simp only [mem_statuses, forall_exists_index, and_imp, forall_apply_eq_imp_iff₂]
  · rw [hstatus, RunSummary.status_ofStatuses_eq_success_iff, mem_statuses]

/-- What is told by the statuses: the report of one run from that of another. -/
theorem ofOutcomes_eq_of_statuses {tool tool' : ToolInfo}
    {root root' backupSuffix backupSuffix' : String} {dryRun : Bool} {now now' : Timestamp}
    {outcomes others : List FileOutcome} {n : Nat}
    (h : statuses others = statuses outcomes + Multiset.replicate n .missing) :
    let report := ofOutcomes tool root backupSuffix dryRun now outcomes
    let other := ofOutcomes tool' root' backupSuffix' dryRun now' others
    other.summary =
        { report.summary with
          total := report.summary.total + n
          missing := report.summary.missing + n } ∧
      other.status = report.status ∧ other.exitCode = report.exitCode := by
  intro report other
  have hsummary : other.summary =
      { report.summary with
        total := report.summary.total + n
        missing := report.summary.missing + n } := by
    rw [summary_ofOutcomes, summary_ofOutcomes, h, RunSummary.ofStatuses_add_missing]
  have hconsistent : report.Consistent := consistent_ofOutcomes _ _ _ _ _ _
  have hconsistent' : other.Consistent := consistent_ofOutcomes _ _ _ _ _ _
  have hdryRun : other.dryRun = report.dryRun := by rw [dryRun_ofOutcomes, dryRun_ofOutcomes]
  refine ⟨hsummary, ?_, ?_⟩
  · rw [hconsistent.status_eq, hconsistent'.status_eq, hsummary, RunSummary.status_with_missing]
  · rw [hconsistent.exitCode_eq, hconsistent'.exitCode_eq, hdryRun, hsummary]

/-- Whatever the outcomes that are pushed onto a new report: its counters, its status and its exit
code are a projection of them.  They depend on nothing but how often each status occurs, and adding
missing files changes two counters only. -/
theorem report_projects_statuses (tool : ToolInfo) (root backupSuffix : String) (dryRun : Bool)
    (now : Timestamp) (outcomes : List FileOutcome) :
    let report := ofOutcomes tool root backupSuffix dryRun now outcomes
    report.Projects outcomes ∧
    ∀ (tool' : ToolInfo) (root' backupSuffix' : String) (now' : Timestamp)
        (others : List FileOutcome),
      let other := ofOutcomes tool' root' backupSuffix' dryRun now' others
      (statuses others = statuses outcomes →
        other.summary = report.summary ∧ other.status = report.status ∧
          other.exitCode = report.exitCode) ∧
      ∀ n, statuses others = statuses outcomes + Multiset.replicate n .missing →
        other.summary =
            { report.summary with
              total := report.summary.total + n
              missing := report.summary.missing + n } ∧
          other.status = report.status ∧ other.exitCode = report.exitCode := by
  intro report
  refine ⟨projects_ofOutcomes tool root backupSuffix dryRun now outcomes, ?_⟩
  intro tool' root' backupSuffix' now' others other
  constructor
  · intro h
    exact ofOutcomes_eq_of_statuses (n := 0) (by simpa using h)
  · intro n h
    exact ofOutcomes_eq_of_statuses h

/-- A check with a failed file, and the same with its outcomes in another order and two more files
that are missing. -/
theorem report_projects_statuses_of_failed_check :
    let outcomes := [FileOutcome.bare "a.h" .pending, .failed "b.h" "is not valid UTF-8"]
    let others := [FileOutcome.missing "c.h", .failed "d.h" "", .missing "c.h",
      .bare "e.h" .pending]
    let report := ofOutcomes ⟨"t", none⟩ "/r" ".backup" true ⟨2025, 1, 1, 0, 0, 0, 0⟩ outcomes
    let other := ofOutcomes ⟨"u", none⟩ "/s" "~" true ⟨2026, 1, 1, 0, 0, 0, 0⟩ others
    (statuses others = statuses outcomes + Multiset.replicate 2 .missing) ∧
      other.summary = { report.summary with total := 4, missing := 2 } ∧
      other.status = report.status ∧ other.exitCode = report.exitCode := by
  intro outcomes others report other
  have hstatuses : statuses others = statuses outcomes + Multiset.replicate 2 .missing := by
    decide
  exact ⟨hstatuses, ((report_projects_statuses _ _ _ _ _ outcomes).2 _ _ _ _ others).2 2 hstatuses⟩

end RunReport
end SymbolRename
