import SymbolRename.Proofs.Run.Effect
import SymbolRename.Proofs.Run.Renamed

/-!
# Runs one after the other

A run over separate entries leaves every file in a state that a further run does not change: a file
that was changed holds a text with nothing left to rename, and an entry that was not changed is as
it was before.  So any number of runs leaves the disk that the first one leaves.
-/

namespace SymbolRename

namespace Disk

/-- Runs one after the other with the same settings, each with the tool and the clock it is called
with.  The result is the report of every run and the disk after the last one. -/
def runs (disk : Disk) (settings : RunSettings) :
    List (ToolInfo × Clock) → Except SetupError (List RunReport × Disk)
  | [] => .ok ([], disk)
  | (tool, clock) :: calls => do
    let result ← disk.run settings tool clock
    let (reports, last) ← (disk.applyAll result.mutations).runs settings calls
    .ok (result.report :: reports, last)

variable {disk : Disk} {settings : RunSettings} {path : String} {files : List String}

section After

variable (hplain : PlainSuffix settings.backupSuffix)
  (hseparate : disk.Separate settings.root settings.backupSuffix files) (hpath : path ∈ files)

include hplain hseparate hpath

/-! ## Entries that a run leaves alone -/

theorem agreesAt_afterEntries
    (hstatus : (disk.entryOutcome settings path).status ≠ .changed) :
    disk.AgreesAt (disk.afterEntries settings files) (settings.absPath path) :=
  (ownMutations_entryMutations hplain).agreesAt_applyAll
    (fun other ↦ (disk.entryEffect_self settings other).fileMutation) hseparate hpath
    ((disk.entryEffect_self settings path).mutations_eq_nil hstatus)

theorem sameFileAt_afterEntries
    (hstatus : (disk.entryOutcome settings path).status ≠ .changed) :
    disk.SameFileAt (disk.afterEntries settings files) (settings.savedPath path) :=
  (ownMutations_entryMutations hplain).sameFileAt_applyAll
    (fun other ↦ (disk.entryEffect_self settings other).fileMutation) hseparate hpath
    ((disk.entryEffect_self settings path).mutations_eq_nil hstatus) hplain

/-! ## Further runs -/

/-- After a run there is nothing left to do for an entry. -/
theorem entryMutations_afterEntries :
    (disk.afterEntries settings files).entryMutations settings path = [] := by
  have h := disk.entryEffect_self settings path
  by_cases hstatus : (disk.entryOutcome settings path).status = .changed
  · obtain ⟨location, backup, raw, decoded, _, hlookup, _⟩ :=
      lookup_after_changed hplain hseparate hpath hstatus
    obtain ⟨outcome, heffect, _⟩ := entryEffect_of_renamed hlookup
    exact heffect.eq_self.2
  · have hagrees := agreesAt_afterEntries hplain hseparate hpath hstatus
    rw [(h.of_agrees hplain hagrees).eq_self.2, h.mutations_eq_nil hstatus]

end After

theorem run_afterEntries {tool : ToolInfo} {clock : Clock} (hfiles : settings.files ≠ [])
    (hplain : PlainSuffix settings.backupSuffix)
    (hseparate : disk.Separate settings.root settings.backupSuffix settings.files) :
    ∃ result, (disk.afterEntries settings settings.files).run settings tool clock = .ok result ∧
      (disk.afterEntries settings settings.files).applyAll result.mutations =
        disk.afterEntries settings settings.files := by
  have hsame := disk.sameDirectories_afterEntries settings settings.files
  obtain ⟨result, hrun, _, hafter⟩ :=
    @exists_run_of_separate (disk.afterEntries settings settings.files) settings tool clock hfiles
      hplain (hseparate.same hsame)
  refine ⟨result, hrun, hafter.trans ?_⟩
  have hnone : settings.files.flatMap
      ((disk.afterEntries settings settings.files).entryMutations settings) = [] := by
    rw [List.flatMap_eq_nil_iff]
    exact fun path hpath ↦ entryMutations_afterEntries hplain hseparate hpath
  rw [afterEntries, hnone, applyAll_nil]

theorem runs_afterEntries (hfiles : settings.files ≠ [])
    (hplain : PlainSuffix settings.backupSuffix)
    (hseparate : disk.Separate settings.root settings.backupSuffix settings.files)
    (calls : List (ToolInfo × Clock)) :
    ∃ reports, (disk.afterEntries settings settings.files).runs settings calls =
      .ok (reports, disk.afterEntries settings settings.files) := by
  induction calls with
  | nil => exact ⟨[], rfl⟩
  | cons call calls ih =>
      obtain ⟨tool, clock⟩ := call
      obtain ⟨result, hrun, hafter⟩ :=
        @run_afterEntries disk settings tool clock hfiles hplain hseparate
      obtain ⟨reports, hreports⟩ := ih
      refine ⟨result.report :: reports, ?_⟩
      simp only [runs, hrun, bind, Except.bind, hafter, hreports]

/-- However many runs there are, the first one does all the work. -/
theorem runs_of_separate (hfiles : settings.files ≠ [])
    (hplain : PlainSuffix settings.backupSuffix)
    (hseparate : disk.Separate settings.root settings.backupSuffix settings.files)
    (first : ToolInfo × Clock) (more : List (ToolInfo × Clock)) :
    ∃ report reports, disk.runs settings (first :: more) =
        .ok (report :: reports, disk.afterEntries settings settings.files) ∧
      report.files = settings.files.map (disk.entryOutcome settings) := by
  obtain ⟨tool, clock⟩ := first
  obtain ⟨result, hrun, hreport, hafter⟩ :=
    @exists_run_of_separate disk settings tool clock hfiles hplain hseparate
  obtain ⟨reports, hreports⟩ := runs_afterEntries hfiles hplain hseparate more
  refine ⟨result.report, reports, ?_, hreport⟩
  simp only [runs, hrun, bind, Except.bind, hafter, hreports]

end Disk
end SymbolRename
