import SymbolRename.Proofs.Run.Check

/-!
# The order of the entries

A run over separate entries makes of each of them what it would make of it alone, and it makes its
mutations at different places.  So the order of the list matters to nothing but the order of the
report: the disk after the run, the outcomes, the summary and the exit code are the same.
-/

namespace SymbolRename

/-- A list in another order, which names the places of its members one after the other. -/
def arranged {α : Type} (order : List Nat) (entries : List α) : List α :=
  order.filterMap fun i ↦ entries[i]?

section Arranged

variable {α β : Type} {order : List Nat} {entries : List α}

theorem arranged_range (entries : List α) :
    arranged (List.range entries.length) entries = entries := by
  induction entries with
  | nil => rfl
  | cons entry entries ih =>
      rw [arranged, List.length_cons, List.range_succ_eq_map, List.filterMap_cons,
        List.filterMap_map]
      exact congrArg (entry :: ·) ih

theorem arranged_map (f : α → β) (order : List Nat) (entries : List α) :
    arranged order (entries.map f) = (arranged order entries).map f := by
  simp only [arranged, List.map_filterMap, List.getElem?_map]

theorem arranged_perm (h : order.Perm (List.range entries.length)) :
    (arranged order entries).Perm entries := by
  have hperm := h.filterMap fun i ↦ entries[i]?
  rwa [← arranged, ← arranged, arranged_range] at hperm

end Arranged

def RunSettings.inOrder (settings : RunSettings) (order : List Nat) : RunSettings :=
  { settings with files := arranged order settings.files }

theorem RunReport.Consistent.eq_of_perm {report other : RunReport} (h : report.Consistent)
    (h' : other.Consistent) (hdry : other.dryRun = report.dryRun)
    (hfiles : other.files.Perm report.files) :
    other.summary = report.summary ∧ other.status = report.status ∧
      other.exitCode = report.exitCode := by
  have hsummary : other.summary = report.summary := by
    rw [h.summary_eq, h'.summary_eq, RunSummary.ofOutcomes_eq_of_perm hfiles]
  refine ⟨hsummary, ?_, ?_⟩
  · rw [h.status_eq, h'.status_eq, hsummary]
  · rw [h.exitCode_eq, h'.exitCode_eq, hsummary, hdry]

namespace Disk

variable {disk : Disk} {settings : RunSettings} {order : List Nat} {files others : List String}

theorem Separate.of_perm {root suffix : String} (h : disk.Separate root suffix files)
    (hperm : others.Perm files) : disk.Separate root suffix others :=
  (hperm.pairwise_iff fun hapart ↦ hapart.symm).mpr h

/-- The mutations of the entries lead to the same disk in any order. -/
theorem afterEntries_eq_of_perm (hplain : PlainSuffix settings.backupSuffix)
    (hseparate : disk.Separate settings.root settings.backupSuffix files)
    (hperm : others.Perm files) :
    disk.afterEntries settings others = disk.afterEntries settings files := by
  have hmutations := hperm.flatMap_right (disk.entryMutations settings)
  have hnodup :=
    (ownMutations_entryMutations hplain).nodup_location hplain (hseparate.of_perm hperm)
  rw [afterEntries, afterEntries, applyAll, applyAll,
    FileTree.applyAll_eq_of_perm hmutations hnodup]

/-- Runs over the same separate entries in different orders leave the same disk, and their reports
differ in the order of the outcomes only. -/
theorem run_in_any_order (disk : Disk) (settings : RunSettings) (tool otherTool : ToolInfo)
    (clock otherClock : Clock) (order : List Nat) (hfiles : settings.files ≠ [])
    (hsuffix : settings.backupSuffix ≠ "") (hslash : '/' ∉ settings.backupSuffix.toList)
    (hseparate : disk.Separate settings.root settings.backupSuffix settings.files)
    (horder : order.Perm (List.range settings.files.length)) :
    ∃ result other, disk.run settings tool clock = .ok result ∧
      disk.run (settings.inOrder order) otherTool otherClock = .ok other ∧
      disk.applyAll other.mutations = disk.applyAll result.mutations ∧
      result.report.files.map FileOutcome.path = settings.files ∧
      other.report.files = arranged order result.report.files ∧
      other.report.summary = result.report.summary ∧
      other.report.status = result.report.status ∧
      other.report.exitCode = result.report.exitCode := by
  have hplain : PlainSuffix settings.backupSuffix := ⟨hsuffix, hslash⟩
  have hperm : (settings.inOrder order).files.Perm settings.files := arranged_perm horder
  have hfiles' : (settings.inOrder order).files ≠ [] := by
    intro hempty
    rw [hempty] at hperm
    exact hfiles hperm.nil_eq.symm
  obtain ⟨result, hrun, hreport, hafter⟩ :=
    @exists_run_of_separate disk settings tool clock hfiles hplain hseparate
  obtain ⟨other, hother, hreport', hafter'⟩ :=
    @exists_run_of_separate disk (settings.inOrder order) otherTool otherClock hfiles' hplain
      (hseparate.of_perm hperm)
  -- what is made of an entry does not depend on the list that it stands in
  have houtcomes : disk.entryOutcome (settings.inOrder order) = disk.entryOutcome settings := rfl
  have harranged : other.report.files = arranged order result.report.files := by
    rw [hreport', hreport, arranged_map, houtcomes]
    rfl
  obtain ⟨hconsistent, hdry⟩ := consistent_of_run hrun
  obtain ⟨hconsistent', hdry'⟩ := consistent_of_run hother
  refine ⟨result, other, hrun, hother, ?_, ?_, harranged, ?_⟩
  · rw [hafter, hafter']
    exact afterEntries_eq_of_perm hplain hseparate hperm
  · rw [hreport, map_path_entryOutcome]
  · apply hconsistent.eq_of_perm hconsistent' (hdry'.trans hdry.symm)
    rw [hreport, hreport', houtcomes]
    exact hperm.map _

theorem run_in_any_order_on_mixedDisk :
    ∃ result other, mixedDisk.run mixedSettings ⟨"nsprefix", none⟩
        ⟨⟨2024, 5, 1, 12, 0, 0, 0⟩, ⟨2024, 5, 1, 12, 0, 1, 0⟩⟩ = .ok result ∧
      mixedDisk.run { mixedSettings with files := ["c.h", "e.h", "a.h", "d/b.h", "d"] }
        ⟨"nsprefix", none⟩ ⟨⟨2024, 5, 2, 12, 0, 0, 0⟩, ⟨2024, 5, 2, 12, 0, 1, 0⟩⟩ = .ok other ∧
      mixedDisk.applyAll other.mutations = mixedDisk.applyAll result.mutations ∧
      other.report.files = arranged [3, 4, 0, 2, 1] result.report.files := by
  obtain ⟨result, other, hrun, hother, hafter, _, hreport, _⟩ := run_in_any_order mixedDisk
    mixedSettings ⟨"nsprefix", none⟩ ⟨"nsprefix", none⟩
    ⟨⟨2024, 5, 1, 12, 0, 0, 0⟩, ⟨2024, 5, 1, 12, 0, 1, 0⟩⟩
    ⟨⟨2024, 5, 2, 12, 0, 0, 0⟩, ⟨2024, 5, 2, 12, 0, 1, 0⟩⟩ [3, 4, 0, 2, 1] (by decide) (by decide)
    (by decide) (by decide +kernel) (by decide)
  exact ⟨result, other, hrun, hother, hafter, hreport⟩

end Disk
end SymbolRename
