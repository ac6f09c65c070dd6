import SymbolRename.Proofs.Report.Summary
import SymbolRename.Proofs.Run.Repeat

/-!
# Checks and runs

A check is a run that writes nothing.  Over separate entries it foretells the run that writes: both
make the same of every entry that is not to be changed, and a file that is pending in the check is
changed by the run unless its backup cannot be written.  The exit codes follow.
-/

namespace SymbolRename

def RunSettings.checking (settings : RunSettings) : RunSettings := { settings with dryRun := true }

def RunSettings.writing (settings : RunSettings) : RunSettings := { settings with dryRun := false }

namespace Disk

variable {disk : Disk} {settings : RunSettings} {path : String} {tool : ToolInfo} {clock : Clock}

/-- The outcome is that of a file which could not be loaded. -/
def LoadFailed (disk : Disk) (settings : RunSettings) (outcome : FileOutcome) : Prop :=
  outcome.status = .failed ∧ ∃ e,
    disk.resolve settings.root settings.policy outcome.path = .failed outcome.path e ∧
      outcome.message? = some e.message

/-- The outcome is that of a file which was loaded, but whose backup could not be written. -/
def SaveFailed (disk : Disk) (settings : RunSettings) (outcome : FileOutcome) : Prop :=
  outcome.status = .failed ∧ ∃ file refusal,
    disk.resolve settings.root settings.policy outcome.path = .found file ∧
      disk.snapshot settings.backupSuffix file.namespaced =
        (.error (.io .writeBackup (settings.savedPath outcome.path) refusal), []) ∧
      outcome.message? =
        some (EditError.io .writeBackup (settings.savedPath outcome.path) refusal).message

/-- What the check says of an entry foretells what the run makes of it. -/
structure Foretells (disk : Disk) (settings : RunSettings) (checked outcome : FileOutcome) :
    Prop where
  path_eq : checked.path = outcome.path
  /-- A check finds nothing else. -/
  checked_cases : checked.status = .missing ∨ checked.status = .unchanged ∨
    disk.LoadFailed settings checked ∨ checked.status = .pending
  /-- What is not to be changed is reported alike, seen from the check and seen from the run. -/
  of_checked : checked.status = .missing ∨ checked.status = .unchanged ∨
    disk.LoadFailed settings checked → outcome = checked
  of_outcome : outcome.status = .missing ∨ outcome.status = .unchanged ∨
    disk.LoadFailed settings outcome → checked = outcome
  pending_iff : checked.status = .pending ↔
    outcome.status = .changed ∨ disk.SaveFailed settings outcome
  changed : outcome.status = .changed →
    outcome.sha256Before? = checked.sha256Before? ∧ outcome.sha256After? = checked.sha256After? ∧
      outcome.counts? = checked.counts? ∧ outcome.lossyDecode = checked.lossyDecode

/-! ## One entry -/

theorem loadFailed_of_directory {location : Location}
    (h : disk.lookup (settings.absPath path) = .ok (location, .directory)) :
    disk.LoadFailed settings (.failed path
      (EditError.io .read (settings.absPath path) ⟨.readFrom, .isDirectory⟩).message) := by
  have hresolve : disk.resolve settings.root settings.policy path =
      .failed path (.io .read (settings.absPath path) ⟨.readFrom, .isDirectory⟩) := by
    simp only [resolve_of_lookup h, load, readBytes, h]
  exact ⟨rfl, _, hresolve, rfl⟩

theorem loadFailed_of_undecodable {location : Location} {raw : Bytes} {validUpTo : Nat}
    (h : disk.lookup (settings.absPath path) = .ok (location, .file raw))
    (hdecode : decodeBytes settings.policy raw = .error validUpTo) :
    disk.LoadFailed settings
      (.failed path (EditError.decode (settings.absPath path) validUpTo).message) := by
  have hresolve : disk.resolve settings.root settings.policy path =
      .failed path (.decode (settings.absPath path) validUpTo) := by
    simp only [resolve_of_lookup h, load, readBytes_of_lookup h, decodeFile, hdecode]
  exact ⟨rfl, _, hresolve, rfl⟩

theorem LoadFailed.not_saveFailed {outcome : FileOutcome} (h : disk.LoadFailed settings outcome) :
    ¬disk.SaveFailed settings outcome := by
  obtain ⟨_, e, hfailed, _⟩ := h
  rintro ⟨_, file, _, hfound, _⟩
  cases hfailed.symm.trans hfound

theorem Loads.not_loadFailed {outcome : FileOutcome} {location : Location} {raw : Bytes}
    {decoded : Decoded} (h : disk.Loads settings path location raw decoded)
    (hpath : outcome.path = path) : ¬disk.LoadFailed settings outcome := by
  rintro ⟨_, e, hfailed, _⟩
  rw [hpath, h.resolve_eq] at hfailed
  cases hfailed

theorem foretells_self {outcome : FileOutcome}
    (h : outcome.status = .missing ∨ outcome.status = .unchanged ∨
      disk.LoadFailed settings outcome) : disk.Foretells settings outcome outcome where
  path_eq := rfl
  checked_cases := h.imp_right fun h ↦ h.imp_right Or.inl
  of_checked _ := rfl
  of_outcome _ := rfl
  pending_iff := by
    rcases h with h | h | h
    · simp [h, SaveFailed]
    · simp [h, SaveFailed]
    · simp [h.1, h.not_saveFailed]
  changed _ := ⟨rfl, rfl, rfl, rfl⟩

theorem foretells_pending {checked outcome : FileOutcome} (hpath : checked.path = outcome.path)
    (hpending : checked.status = .pending)
    (hloaded : ¬disk.LoadFailed settings outcome)
    (houtcome : outcome.status = .changed ∨ disk.SaveFailed settings outcome)
    (hchanged : outcome.status = .changed →
      outcome.sha256Before? = checked.sha256Before? ∧ outcome.sha256After? = checked.sha256After? ∧
        outcome.counts? = checked.counts? ∧ outcome.lossyDecode = checked.lossyDecode) :
    disk.Foretells settings checked outcome where
  path_eq := hpath
  checked_cases := Or.inr (Or.inr (Or.inr hpending))
  of_checked := by
    rintro (h | h | ⟨h, _⟩) <;> rw [hpending] at h <;> cases h
  of_outcome := by
    rcases houtcome with hstatus | ⟨hstatus, _⟩ <;> simp [hstatus, hloaded]
  pending_iff := iff_of_true hpending houtcome
  changed := hchanged

theorem EntryEffect.exists_foretells {outcome : FileOutcome} {mutations : List Mutation}
    (h : disk.EntryEffect settings.writing path outcome mutations) :
    ∃ checked, disk.EntryEffect settings.checking path checked [] ∧
      disk.Foretells settings checked outcome := by
  cases h with
  | missing hmissing => exact ⟨_, .missing hmissing, foretells_self (Or.inl rfl)⟩
  | directory hfound =>
      have hfailed := @loadFailed_of_directory disk settings path _ hfound
      exact ⟨_, .directory hfound, foretells_self (Or.inr (Or.inr hfailed))⟩
  | undecodable hfound hdecode =>
      have hfailed := @loadFailed_of_undecodable disk settings path _ _ _ hfound hdecode
      exact ⟨_, .undecodable hfound hdecode, foretells_self (Or.inr (Or.inr hfailed))⟩
  | unchanged hloads hsame =>
      exact ⟨_, .unchanged ⟨hloads.lookup, hloads.decode⟩ hsame,
        foretells_self (Or.inr (Or.inl rfl))⟩
  | pending _ _ hdry => cases hdry
  | @unsaved location raw decoded e hloads hdiffers _ htarget =>
      have hloads' : disk.Loads settings path location raw decoded := ⟨hloads.lookup, hloads.decode⟩
      have hunsaved := @snapshot_of_error disk settings.backupSuffix
        (SourceFile.ofDecoded path (settings.absPath path) raw decoded).namespaced e htarget
      refine ⟨_, .pending ⟨hloads.lookup, hloads.decode⟩ hdiffers rfl, ?_⟩
      apply foretells_pending
      · rfl
      · rfl
      · exact hloads'.not_loadFailed rfl
      · exact Or.inr ⟨rfl, _, _, hloads'.resolve_eq, hunsaved, rfl⟩
      · rintro ⟨⟩
  | @changed location backup raw decoded hloads hdiffers _ htarget =>
      have hloads' : disk.Loads settings path location raw decoded := ⟨hloads.lookup, hloads.decode⟩
      refine ⟨_, .pending ⟨hloads.lookup, hloads.decode⟩ hdiffers rfl, ?_⟩
      apply foretells_pending
      · rfl
      · rfl
      · exact hloads'.not_loadFailed rfl
      · exact Or.inl rfl
      · exact fun _ ↦ ⟨rfl, rfl, rfl, rfl⟩

theorem foretells_entry (disk : Disk) (settings : RunSettings) (path : String) :
    disk.entryMutations settings.checking path = [] ∧
      disk.Foretells settings (disk.entryOutcome settings.checking path)
        (disk.entryOutcome settings.writing path) := by
  obtain ⟨checked, heffect, hforetells⟩ :=
    (disk.entryEffect_self settings.writing path).exists_foretells
  obtain ⟨houtcome, hmutations⟩ := heffect.eq_self
  rw [houtcome]
  exact ⟨hmutations, hforetells⟩

theorem Foretells.changed_or_failed {checked outcome : FileOutcome}
    (h : disk.Foretells settings checked outcome) (hpending : checked.status = .pending) :
    outcome.status = .changed ∨ outcome.status = .failed :=
  (h.pending_iff.mp hpending).imp_right fun hsave ↦ hsave.1

theorem Foretells.not_changed_of_quiet {checked outcome : FileOutcome}
    (h : disk.Foretells settings checked outcome) (hpending : checked.status ≠ .pending)
    (hfailed : checked.status ≠ .failed) :
    outcome.status ≠ .changed ∧ outcome.status ≠ .failed := by
  rcases h.checked_cases with hmissing | hunchanged | hload | h
  · simp [h.of_checked (Or.inl hmissing), hmissing]
  · simp [h.of_checked (Or.inr (Or.inl hunchanged)), hunchanged]
  · exact absurd hload.1 hfailed
  · exact absurd h hpending

/-! ## Exit codes -/

theorem consistent_of_run {result : RunResult} (h : disk.run settings tool clock = .ok result) :
    result.report.Consistent ∧ result.report.dryRun = settings.dryRun := by
  rw [run] at h
  split at h
  · cases h
  · cases h
    have hstart := RunReport.consistent_start tool settings.root settings.backupSuffix
      settings.dryRun clock.start
    exact ⟨(hstart.foldl_push _).finish _, RunReport.dryRun_foldl_push _ _⟩

theorem quiet_of_check {report : RunReport} {files : List String}
    (hreport : report.files = files.map (disk.entryOutcome settings.checking))
    (hconsistent : report.Consistent) (hdry : report.dryRun = true)
    (hzero : report.exitCode = 0) (hpath : path ∈ files) :
    (disk.entryOutcome settings.writing path).status ≠ .changed ∧
      (disk.entryOutcome settings.writing path).status ≠ .failed := by
  obtain ⟨hfailed, hpending⟩ := hconsistent.exitCode_eq_zero_iff.mp hzero
  have hmem : disk.entryOutcome settings.checking path ∈ report.files :=
    hreport ▸ List.mem_map_of_mem hpath
  apply (disk.foretells_entry settings path).2.not_changed_of_quiet
  · intro h
    exact hpending ⟨hdry, _, hmem, h⟩
  · intro h
    exact hfailed ⟨_, hmem, h⟩

theorem exists_changed_or_failed_of_check {report : RunReport} {files : List String}
    (hreport : report.files = files.map (disk.entryOutcome settings.checking))
    (hconsistent : report.Consistent) (htwo : report.exitCode = 2) :
    ∃ path ∈ files, (disk.entryOutcome settings.writing path).status = .changed ∨
      (disk.entryOutcome settings.writing path).status = .failed := by
  obtain ⟨_, _, checked, hmem, hpending⟩ := hconsistent.exitCode_eq_two_iff.mp htwo
  rw [hreport] at hmem
  obtain ⟨path, hpath, rfl⟩ := List.mem_map.mp hmem
  exact ⟨path, hpath, (disk.foretells_entry settings path).2.changed_or_failed hpending⟩

theorem readBytes_ne_of_changed {files : List String} (hplain : PlainSuffix settings.backupSuffix)
    (hseparate : disk.Separate settings.root settings.backupSuffix files) (hpath : path ∈ files)
    (hstatus : (disk.entryOutcome settings path).status = .changed) :
    ∃ old new, disk.readBytes (settings.absPath path) = .ok old ∧
      (disk.afterEntries settings files).readBytes (settings.absPath path) = .ok new ∧
      new ≠ old := by
  obtain ⟨location, backup, raw, decoded, hchanges, hnew, _⟩ :=
    lookup_after_changed hplain hseparate hpath hstatus
  exact ⟨raw, _, readBytes_of_lookup hchanges.lookup, readBytes_of_lookup hnew,
    Decoded.encode_renamed_ne hchanges.decode hchanges.differs decoded⟩

/-- A check over separate entries changes nothing and foretells the run: what it finds in order is
left alone, what it finds pending is changed or cannot be saved, and its exit code tells whether the
run has anything to do. -/
theorem check_foretells_run (disk : Disk) (settings : RunSettings) (checkTool runTool : ToolInfo)
    (checkClock runClock : Clock) (hfiles : settings.files ≠ [])
    (hsuffix : settings.backupSuffix ≠ "") (hslash : '/' ∉ settings.backupSuffix.toList)
    (hseparate : disk.Separate settings.root settings.backupSuffix settings.files) :
    ∃ check result, disk.run settings.checking checkTool checkClock = .ok check ∧
      disk.run settings.writing runTool runClock = .ok result ∧
      check.mutations = [] ∧
      check.report.files.map FileOutcome.path = settings.files ∧
      List.Forall₂ (disk.Foretells settings) check.report.files result.report.files ∧
      (check.report.exitCode = 0 →
        result.report.exitCode = 0 ∧ disk.applyAll result.mutations = disk) ∧
      (check.report.exitCode = 2 → result.report.exitCode = 1 ∨
        ∃ path ∈ settings.files, ∃ old new,
          disk.readBytes (settings.absPath path) = .ok old ∧
            (disk.applyAll result.mutations).readBytes (settings.absPath path) = .ok new ∧
            new ≠ old) := by
  have hplain : PlainSuffix settings.backupSuffix := ⟨hsuffix, hslash⟩
  obtain ⟨check, hcheck, hchecked, hquiet⟩ :=
    @run_of_separate disk settings.checking checkTool checkClock hfiles hplain hseparate
  obtain ⟨result, hrun, hreport, hmutations⟩ :=
    @run_of_separate disk settings.writing runTool runClock hfiles hplain hseparate
  obtain ⟨hcheckConsistent, hdry⟩ := consistent_of_run hcheck
  obtain ⟨hrunConsistent, hwrite⟩ := consistent_of_run hrun
  refine ⟨check, result, hcheck, hrun, ?_, ?_, ?_, ?_, ?_⟩
  · rw [hquiet, List.flatMap_eq_nil_iff]
    exact fun path _ ↦ (disk.foretells_entry settings path).1
  · rw [hchecked, List.map_map]
    refine (List.map_congr_left fun path _ ↦ ?_).trans (List.map_id _)
    exact (disk.entryEffect_self settings.checking path).path_eq
  · rw [hchecked, hreport, List.forall₂_map_left_iff, List.forall₂_map_right_iff]
    exact List.forall₂_same.mpr fun path _ ↦ (disk.foretells_entry settings path).2
  · intro hzero
    have hstatus := fun path hpath ↦
      @quiet_of_check disk settings path _ _ hchecked hcheckConsistent hdry hzero hpath
    have hnone : result.mutations = [] := by
      rw [hmutations, List.flatMap_eq_nil_iff]
      intro path hpath
      exact (disk.entryEffect_self settings.writing path).mutations_eq_nil (hstatus path hpath).1
    rw [hnone, applyAll_nil]
    refine ⟨hrunConsistent.exitCode_eq_zero_iff.mpr ⟨?_, ?_⟩, rfl⟩
    · rintro ⟨outcome, houtcome, hfailed⟩
      rw [hreport] at houtcome
      obtain ⟨path, hpath, rfl⟩ := List.mem_map.mp houtcome
      exact (hstatus path hpath).2 hfailed
    · rintro ⟨h, _⟩
      cases h.symm.trans hwrite
  · intro htwo
    obtain ⟨path, hpath, hchanged | hfailed⟩ :=
      exists_changed_or_failed_of_check hchecked hcheckConsistent htwo
    · right
      have hbytes :=
        @readBytes_ne_of_changed disk settings.writing path _ hplain hseparate hpath hchanged
      rw [hmutations]
      exact ⟨path, hpath, hbytes⟩
    · left
      apply hrunConsistent.exitCode_eq_one_iff.mpr
      exact ⟨_, hreport ▸ List.mem_map_of_mem hpath, hfailed⟩

theorem check_foretells_run_on_mixedDisk :
    ∃ check result, mixedDisk.run mixedSettings.checking ⟨"nsprefix", none⟩
        ⟨⟨2024, 5, 1, 12, 0, 0, 0⟩, ⟨2024, 5, 1, 12, 0, 1, 0⟩⟩ = .ok check ∧
      mixedDisk.run mixedSettings.writing ⟨"nsprefix", none⟩
        ⟨⟨2024, 5, 2, 12, 0, 0, 0⟩, ⟨2024, 5, 2, 12, 0, 1, 0⟩⟩ = .ok result ∧
      List.Forall₂ (mixedDisk.Foretells mixedSettings) check.report.files result.report.files := by
  obtain ⟨check, result, hcheck, hrun, _, _, hforetells, _⟩ := check_foretells_run mixedDisk
    mixedSettings ⟨"nsprefix", none⟩ ⟨"nsprefix", none⟩
    ⟨⟨2024, 5, 1, 12, 0, 0, 0⟩, ⟨2024, 5, 1, 12, 0, 1, 0⟩⟩
    ⟨⟨2024, 5, 2, 12, 0, 0, 0⟩, ⟨2024, 5, 2, 12, 0, 1, 0⟩⟩ (by decide) (by decide) (by decide)
    (by decide +kernel)
  exact ⟨check, result, hcheck, hrun, hforetells⟩

end Disk
end SymbolRename
