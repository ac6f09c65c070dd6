import SymbolRename.Proofs.Restore.Effect
import SymbolRename.Proofs.Run.Repeat

/-!
# Runs can be taken back

After any number of runs over separate entries the bytes of the changed files stand in their
backups, and nothing else has a backup.  A restore puts these bytes back: where the backups are
removed, the disk is what it was before the first run.
-/

namespace SymbolRename

/-- The restore that belongs to a run. -/
def RunSettings.restoring (settings : RunSettings) (remove : Bool) : RestoreSettings :=
  ⟨settings.root, settings.files, settings.backupSuffix, remove⟩

theorem RestoreReport.exitCode_eq_zero {report : RestoreReport}
    (h : ∀ outcome ∈ report.files, outcome.status ≠ .failed) : report.exitCode = 0 := by
  have hfailed : report.failed = 0 := by
    rw [failed, List.countP_eq_zero]
    intro outcome houtcome
    simpa using h outcome houtcome
  rw [exitCode, hfailed]
  rfl

namespace Disk

variable {disk : Disk} {settings : RunSettings} {path : String}

/-! ## The restore -/

/-- What the restore makes of the entries on their own, on the disk that the runs leave. -/
def restoreMutations (disk : Disk) (settings : RunSettings) (remove : Bool) (path : String) :
    List Mutation :=
  ((disk.afterEntries settings settings.files).restoreEntry (settings.restoring remove) path).2

/-- The disk after the restore. -/
def afterRestore (disk : Disk) (settings : RunSettings) (remove : Bool) : Disk :=
  (disk.afterEntries settings settings.files).applyAll
    (settings.files.flatMap (disk.restoreMutations settings remove))

theorem sameDirectories_afterRestore (disk : Disk) (settings : RunSettings) (remove : Bool) :
    disk.SameDirectories (disk.afterRestore settings remove) := by
  have hsame := disk.sameDirectories_afterEntries settings settings.files
  exact hsame.trans (sameDirectories_afterRestoring _ (settings.restoring remove))

section Restored

variable (hplain : PlainSuffix settings.backupSuffix)
  (hseparate : disk.Separate settings.root settings.backupSuffix settings.files)
  (hpath : path ∈ settings.files)

include hplain hseparate hpath

theorem restoreEntry_of_changed (remove : Bool)
    (hstatus : (disk.entryOutcome settings path).status = .changed) :
    ((disk.afterEntries settings settings.files).restoreEntry (settings.restoring remove) path).1 =
      ⟨path, settings.savedPath path, .restored, none, remove⟩ := by
  obtain ⟨location, backup, raw, decoded, _, hnew, hsaved⟩ :=
    lookup_after_changed hplain hseparate hpath hstatus
  have heffect : (disk.afterEntries settings settings.files).RestoreEffect
      (settings.restoring remove) path _ _ := .restored hsaved (writeTarget_of_lookup hnew)
  rw [heffect.restoreEntry_eq]
  rfl

theorem restoreEntry_of_not_changed (remove : Bool)
    (hfresh : disk.pathExists (settings.savedPath path) = false)
    (hstatus : (disk.entryOutcome settings path).status ≠ .changed) :
    (disk.afterEntries settings settings.files).restoreEntry (settings.restoring remove) path =
      (⟨path, settings.savedPath path, .noBackup, none, false⟩, []) := by
  have hnone : disk.isFile (settings.savedPath path) = false := by
    rw [Bool.eq_false_iff, Ne, isFile_eq_true_iff]
    rintro ⟨location, bytes, hfound⟩
    simp [pathExists_of_lookup hfound] at hfresh
  have hsame := sameFileAt_afterEntries hplain hseparate hpath hstatus
  have heffect : (disk.afterEntries settings settings.files).RestoreEffect
      (settings.restoring remove) path _ _ := .noBackup (hsame.isFile_eq.trans hnone)
  exact heffect.restoreEntry_eq

theorem restoreEntry_status (remove : Bool)
    (hfresh : disk.pathExists (settings.savedPath path) = false) :
    ((disk.afterEntries settings settings.files).restoreEntry
        (settings.restoring remove) path).1.path = path ∧
      ((disk.afterEntries settings settings.files).restoreEntry
          (settings.restoring remove) path).1.status =
        if (disk.entryOutcome settings path).status = .changed then .restored else .noBackup := by
  by_cases hstatus : (disk.entryOutcome settings path).status = .changed
  · rw [restoreEntry_of_changed hplain hseparate hpath remove hstatus, if_pos hstatus]
    exact ⟨rfl, rfl⟩
  · rw [restoreEntry_of_not_changed hplain hseparate hpath remove hfresh hstatus, if_neg hstatus]
    exact ⟨rfl, rfl⟩

end Restored

/-- A path that leads nowhere, but can be written, has nothing in its place. -/
theorem node?_eq_none_of_writeTarget {location : Location}
    (hfresh : disk.pathExists path = false) (htarget : disk.writeTarget path = .ok location) :
    disk.tree.node? location = none := by
  obtain ⟨directory, name, hnames, rfl, _⟩ := writeTarget_eq_ok_iff.mp htarget
  cases hnode : disk.tree.node? (directory ++ [name]) with
  | none => rfl
  | some node =>
      have hfound := hnames.lookup_eq
      rw [hnode] at hfound
      simp [pathExists_of_lookup hfound] at hfresh

section Final

variable {remove : Bool} {location : Location} (hplain : PlainSuffix settings.backupSuffix)
  (hseparate : disk.Separate settings.root settings.backupSuffix settings.files)

include hplain

theorem ownMutations_restoreMutations : disk.OwnMutations settings.root settings.backupSuffix
    (disk.restoreMutations settings remove) where
  owns path mutation hmutation := by
    have hsame := disk.sameDirectories_afterEntries settings settings.files
    have hown := @ownMutations_restoreEntry (disk.afterEntries settings settings.files)
      (settings.restoring remove) hplain
    exact (hown.owns path mutation hmutation).same hsame.symm
  pairwise := (@ownMutations_restoreEntry (disk.afterEntries settings settings.files)
    (settings.restoring remove) hplain).pairwise

include hseparate

/-- What a restored entry leaves in the places that it owns. -/
theorem node?_afterRestore_of_changed (hpath : path ∈ settings.files)
    (hstatus : (disk.entryOutcome settings path).status = .changed) :
    ∃ location backup raw decoded, disk.Loads settings path location raw decoded ∧
      disk.writeTarget (settings.savedPath path) = .ok backup ∧
      (disk.afterRestore settings remove).tree.node? location = some (.file raw) ∧
      (disk.afterRestore settings remove).tree.node? backup =
        if remove then none else some (.file raw) := by
  obtain ⟨location, backup, raw, decoded, hchanges, hnew, hsaved⟩ :=
    lookup_after_changed hplain hseparate hpath hstatus
  have hsame := disk.sameDirectories_afterEntries settings settings.files
  have hrestores : (disk.afterEntries settings settings.files).Restores
      (settings.restoring remove) path location backup raw := ⟨hsaved, writeTarget_of_lookup hnew⟩
  obtain ⟨hfile, hbackup⟩ := node?_of_restores hplain (hseparate.same hsame) hpath hrestores
  exact ⟨location, backup, raw, decoded, hchanges.toLoads, hchanges.target, hfile, hbackup⟩

variable (hfresh : ∀ path ∈ settings.files, disk.pathExists (settings.savedPath path) = false)

include hfresh

theorem changed_of_mem_restoreMutations (hpath : path ∈ settings.files) {mutation : Mutation}
    (hmutation : mutation ∈ disk.restoreMutations settings remove path) :
    (disk.entryOutcome settings path).status = .changed := by
  by_contra hstatus
  have hentry := restoreEntry_of_not_changed hplain hseparate hpath remove (hfresh path hpath)
    hstatus
  rw [restoreMutations, hentry] at hmutation
  cases hmutation

/-- Every place is as before the runs, unless it holds a backup that is kept. -/
theorem node?_afterRestore
    (h : remove = true ∨ ∀ path ∈ settings.files,
      (disk.entryOutcome settings path).status = .changed →
        disk.place? (settings.savedPath path) ≠ some location) :
    (disk.afterRestore settings remove).tree.node? location = disk.tree.node? location := by
  by_cases howned : ∃ path ∈ settings.files,
      (disk.entryOutcome settings path).status = .changed ∧
        disk.Owns settings.backupSuffix (settings.absPath path) location
  · obtain ⟨path, hpath, hstatus, howns⟩ := howned
    obtain ⟨there, backup, raw, decoded, hloads, htarget, hnode, hbackup⟩ :=
      @node?_afterRestore_of_changed disk settings path remove hplain hseparate hpath hstatus
    rcases howns.place?_eq with hplace | hplace
    · cases hplace.symm.trans (place?_of_lookup hloads.lookup)
      obtain ⟨_, _, _, _, hbefore⟩ := lookup_eq_file_iff.mp hloads.lookup
      rw [hnode, hbefore]
    · rcases h with rfl | hkept
      · cases hplace.symm.trans (place?_of_writeTarget htarget)
        rw [hbackup, if_pos rfl, node?_eq_none_of_writeTarget (hfresh path hpath) htarget]
      · exact absurd hplace (hkept path hpath hstatus)
  · have hother : ∀ path ∈ settings.files,
        (disk.entryOutcome settings path).status = .changed →
          ¬disk.Owns settings.backupSuffix (settings.absPath path) location :=
      fun path hpath hstatus howns ↦ howned ⟨path, hpath, hstatus, howns⟩
    rw [← node?_afterEntries hplain hother]
    apply FileTree.node?_applyAll_of_notMem
    intro hmem
    obtain ⟨mutation, hmutation, rfl⟩ := List.mem_map.mp hmem
    obtain ⟨path, hpath, hmutation⟩ := List.mem_flatMap.mp hmutation
    have hstatus := changed_of_mem_restoreMutations hplain hseparate hfresh hpath hmutation
    exact hother path hpath hstatus
      ((ownMutations_restoreMutations hplain).owns path mutation hmutation)

/-- With the backups removed nothing is left of the runs. -/
theorem afterRestore_eq_self : disk.afterRestore settings true = disk := by
  have happend : disk.afterRestore settings true =
      disk.applyAll (settings.files.flatMap (disk.entryMutations settings) ++
        settings.files.flatMap (disk.restoreMutations settings true)) := by
    rw [applyAll_append]
    rfl
  have hnodes : ∀ location, (disk.afterRestore settings true).tree.node? location =
      disk.tree.node? location := fun location ↦
    node?_afterRestore hplain hseparate hfresh (Or.inl rfl)
  rw [happend] at hnodes ⊢
  have htree := FileTree.applyAll_eq_self ?_ hnodes
  · rw [applyAll, htree]
  · intro mutation hmutation
    rcases List.mem_append.mp hmutation with hmutation | hmutation
    · exact (fileMutation_of_mem_flatMap hmutation).location_ne_nil
    · obtain ⟨path, _, hmutation⟩ := List.mem_flatMap.mp hmutation
      exact ((ownMutations_restoreMutations hplain).owns path mutation hmutation).ne_nil

end Final

/-! ## Reversal -/

/-- A restore that takes a run back: its report names the files that the run changed, and nothing is
left of the run on the disk but the backups, if these are kept. -/
structure Reverses (disk final : Disk) (settings : RunSettings) (remove : Bool)
    (report : RunReport) (restored : RestoreReport) : Prop where
  paths : report.files.map FileOutcome.path = settings.files
  statuses : List.Forall₂
    (fun outcome back ↦ back.path = outcome.path ∧
      back.status = if outcome.status = .changed then .restored else .noBackup)
    report.files restored.files
  exitCode : restored.exitCode = 0
  removed : remove = true → final = disk
  kept : remove = false → ∀ outcome ∈ report.files, outcome.status = .changed →
    ∃ raw, disk.readBytes (settings.absPath outcome.path) = .ok raw ∧
      final.readBytes (settings.savedPath outcome.path) = .ok raw
  elsewhere : ∀ location, (∀ outcome ∈ report.files, outcome.status = .changed →
      disk.place? (settings.savedPath outcome.path) ≠ some location) →
    final.tree.node? location = disk.tree.node? location

section Reversal

variable (hplain : PlainSuffix settings.backupSuffix)
  (hseparate : disk.Separate settings.root settings.backupSuffix settings.files)

include hplain hseparate

theorem restore_afterEntries {remove : Bool} {tool : ToolInfo} (hfiles : settings.files ≠ []) :
    ∃ restored made, (disk.afterEntries settings settings.files).restore
        (settings.restoring remove) tool = .ok (restored, made) ∧
      restored.files = (settings.files.map fun path ↦
        ((disk.afterEntries settings settings.files).restoreEntry
          (settings.restoring remove) path).1) ∧
      (disk.afterEntries settings settings.files).applyAll made =
        disk.afterRestore settings remove := by
  have hsame := disk.sameDirectories_afterEntries settings settings.files
  obtain ⟨restored, made, hrestore, hrestored, rfl⟩ :=
    @restore_of_separate (disk.afterEntries settings settings.files) (settings.restoring remove)
      hplain (hseparate.same hsame) tool hfiles
  exact ⟨restored, _, hrestore, hrestored, rfl⟩

theorem reverses_afterRestore {remove : Bool} {report : RunReport} {restored : RestoreReport}
    (hfresh : ∀ path ∈ settings.files, disk.pathExists (settings.savedPath path) = false)
    (hreport : report.files = settings.files.map (disk.entryOutcome settings))
    (hrestored : restored.files = settings.files.map fun path ↦
      ((disk.afterEntries settings settings.files).restoreEntry
        (settings.restoring remove) path).1) :
    disk.Reverses (disk.afterRestore settings remove) settings remove report restored := by
  have hpath_eq (path : String) : (disk.entryOutcome settings path).path = path :=
    (disk.entryEffect_self settings path).path_eq
  have hstatus := fun path hpath ↦
    restoreEntry_status hplain hseparate hpath remove (hfresh path hpath)
  refine ⟨?_, ?_, ?_, ?_, ?_, ?_⟩
  · rw [hreport, map_path_entryOutcome]
  · rw [hreport, hrestored, List.forall₂_map_left_iff, List.forall₂_map_right_iff,
      List.forall₂_same]
    intro path hpath
    rw [hpath_eq]
    exact hstatus path hpath
  · apply RestoreReport.exitCode_eq_zero
    intro outcome houtcome
    rw [hrestored] at houtcome
    obtain ⟨path, hpath, rfl⟩ := List.mem_map.mp houtcome
    rw [(hstatus path hpath).2]
    split <;> simp
  · rintro rfl
    exact afterRestore_eq_self hplain hseparate hfresh
  · rintro rfl outcome houtcome hchanged
    rw [hreport] at houtcome
    obtain ⟨path, hpath, rfl⟩ := List.mem_map.mp houtcome
    obtain ⟨location, backup, raw, decoded, hloads, htarget, _, hbackup⟩ :=
      @node?_afterRestore_of_changed disk settings path false hplain hseparate hpath hchanged
    have hsame := disk.sameDirectories_afterRestore settings false
    rw [hpath_eq]
    exact ⟨raw, readBytes_of_lookup hloads.lookup,
      readBytes_of_lookup (lookup_of_same hsame htarget hbackup)⟩
  · intro location helsewhere
    refine node?_afterRestore hplain hseparate hfresh (Or.inr fun path hpath hchanged ↦ ?_)
    have hmem : disk.entryOutcome settings path ∈ report.files :=
      hreport ▸ List.mem_map_of_mem hpath
    have hplace := helsewhere _ hmem hchanged
    rwa [hpath_eq] at hplace

end Reversal

/-- Any number of runs with the same settings, over separate entries without backups, is taken back
by one restore.  An empty list of files is refused by both. -/
theorem runs_reversed_by_restore (disk : Disk) (settings : RunSettings)
    (first : ToolInfo × Clock) (more : List (ToolInfo × Clock)) (remove : Bool) (tool : ToolInfo)
    (hsuffix : settings.backupSuffix ≠ "") (hslash : '/' ∉ settings.backupSuffix.toList)
    (hseparate : disk.Separate settings.root settings.backupSuffix settings.files)
    (hfresh : ∀ path ∈ settings.files, disk.pathExists (settings.savedPath path) = false) :
    (settings.files = [] → disk.runs settings (first :: more) = .error .emptyFileSet ∧
      disk.restore (settings.restoring remove) tool = .error .emptyFileSet) ∧
    (settings.files ≠ [] → ∃ report reports last restored made,
      disk.runs settings (first :: more) = .ok (report :: reports, last) ∧
        last.restore (settings.restoring remove) tool = .ok (restored, made) ∧
        disk.Reverses (last.applyAll made) settings remove report restored) := by
  have hplain : PlainSuffix settings.backupSuffix := ⟨hsuffix, hslash⟩
  constructor
  · intro hempty
    have hsetup : checkSetup settings.files settings.backupSuffix = .error .emptyFileSet := by
      rw [checkSetup, if_pos hempty]
    constructor
    · simp only [runs, run, hsetup, bind, Except.bind]
    · unfold restore
      rw [RunSettings.restoring, hsetup]
  · intro hfiles
    obtain ⟨report, reports, hruns, hreport⟩ :=
      runs_of_separate hfiles hplain hseparate first more
    obtain ⟨restored, made, hrestore, hrestored, hafter⟩ :=
      @restore_afterEntries disk settings hplain hseparate remove tool hfiles
    refine ⟨report, reports, _, restored, made, hruns, hrestore, ?_⟩
    rw [hafter]
    exact reverses_afterRestore hplain hseparate hfresh hreport hrestored

/-- A disk with a file to change, a file that is no text and a directory. -/
def headerDisk : Disk :=
  ⟨FileTree.empty.applyAll
    [.write ["a.h"] (Utf8.encode "ma_x".toList), .makeDirectory ["d"],
      .write ["d", "b.h"] [0x6D, 0x61, 0x5F, 0xFF]], []⟩

def headerSettings : RunSettings :=
  ⟨".", ["a.h", "d", "d/b.h", "e.h"], .lenient, ".backup", false⟩

theorem runs_reversed_on_headerDisk :
    ∃ report reports last restored made,
      headerDisk.runs headerSettings
          [(⟨"nsprefix", none⟩, ⟨⟨2024, 5, 1, 12, 0, 0, 0⟩, ⟨2024, 5, 1, 12, 0, 1, 0⟩⟩),
            (⟨"nsprefix", none⟩, ⟨⟨2024, 5, 2, 12, 0, 0, 0⟩, ⟨2024, 5, 2, 12, 0, 1, 0⟩⟩)] =
        .ok (report :: reports, last) ∧
      last.restore (headerSettings.restoring true) ⟨"nsprefix", none⟩ = .ok (restored, made) ∧
      last.applyAll made = headerDisk := by
  obtain ⟨_, hreversed⟩ := runs_reversed_by_restore headerDisk headerSettings
    (⟨"nsprefix", none⟩, ⟨⟨2024, 5, 1, 12, 0, 0, 0⟩, ⟨2024, 5, 1, 12, 0, 1, 0⟩⟩)
    [(⟨"nsprefix", none⟩, ⟨⟨2024, 5, 2, 12, 0, 0, 0⟩, ⟨2024, 5, 2, 12, 0, 1, 0⟩⟩)] true
    ⟨"nsprefix", none⟩ (by decide) (by decide) (by decide +kernel) (by decide +kernel)
  obtain ⟨report, reports, last, restored, made, hruns, hrestore, h⟩ := hreversed (by decide)
  exact ⟨report, reports, last, restored, made, hruns, hrestore, h.removed rfl⟩

end Disk
end SymbolRename
