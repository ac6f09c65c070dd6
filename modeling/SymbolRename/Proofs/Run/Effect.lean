import Mathlib.Data.List.Forall2
import SymbolRename.Proofs.Report.Summary
import SymbolRename.Proofs.Run.Entries

/-!
# What a run leaves behind

A run over separate entries returns, and its report can be read off the disk before the run.  The
disk after it differs from the disk before only at the files that are reported as changed and at
their backups: a changed file holds its renamed text, and its backup the bytes that it had.
-/

namespace SymbolRename

theorem mutationsOf_flatMap {α : Type} (entries : List α) (events : α → List RunEvent) :
    mutationsOf (entries.flatMap events) = entries.flatMap fun entry ↦ mutationsOf (events entry) :=
  List.filterMap_flatMap

namespace Disk

variable {disk : Disk} {settings : RunSettings} {path : String} {files : List String}

theorem run_of_checkSetup {tool : ToolInfo} {clock : Clock} (hfiles : settings.files ≠ [])
    (hsuffix : settings.backupSuffix ≠ "") :
    ∃ result, disk.run settings tool clock = .ok result ∧
      result.report.files = (disk.runEntries settings settings.files).1 ∧
      result.mutations = mutationsOf (disk.runEntries settings settings.files).2 := by
  unfold run
  simp only [checkSetup, if_neg hfiles, if_neg hsuffix]
  refine ⟨_, rfl, ?_, rfl⟩
  exact RunReport.files_foldl_push _ _

theorem run_of_separate {tool : ToolInfo} {clock : Clock} (hfiles : settings.files ≠ [])
    (hplain : PlainSuffix settings.backupSuffix)
    (hseparate : disk.Separate settings.root settings.backupSuffix settings.files) :
    ∃ result, disk.run settings tool clock = .ok result ∧
      result.report.files = settings.files.map (disk.entryOutcome settings) ∧
      result.mutations = settings.files.flatMap (disk.entryMutations settings) := by
  obtain ⟨result, hrun, hreport, hmutations⟩ :=
    @run_of_checkSetup disk settings tool clock hfiles hplain.nonempty
  rw [runEntries_self hplain hseparate] at hreport hmutations
  rw [mutationsOf_flatMap] at hmutations
  exact ⟨result, hrun, hreport, hmutations⟩

theorem exists_run_of_separate {tool : ToolInfo} {clock : Clock} (hfiles : settings.files ≠ [])
    (hplain : PlainSuffix settings.backupSuffix)
    (hseparate : disk.Separate settings.root settings.backupSuffix settings.files) :
    ∃ result, disk.run settings tool clock = .ok result ∧
      result.report.files = settings.files.map (disk.entryOutcome settings) ∧
      disk.applyAll result.mutations = disk.afterEntries settings settings.files := by
  obtain ⟨result, hrun, hreport, hmutations⟩ :=
    @run_of_separate disk settings tool clock hfiles hplain hseparate
  exact ⟨result, hrun, hreport, congrArg disk.applyAll hmutations⟩

/-! ## The mutations of a run -/

theorem ownMutations_entryMutations (hplain : PlainSuffix settings.backupSuffix) :
    disk.OwnMutations settings.root settings.backupSuffix (disk.entryMutations settings) where
  owns path _ hmutation := ((disk.entryEffect_self settings path).owns hplain hmutation).2
  pairwise path := (disk.entryEffect_self settings path).pairwise_location hplain

theorem fileMutation_of_mem_flatMap {mutation : Mutation}
    (hmutation : mutation ∈ files.flatMap (disk.entryMutations settings)) :
    disk.FileMutation mutation := by
  obtain ⟨path, _, hpath⟩ := List.mem_flatMap.mp hmutation
  exact (disk.entryEffect_self settings path).fileMutation mutation hpath

/-! ## The disk after a run -/

theorem sameDirectories_afterEntries (disk : Disk) (settings : RunSettings)
    (files : List String) : disk.SameDirectories (disk.afterEntries settings files) :=
  sameDirectories_applyAll fun _ hmutation ↦ fileMutation_of_mem_flatMap hmutation

theorem lookup_of_same {other : Disk} {location : Location} {bytes : Bytes}
    (hsame : disk.SameDirectories other) (htarget : disk.writeTarget path = .ok location)
    (hnode : other.tree.node? location = some (.file bytes)) :
    other.lookup path = .ok (location, .file bytes) := by
  obtain ⟨directory, name, hnames, hlocation, _⟩ := writeTarget_eq_ok_iff.mp htarget
  exact lookup_eq_file_iff.mpr ⟨directory, name, hnames.same hsame, hlocation, hnode⟩

/-- A changed file holds its renamed text, and its backup the bytes that it had. -/
theorem lookup_after_changed (hplain : PlainSuffix settings.backupSuffix)
    (hseparate : disk.Separate settings.root settings.backupSuffix files) (hpath : path ∈ files)
    (hstatus : (disk.entryOutcome settings path).status = .changed) :
    ∃ location backup raw decoded, disk.Changes settings path location backup raw decoded ∧
      (disk.afterEntries settings files).lookup (settings.absPath path) =
        .ok (location, .file (Utf8.encode decoded.renamed)) ∧
      (disk.afterEntries settings files).lookup (settings.savedPath path) =
        .ok (backup, .file raw) := by
  obtain ⟨location, backup, raw, decoded, hchanges, hmutations, _⟩ :=
    (disk.entryEffect_self settings path).changes hstatus
  have hsame := disk.sameDirectories_afterEntries settings files
  have hmem : ∀ mutation ∈ disk.entryMutations settings path,
      (disk.afterEntries settings files).tree.node? mutation.location = mutation.node? :=
    fun mutation hmutation ↦
      (ownMutations_entryMutations hplain).node?_applyAll hplain hseparate hpath hmutation disk.tree
  rw [hmutations] at hmem
  refine ⟨location, backup, raw, decoded, hchanges, ?_, ?_⟩
  · exact lookup_of_same hsame (writeTarget_of_lookup hchanges.lookup)
      (hmem (.write location (Utf8.encode decoded.renamed)) (by simp))
  · exact lookup_of_same hsame hchanges.target (hmem (.write backup raw) (by simp))

/-- Nothing changes but at the places that changed files own. -/
theorem node?_afterEntries {location : Location} (hplain : PlainSuffix settings.backupSuffix)
    (h : ∀ path ∈ files, (disk.entryOutcome settings path).status = .changed →
      ¬disk.Owns settings.backupSuffix (settings.absPath path) location) :
    (disk.afterEntries settings files).tree.node? location = disk.tree.node? location := by
  apply FileTree.node?_applyAll_of_notMem
  intro hmem
  obtain ⟨mutation, hmutation, rfl⟩ := List.mem_map.mp hmem
  obtain ⟨path, hpath, hmutation⟩ := List.mem_flatMap.mp hmutation
  obtain ⟨hstatus, howns⟩ := (disk.entryEffect_self settings path).owns hplain hmutation
  exact h path hpath hstatus howns

/-! ## Reading the report off the disk before the run -/

/-- The entry is a regular file that can be decoded and has nothing to rename. -/
def Settled (disk : Disk) (settings : RunSettings) (path : String) : Prop :=
  ∃ raw decoded, disk.readBytes (settings.absPath path) = .ok raw ∧
    decodeBytes settings.policy raw = .ok decoded ∧ decoded.renamed = decoded.text.toList

/-- The entry is a regular file that can be decoded and has names to rename. -/
def ToBeChanged (disk : Disk) (settings : RunSettings) (path : String) : Prop :=
  ∃ raw decoded, disk.readBytes (settings.absPath path) = .ok raw ∧
    decodeBytes settings.policy raw = .ok decoded ∧ decoded.renamed ≠ decoded.text.toList

/-- The entry is a directory, or holds bytes that a strict run does not read, or would have to be
changed although its backup cannot be written. -/
def Refused (disk : Disk) (settings : RunSettings) (path : String) : Prop :=
  disk.isDirectory (settings.absPath path) = true ∨
    (settings.policy = .strict ∧
      ∃ raw, disk.readBytes (settings.absPath path) = .ok raw ∧ Utf8.valid raw = false) ∨
    (disk.ToBeChanged settings path ∧ ∃ e, disk.writeTarget (settings.savedPath path) = .error e)

theorem decodeBytes_eq_error_iff {policy : DecodePolicy} {raw : Bytes} :
    (∃ offset, decodeBytes policy raw = .error offset) ↔
      policy = .strict ∧ Utf8.valid raw = false := by
  cases policy <;> by_cases hvalid : Utf8.valid raw = true <;> simp [decodeBytes, hvalid]

theorem Loads.readBytes_eq_iff {location : Location} {raw bytes : Bytes} {decoded : Decoded}
    (h : disk.Loads settings path location raw decoded) :
    disk.readBytes (settings.absPath path) = .ok bytes ↔ bytes = raw := by
  rw [readBytes_of_lookup h.lookup, Except.ok.injEq, eq_comm]

theorem Loads.settled_iff {location : Location} {raw : Bytes} {decoded : Decoded}
    (h : disk.Loads settings path location raw decoded) :
    disk.Settled settings path ↔ decoded.renamed = decoded.text.toList := by
  simp [Settled, h.readBytes_eq_iff, h.decode]

theorem Loads.toBeChanged_iff {location : Location} {raw : Bytes} {decoded : Decoded}
    (h : disk.Loads settings path location raw decoded) :
    disk.ToBeChanged settings path ↔ decoded.renamed ≠ decoded.text.toList := by
  simp [ToBeChanged, h.readBytes_eq_iff, h.decode]

theorem Loads.refused_iff {location : Location} {raw : Bytes} {decoded : Decoded}
    (h : disk.Loads settings path location raw decoded) :
    disk.Refused settings path ↔ decoded.renamed ≠ decoded.text.toList ∧
      ∃ e, disk.writeTarget (settings.savedPath path) = .error e := by
  have hdirectory : disk.isDirectory (settings.absPath path) = false := by
    simp [isDirectory, h.lookup]
  have hdecodes : ¬(settings.policy = .strict ∧ Utf8.valid raw = false) := by
    rw [← decodeBytes_eq_error_iff, h.decode]
    simp
  simp only [Refused, hdirectory, h.readBytes_eq_iff, h.toBeChanged_iff, exists_eq_left, hdecodes,
    Bool.false_eq_true, false_or]

theorem not_settled_of_error {refusal : Refusal}
    (h : disk.readBytes (settings.absPath path) = .error refusal) :
    ¬disk.Settled settings path := by
  rintro ⟨raw, decoded, hraw, _⟩
  simp [h] at hraw

theorem not_refused_of_missing (h : disk.pathExists (settings.absPath path) = false) :
    ¬disk.Refused settings path := by
  have hnowhere {found : Location × Node} :
      disk.lookup (settings.absPath path) ≠ .ok found := by
    intro hfound
    simp [pathExists_of_lookup hfound] at h
  have hread {raw : Bytes} : disk.readBytes (settings.absPath path) ≠ .ok raw := by
    rw [Ne, readBytes_eq_ok_iff]
    exact fun ⟨_, hfound⟩ ↦ hnowhere hfound
  rintro (hdirectory | ⟨_, raw, hraw, _⟩ | ⟨⟨raw, _, hraw, _⟩, _⟩)
  · rw [isDirectory] at hdirectory
    split at hdirectory
    · next hfound => exact hnowhere hfound
    · cases hdirectory
  · exact hread hraw
  · exact hread hraw

/-- The status of an entry tells what stood there, and the other way round. -/
theorem EntryEffect.status_iff {outcome : FileOutcome} {mutations : List Mutation}
    (hwrite : settings.dryRun = false)
    (h : disk.EntryEffect settings path outcome mutations) :
    (outcome.status = .missing ↔ disk.pathExists (settings.absPath path) = false) ∧
      (outcome.status = .unchanged ↔ disk.Settled settings path) ∧
      (outcome.status = .failed ↔ disk.Refused settings path) ∧
      outcome.status ≠ .pending := by
  have hexists {found : Location × Node}
      (h : disk.lookup (settings.absPath path) = .ok found) :
      ¬disk.pathExists (settings.absPath path) = false := by
    simp [pathExists_of_lookup h]
  cases h with
  | missing hmissing =>
      have hread : ∃ refusal, disk.readBytes (settings.absPath path) = .error refusal := by
        cases hread : disk.readBytes (settings.absPath path) with
        | error refusal => exact ⟨refusal, rfl⟩
        | ok raw =>
            obtain ⟨location, hfound⟩ := readBytes_eq_ok_iff.mp hread
            exact absurd hmissing (hexists hfound)
      obtain ⟨refusal, hread⟩ := hread
      exact ⟨iff_of_true rfl hmissing, iff_of_false (by rintro ⟨⟩) (not_settled_of_error hread),
        iff_of_false (by rintro ⟨⟩) (not_refused_of_missing hmissing), by rintro ⟨⟩⟩
  | directory hfound =>
      have hread : disk.readBytes (settings.absPath path) = .error ⟨.readFrom, .isDirectory⟩ := by
        simp [readBytes, hfound]
      have hrefused : disk.Refused settings path := Or.inl (by simp [isDirectory, hfound])
      exact ⟨iff_of_false (by rintro ⟨⟩) (hexists hfound),
        iff_of_false (by rintro ⟨⟩) (not_settled_of_error hread), iff_of_true rfl hrefused,
        by rintro ⟨⟩⟩
  | @undecodable location raw validUpTo hfound hdecode =>
      have hread := readBytes_of_lookup hfound
      obtain ⟨hstrict, hinvalid⟩ := decodeBytes_eq_error_iff.mp ⟨validUpTo, hdecode⟩
      have hrefused : disk.Refused settings path :=
        Or.inr (Or.inl ⟨hstrict, raw, hread, hinvalid⟩)
      have hsettled : ¬disk.Settled settings path := by
        rintro ⟨bytes, decoded, hbytes, hdecoded, _⟩
        cases hread.symm.trans hbytes
        simp [hdecode] at hdecoded
      exact ⟨iff_of_false (by rintro ⟨⟩) (hexists hfound), iff_of_false (by rintro ⟨⟩) hsettled,
        iff_of_true rfl hrefused, by rintro ⟨⟩⟩
  | unchanged hloads hsame =>
      refine ⟨iff_of_false (by rintro ⟨⟩) (hexists hloads.lookup),
        iff_of_true rfl (hloads.settled_iff.mpr hsame), iff_of_false (by rintro ⟨⟩) ?_,
        by rintro ⟨⟩⟩
      rw [hloads.refused_iff]
      exact fun h ↦ h.1 hsame
  | pending hloads hdiffers hdry => simp [hwrite] at hdry
  | unsaved hloads hdiffers _ htarget =>
      refine ⟨iff_of_false (by rintro ⟨⟩) (hexists hloads.lookup), iff_of_false (by rintro ⟨⟩) ?_,
        iff_of_true rfl (hloads.refused_iff.mpr ⟨hdiffers, _, htarget⟩), by rintro ⟨⟩⟩
      rwa [hloads.settled_iff]
  | changed hloads hdiffers _ htarget =>
      refine ⟨iff_of_false (by rintro ⟨⟩) (hexists hloads.lookup), iff_of_false (by rintro ⟨⟩) ?_,
        iff_of_false (by rintro ⟨⟩) ?_, by rintro ⟨⟩⟩
      · rwa [hloads.settled_iff]
      · rw [hloads.refused_iff]
        rintro ⟨_, e, he⟩
        simp [htarget] at he

/-! ## The report and the disk -/

/-- What a report says of one entry: its status tells what stood there before the run, and a changed
file holds its renamed text, with its old bytes under the path of its backup. -/
structure Accounts (disk after : Disk) (settings : RunSettings) (path : String)
    (outcome : FileOutcome) : Prop where
  path_eq : outcome.path = path
  missing_iff : outcome.status = .missing ↔ disk.pathExists (settings.absPath path) = false
  unchanged_iff : outcome.status = .unchanged ↔ disk.Settled settings path
  failed_iff : outcome.status = .failed ↔ disk.Refused settings path
  changed_iff : outcome.status = .changed ↔
    ¬(outcome.status = .missing ∨ outcome.status = .unchanged ∨ outcome.status = .failed)
  written : outcome.status = .changed → ∃ raw decoded,
    disk.readBytes (settings.absPath path) = .ok raw ∧
      decodeBytes settings.policy raw = .ok decoded ∧
      after.readBytes (settings.absPath path) =
        .ok (Utf8.encode (namespaceText decoded.text.toList).text) ∧
      after.readBytes (settings.savedPath path) = .ok raw

theorem accounts_after (hwrite : settings.dryRun = false)
    (hplain : PlainSuffix settings.backupSuffix)
    (hseparate : disk.Separate settings.root settings.backupSuffix files) (hpath : path ∈ files) :
    disk.Accounts (disk.afterEntries settings files) settings path
      (disk.entryOutcome settings path) := by
  have h := disk.entryEffect_self settings path
  obtain ⟨hmissing, hunchanged, hfailed, hpending⟩ := h.status_iff hwrite
  refine ⟨h.path_eq, hmissing, hunchanged, hfailed, ?_, ?_⟩
  · cases hstatus : (disk.entryOutcome settings path).status <;> simp_all
  · intro hstatus
    obtain ⟨location, backup, raw, decoded, hchanges, hnew, hold⟩ :=
      lookup_after_changed hplain hseparate hpath hstatus
    exact ⟨raw, decoded, readBytes_of_lookup hchanges.lookup, hchanges.decode,
      readBytes_of_lookup hnew, readBytes_of_lookup hold⟩

/-- A run that writes, over separate entries, returns.  Its report tells of every entry what stood
there before, and the disk changes only where it reports changed files, and at their backups. -/
theorem run_accounts_for_disk (disk : Disk) (settings : RunSettings) (tool : ToolInfo)
    (clock : Clock) (hwrite : settings.dryRun = false) (hfiles : settings.files ≠ [])
    (hsuffix : settings.backupSuffix ≠ "") (hslash : '/' ∉ settings.backupSuffix.toList)
    (hseparate : disk.Separate settings.root settings.backupSuffix settings.files) :
    ∃ result, disk.run settings tool clock = .ok result ∧
      List.Forall₂ (disk.Accounts (disk.applyAll result.mutations) settings) settings.files
        result.report.files ∧
      ∀ location, (∀ outcome ∈ result.report.files, outcome.status = .changed →
          disk.place? (settings.absPath outcome.path) ≠ some location ∧
            disk.place? (settings.savedPath outcome.path) ≠ some location) →
        (disk.applyAll result.mutations).tree.node? location = disk.tree.node? location := by
  have hplain : PlainSuffix settings.backupSuffix := ⟨hsuffix, hslash⟩
  obtain ⟨result, hrun, hreport, hafter⟩ :=
    @exists_run_of_separate disk settings tool clock hfiles hplain hseparate
  refine ⟨result, hrun, ?_, ?_⟩
  · rw [hreport, hafter, List.forall₂_map_right_iff, List.forall₂_same]
    exact fun path hpath ↦ accounts_after hwrite hplain hseparate hpath
  · intro location helsewhere
    rw [hafter]
    refine node?_afterEntries hplain fun path hpath hstatus howns ↦ ?_
    have hmem : disk.entryOutcome settings path ∈ result.report.files :=
      hreport ▸ List.mem_map_of_mem hpath
    obtain ⟨hfile, hbackup⟩ := helsewhere _ hmem hstatus
    rw [(disk.entryEffect_self settings path).path_eq] at hfile hbackup
    exact howns.place?_eq.elim hfile hbackup

/-- A disk with a file to change, a directory, a file that is no text and a file whose backup has a
directory in its way. -/
def mixedDisk : Disk :=
  ⟨FileTree.empty.applyAll
    [.write ["a.h"] (Utf8.encode "ma_x".toList), .makeDirectory ["d"], .write ["d", "b.h"] [0xFF],
      .write ["c.h"] (Utf8.encode "MA_y".toList), .makeDirectory ["c.h.backup"]], []⟩

def mixedSettings : RunSettings :=
  ⟨".", ["a.h", "d", "d/b.h", "c.h", "e.h"], .strict, ".backup", false⟩

theorem run_accounts_for_mixedDisk :
    ∃ result, mixedDisk.run mixedSettings ⟨"nsprefix", none⟩
        ⟨⟨2024, 5, 1, 12, 0, 0, 0⟩, ⟨2024, 5, 1, 12, 0, 1, 0⟩⟩ = .ok result ∧
      List.Forall₂ (mixedDisk.Accounts (mixedDisk.applyAll result.mutations) mixedSettings)
        mixedSettings.files result.report.files := by
  have hseparate :
      mixedDisk.Separate mixedSettings.root mixedSettings.backupSuffix mixedSettings.files := by
    decide +kernel
  obtain ⟨result, hrun, haccounts, _⟩ := run_accounts_for_disk mixedDisk mixedSettings
    ⟨"nsprefix", none⟩ ⟨⟨2024, 5, 1, 12, 0, 0, 0⟩, ⟨2024, 5, 1, 12, 0, 1, 0⟩⟩ (by decide)
    (by decide) (by decide) (by decide) hseparate
  exact ⟨result, hrun, haccounts⟩

end Disk
end SymbolRename
