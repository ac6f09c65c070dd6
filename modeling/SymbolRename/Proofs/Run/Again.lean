import SymbolRename.Proofs.Run.Unmingled

/-!
# Running again

A second run with the same settings finds nothing to do, also where a file is listed more than once:
what the first run has changed has nothing left to rename, and what it has not changed is as it was.
Only one entry may be reported in another way.  A path whose backup has too long a path fails as long
as its file is to be changed; once the file has been changed under a shorter path, there is nothing
left that could fail.
-/

namespace SymbolRename

namespace Disk

/-- The entry failed because the path of its backup is too long, and another entry has changed the
file instead. -/
structure Superseded (disk : Disk) (settings : RunSettings) (outcomes : List FileOutcome)
    (outcome again : FileOutcome) : Prop where
  failed : outcome.status = .failed
  unchanged : again.status = .unchanged
  too_long : maxPathLength < byteLength (settings.savedPath outcome.path)
  exists_changed : ∃ other ∈ outcomes, other.status = .changed ∧
    disk.place? (settings.absPath other.path) = disk.place? (settings.absPath outcome.path)

/-- What a second run says of an entry, given the outcomes of the first run. -/
structure Repeats (disk : Disk) (settings : RunSettings) (outcomes : List FileOutcome)
    (outcome again : FileOutcome) : Prop where
  path_eq : again.path = outcome.path
  not_changed : again.status ≠ .changed
  of_changed : outcome.status = .changed → again.status = .unchanged
  of_not_changed : outcome.status ≠ .changed →
    (again.status = outcome.status ∧ again.message? = outcome.message?) ∨
      disk.Superseded settings outcomes outcome again

variable {disk : Disk} {settings : RunSettings} {path : String} {files : List String}

theorem repeats_self {outcomes : List FileOutcome} {outcome : FileOutcome}
    (h : outcome.status ≠ .changed) : disk.Repeats settings outcomes outcome outcome :=
  ⟨rfl, h, fun hchanged ↦ absurd hchanged h, fun _ ↦ Or.inl ⟨rfl, rfl⟩⟩

theorem repeats_of_unchanged {outcomes : List FileOutcome} {outcome again : FileOutcome}
    (hpath : again.path = outcome.path) (hunchanged : again.status = .unchanged)
    (h : outcome.status = .changed ∨ disk.Superseded settings outcomes outcome again) :
    disk.Repeats settings outcomes outcome again :=
  ⟨hpath, by simp [hunchanged], fun _ ↦ hunchanged, fun hnot ↦ Or.inr (h.resolve_left hnot)⟩

/-- Of two paths to one file, one of which has a backup that can be written, the other one lacks it
only if its path is too long. -/
theorem maxPathLength_lt_of_error {other : String} {location backup : Location}
    {raw bytes : Bytes} {decoded : Decoded} {e : OsError}
    (hplain : PlainSuffix settings.backupSuffix)
    (hfile : disk.lookup (settings.absPath path) = .ok (location, .file bytes))
    (hother : disk.Changes settings other location backup raw decoded)
    (htarget : disk.writeTarget (settings.savedPath path) = .error e) :
    maxPathLength < byteLength (settings.savedPath path) := by
  obtain ⟨directory, name, hnames, rfl, _⟩ := lookup_eq_file_iff.mp hfile
  obtain ⟨directory', name', _, hlocation, hsaved, rfl⟩ :=
    backup_eq_of_writeTarget hplain (writeTarget_of_lookup hother.lookup) hother.target
  obtain ⟨rfl, hname⟩ := List.append_inj' hlocation rfl
  obtain rfl := List.singleton_inj.mp hname
  by_contra hlength
  have hnul : '\x00' ∉ settings.backupSuffix.toList := by
    obtain ⟨⟨r, hroute, _, _⟩, _⟩ := hsaved
    obtain ⟨hnul, _⟩ := route_eq_ok_iff.mp hroute
    intro hmem
    apply hnul
    simp [backupPath, hmem]
  have hbackup : disk.Names (settings.savedPath path) directory (name ++ settings.backupSuffix) :=
    hnames.append_suffix hplain hnul (Nat.not_lt.mp hlength) hsaved.length_le
  obtain ⟨_, _, _, _, hnode⟩ := writeTarget_eq_ok_iff.mp hother.target
  rw [hbackup.writeTarget_eq, if_neg hnode] at htarget
  cases htarget

theorem Loads.failed_of_not_changed {location : Location} {raw : Bytes} {decoded : Decoded}
    (h : disk.Loads settings path location raw decoded)
    (hdiffers : decoded.renamed ≠ decoded.text.toList) (hwrite : settings.dryRun = false)
    (hstatus : (disk.entryOutcome settings path).status ≠ .changed) :
    (disk.entryOutcome settings path).status = .failed ∧
      ∃ e, disk.writeTarget (settings.savedPath path) = .error e := by
  cases htarget : disk.writeTarget (settings.savedPath path) with
  | ok backup =>
      apply absurd _ hstatus
      rw [(EntryEffect.changed h hdiffers hwrite htarget).eq_self.1]
  | error e =>
      rw [(EntryEffect.unsaved h hdiffers hwrite htarget).eq_self.1]
      exact ⟨rfl, e, rfl⟩

section Entry

variable {before after : List String} (hplain : PlainSuffix settings.backupSuffix)
  (hunmingled : disk.Unmingled settings.root settings.backupSuffix files)
  (hfiles : files = before ++ path :: after)

include hplain hunmingled hfiles

theorem exists_repeats (hwrite : settings.dryRun = false) :
    ∃ again, (disk.reached settings files).EntryEffect settings path again [] ∧
      disk.Repeats settings (disk.runOutcomes settings files)
        ((disk.reached settings before).entryOutcome settings path) again := by
  have heffect := (disk.reached settings before).entryEffect_self settings path
  have hpath : path ∈ files := by simp [hfiles]
  have hconcat : files = (before ++ [path]) ++ after := by simp [hfiles]
  have hprogress := progress_of_append hplain hunmingled hconcat
  have hunmingled' := hunmingled.same (disk.sameDirectories_reached settings (before ++ [path]))
  have hsubset : changedPaths ((disk.reached settings (before ++ [path])).runOutcomes
      settings after) ⊆ files := by
    intro other hother
    have hafter := changedPaths_runOutcomes_subset _ settings after hother
    simp [hfiles, hafter]
  by_cases hstatus : ((disk.reached settings before).entryOutcome settings path).status = .changed
  · -- the entry has been renamed, and stays so
    obtain ⟨location, backup, raw, decoded, hchanges, hmutations, _⟩ := heffect.changes hstatus
    have hlookup := hchanges.lookup_after
    rw [← hmutations, ← reached_concat] at hlookup
    obtain ⟨again, hagain, hunchanged⟩ := entryEffect_of_renamed
      (hprogress.lookup_renamed hplain hunmingled' hsubset hpath hlookup)
    have hsamePath := hagain.path_eq.trans heffect.path_eq.symm
    exact ⟨again, hagain, repeats_of_unchanged hsamePath hunchanged (Or.inl hstatus)⟩
  · -- nothing was done, so all that may happen comes from later entries
    have hnone := heffect.mutations_eq_nil hstatus
    rw [reached_concat, hnone, applyAll_nil] at hprogress hunmingled' hsubset
    rcases hprogress.lookup_cases hplain hunmingled' hsubset hpath with hsame | hrenamed
    · have hagain := heffect.of_lookup hplain hprogress.toSameDirectories hsame
      rw [hnone] at hagain
      exact ⟨_, hagain, repeats_self hstatus⟩
    · obtain ⟨other, hother, location, backup, raw, decoded, hchanges, hfile, hlookup⟩ := hrenamed
      obtain ⟨again, hagain, hunchanged⟩ := entryEffect_of_renamed hlookup
      have hloads : (disk.reached settings before).Loads settings path location raw decoded :=
        ⟨hfile, hchanges.decode⟩
      obtain ⟨hfailed, e, htarget⟩ := hloads.failed_of_not_changed hchanges.differs hwrite hstatus
      obtain ⟨outcome, houtcome, hchanged, rfl⟩ := mem_changedPaths.mp hother
      have hmem : outcome ∈ disk.runOutcomes settings files := by
        rw [hfiles, runOutcomes_append, runOutcomes_cons, hnone, applyAll_nil]
        simp [houtcome]
      have hplace := (place?_of_lookup hchanges.lookup).trans (place?_of_lookup hfile).symm
      have hsame := disk.sameDirectories_reached settings before
      rw [hsame.place?_eq, hsame.place?_eq] at hplace
      have hsamePath := hagain.path_eq.trans heffect.path_eq.symm
      refine ⟨again, hagain, repeats_of_unchanged hsamePath hunchanged (Or.inr ?_)⟩
      refine ⟨hfailed, hunchanged, ?_, ?_⟩
      · rw [heffect.path_eq]
        exact maxPathLength_lt_of_error hplain hfile hchanges htarget
      · rw [heffect.path_eq]
        exact ⟨outcome, hmem, hchanged, hplace⟩

end Entry

/-- A second run with the same settings makes no mutation and reports no change.  It says of every
entry what the first run has said, except that changed files are now unchanged, and that a path with
too long a backup path does not fail any more once its file has been changed under another path. -/
theorem second_run_repeats (disk : Disk) (settings : RunSettings) (tool tool' : ToolInfo)
    (clock clock' : Clock) (hwrite : settings.dryRun = false) (hfiles : settings.files ≠ [])
    (hsuffix : settings.backupSuffix ≠ "") (hslash : '/' ∉ settings.backupSuffix.toList)
    (hunmingled : disk.Unmingled settings.root settings.backupSuffix settings.files) :
    ∃ first second, disk.run settings tool clock = .ok first ∧
      (disk.applyAll first.mutations).run settings tool' clock' = .ok second ∧
      second.mutations = [] ∧
      first.report.files.map FileOutcome.path = settings.files ∧
      List.Forall₂ (disk.Repeats settings first.report.files) first.report.files
        second.report.files := by
  have hplain : PlainSuffix settings.backupSuffix := ⟨hsuffix, hslash⟩
  obtain ⟨first, hfirst, hreport, hmutations⟩ := @run_eq_ok disk settings tool clock hfiles hsuffix
  have hreached : disk.applyAll first.mutations = disk.reached settings settings.files := by
    rw [hmutations, reached]
  obtain ⟨second, hsecond, hreport', hmutations'⟩ :=
    @run_eq_ok (disk.reached settings settings.files) settings tool' clock' hfiles hsuffix
  have hrepeats : ∀ before path after, settings.files = before ++ path :: after →
      (disk.reached settings settings.files).entryMutations settings path = [] ∧
        disk.Repeats settings (disk.runOutcomes settings settings.files)
          ((disk.reached settings before).entryOutcome settings path)
          ((disk.reached settings settings.files).entryOutcome settings path) := by
    intro before path after hsplit
    obtain ⟨again, heffect, hrepeats⟩ := exists_repeats hplain hunmingled hsplit hwrite
    obtain ⟨houtcome, hnone⟩ := heffect.eq_self
    rw [houtcome]
    exact ⟨hnone, hrepeats⟩
  have hquiet : ∀ path ∈ settings.files,
      (disk.reached settings settings.files).entryMutations settings path = [] := by
    intro path hpath
    obtain ⟨before, after, hsplit⟩ := List.append_of_mem hpath
    exact (hrepeats before path after hsplit).1
  obtain ⟨hnone, houtcomes⟩ := runOutcomes_of_entryMutations_nil hquiet
  refine ⟨first, second, hfirst, hreached ▸ hsecond, hmutations'.trans hnone, ?_, ?_⟩
  · rw [hreport, map_path_runOutcomes]
  · rw [hreport, hreport', houtcomes]
    exact forall₂_runOutcomes fun before path after hsplit ↦ (hrepeats before path after hsplit).2

/-- A path to `a.h` with slashes in a row. -/
def slashedPath (n : Nat) : String := "." ++ String.ofList (List.replicate n '/') ++ "/a.h"

def slashedSettings (n : Nat) : RunSettings :=
  ⟨".", [slashedPath n, "a.h"], .strict, ".backup", false⟩

def slashedDisk : Disk :=
  ⟨FileTree.empty.applyAll [.write ["a.h"] (Utf8.encode "ma_x".toList)], []⟩

theorem second_run_repeats_on_slashedDisk :
    ∃ first second, slashedDisk.run (slashedSettings 0) ⟨"nsprefix", none⟩
        ⟨⟨2024, 5, 1, 12, 0, 0, 0⟩, ⟨2024, 5, 1, 12, 0, 1, 0⟩⟩ = .ok first ∧
      (slashedDisk.applyAll first.mutations).run (slashedSettings 0) ⟨"nsprefix", none⟩
        ⟨⟨2024, 5, 2, 12, 0, 0, 0⟩, ⟨2024, 5, 2, 12, 0, 1, 0⟩⟩ = .ok second ∧
      second.mutations = [] ∧
      List.Forall₂ (slashedDisk.Repeats (slashedSettings 0) first.report.files)
        first.report.files second.report.files := by
  obtain ⟨first, second, hfirst, hsecond, hnone, _, hrepeats⟩ := second_run_repeats slashedDisk
    (slashedSettings 0) ⟨"nsprefix", none⟩ ⟨"nsprefix", none⟩
    ⟨⟨2024, 5, 1, 12, 0, 0, 0⟩, ⟨2024, 5, 1, 12, 0, 1, 0⟩⟩
    ⟨⟨2024, 5, 2, 12, 0, 0, 0⟩, ⟨2024, 5, 2, 12, 0, 1, 0⟩⟩ rfl (by decide) (by decide) (by decide)
    (by decide +kernel)
  exact ⟨first, second, hfirst, hsecond, hnone, hrepeats⟩

/-! ## A path that is too long with its suffix -/

/-- If the backup of a file can be written under its second path only, the first path fails once. -/
theorem status_of_unsaved_of_changes {disk : Disk} {settings : RunSettings} {path other : String}
    {location backup : Location} {raw : Bytes} {decoded : Decoded} {e : OsError}
    (hfiles : settings.files = [path, other]) (hwrite : settings.dryRun = false)
    (hsuffix : settings.backupSuffix ≠ "")
    (hfile : disk.lookup (settings.absPath path) = .ok (location, .file raw))
    (htarget : disk.writeTarget (settings.savedPath path) = .error e)
    (hother : disk.Changes settings other location backup raw decoded)
    (tool tool' : ToolInfo) (clock clock' : Clock) :
    ∃ first second, disk.run settings tool clock = .ok first ∧
      (disk.applyAll first.mutations).run settings tool' clock' = .ok second ∧
      first.report.files.map FileOutcome.status = [.failed, .changed] ∧
      second.report.files.map FileOutcome.status = [.unchanged, .unchanged] := by
  have hchanged := EntryEffect.changed hother.toLoads hother.differs hwrite hother.target
  obtain ⟨hfailed, hnone⟩ :=
    (EntryEffect.unsaved ⟨hfile, hother.decode⟩ hother.differs hwrite htarget).eq_self
  obtain ⟨houtcome, hmutations⟩ := hchanged.eq_self
  -- both paths lead to the renamed file afterwards
  have hlookup := hother.lookup_after
  obtain ⟨_, _, _, _, hnode⟩ := lookup_eq_file_iff.mp hlookup
  have hlookup' := lookup_of_same (sameDirectories_applyAll hchanged.fileMutation)
    (writeTarget_of_lookup hfile) hnode
  obtain ⟨again, hagain, hstatus⟩ := entryEffect_of_renamed hlookup'
  obtain ⟨again', hagain', hstatus'⟩ := entryEffect_of_renamed hlookup
  obtain ⟨first, hfirst, hreport, hreached⟩ :=
    @run_eq_ok disk settings tool clock (by simp [hfiles]) hsuffix
  obtain ⟨second, hsecond, hreport', _⟩ := @run_eq_ok (disk.applyAll first.mutations)
    settings tool' clock' (by simp [hfiles]) hsuffix
  refine ⟨first, second, hfirst, hsecond, ?_, ?_⟩
  · simp [hreport, hfiles, runOutcomes_cons, hfailed, hnone, houtcome]
  · simp [hreport', hreached, hfiles, runMutations_cons, hnone, hmutations, runOutcomes_cons,
      hagain.eq_self, hagain'.eq_self, hstatus, hstatus']

theorem exists_route_error (h : maxPathLength < byteLength path) : ∃ e, route path = .error e := by
  cases hroute : route path with
  | error e => exact ⟨e, rfl⟩
  | ok r =>
      obtain ⟨_, _, hlength, _⟩ := route_eq_ok_iff.mp hroute
      exact absurd h (Nat.not_lt.mpr hlength)

section Slashed

variable {n : Nat}

theorem absPath_slashedPath (n : Nat) : (slashedSettings n).absPath (slashedPath n) =
    "./." ++ String.ofList (List.replicate n '/') ++ "/a.h" := by
  have habsolute : isAbsolute (slashedPath n) = false := by simp [isAbsolute, slashedPath]
  rw [RunSettings.absPath, slashedSettings, joinPath, habsolute, ← String.toList_inj]
  simp [slashedPath]

theorem byteLength_absPath_slashedPath (n : Nat) :
    byteLength ((slashedSettings n).absPath (slashedPath n)) = n + 7 := by
  have hslashes : byteLength (String.ofList (List.replicate n '/')) = n := by
    have hslash : (String.utf8EncodeChar '/').length = 1 := rfl
    simp [byteLength, Utf8.encode, List.flatMap_replicate, hslash]
  have hfront : byteLength "./." = 3 := by decide
  have hback : byteLength "/a.h" = 4 := by decide
  rw [absPath_slashedPath, byteLength_append, byteLength_append, hslashes, hfront, hback]
  omega

theorem names_slashedPath (h : n + 7 ≤ maxPathLength) :
    slashedDisk.Names ((slashedSettings n).absPath (slashedPath n)) [] "a.h" := by
  have htext : ((slashedSettings n).absPath (slashedPath n)).toList =
      ("./.".toList ++ List.replicate n '/') ++ '/' :: "a.h".toList := by
    simp [absPath_slashedPath]
  have hroute : route ((slashedSettings n).absPath (slashedPath n)) =
      .ok ⟨false, [".", ".", "a.h"], false⟩ := by
    apply route_eq_ok_iff.mpr
    refine ⟨by simp [htext], ?_, ?_, ?_⟩
    · intro hempty
      simp [hempty] at htext
    · rwa [byteLength_absPath_slashedPath]
    · rw [Route.ofPath_of_slash htext (by decide) (by decide), namesIn_append_slashes]
      simp [isAbsolute, htext, namesIn, splitSlashes]
  exact ⟨⟨_, hroute, rfl, by decide +kernel⟩, by decide⟩

theorem exists_route_savedPath_error (h : maxPathLength < n + 14) :
    ∃ e, route ((slashedSettings n).savedPath (slashedPath n)) = .error e := by
  apply exists_route_error
  have hsuffix : byteLength ".backup" = 7 := by decide
  rw [RunSettings.savedPath, backupPath, byteLength_append, byteLength_absPath_slashedPath]
  simp only [slashedSettings]
  omega

theorem changes_slashedDisk (n : Nat) :
    slashedDisk.Changes (slashedSettings n) "a.h" ["a.h"] ["a.h.backup"]
      (Utf8.encode "ma_x".toList) ⟨"ma_x", false⟩ where
  lookup := by
    change slashedDisk.lookup (joinPath "." "a.h") = _
    decide +kernel
  decode := decodeBytes_encode .strict "ma_x".toList
  differs := by decide +kernel
  target := by
    change slashedDisk.writeTarget (backupPath ".backup" (joinPath "." "a.h")) = _
    decide +kernel

theorem lookup_slashedPath (h : n + 7 ≤ maxPathLength) :
    slashedDisk.lookup ((slashedSettings n).absPath (slashedPath n)) =
      .ok (["a.h"], .file (Utf8.encode "ma_x".toList)) := by
  obtain ⟨_, _, _, _, hnode⟩ := lookup_eq_file_iff.mp (changes_slashedDisk n).lookup
  rw [(names_slashedPath h).lookup_eq, List.nil_append, hnode]

theorem exists_writeTarget_error_slashedPath (h : maxPathLength < n + 14) :
    ∃ e, slashedDisk.writeTarget ((slashedSettings n).savedPath (slashedPath n)) = .error e := by
  obtain ⟨e, hroute⟩ := exists_route_savedPath_error h
  exact ⟨e, by simp only [writeTarget, hroute, bind, Except.bind]⟩

theorem unmingled_slashedDisk (h : n + 7 ≤ maxPathLength) (hlong : maxPathLength < n + 14) :
    slashedDisk.Unmingled (slashedSettings n).root (slashedSettings n).backupSuffix
      (slashedSettings n).files := by
  obtain ⟨e, hroute⟩ := exists_route_savedPath_error hlong
  have hbackup := place?_of_writeTarget (changes_slashedDisk n).target
  have hnone : slashedDisk.place? ((slashedSettings n).savedPath (slashedPath n)) = none := by
    simp only [place?, hroute]
  refine List.pairwise_pair.mpr ⟨Or.inr ?_, Or.inr ?_⟩
  · change slashedDisk.place? ((slashedSettings n).absPath _) ≠ slashedDisk.place?
      ((slashedSettings n).savedPath _)
    rw [(names_slashedPath h).place?_eq, hbackup]
    decide
  · change slashedDisk.place? ((slashedSettings n).absPath _) ≠ slashedDisk.place?
      ((slashedSettings n).savedPath _)
    rw [place?_of_lookup (changes_slashedDisk n).lookup, hnone]
    exact Option.some_ne_none _

end Slashed

/-- The path with the slashes fails in the first run and is unchanged in the second one. -/
theorem second_run_differs_on_slashedDisk :
    (slashedSettings 4085).dryRun = false ∧ (slashedSettings 4085).files ≠ [] ∧
      (slashedSettings 4085).backupSuffix ≠ "" ∧
      '/' ∉ (slashedSettings 4085).backupSuffix.toList ∧
      slashedDisk.Unmingled (slashedSettings 4085).root (slashedSettings 4085).backupSuffix
        (slashedSettings 4085).files ∧
      ∃ first second, slashedDisk.run (slashedSettings 4085) ⟨"nsprefix", none⟩
          ⟨⟨2024, 5, 1, 12, 0, 0, 0⟩, ⟨2024, 5, 1, 12, 0, 1, 0⟩⟩ = .ok first ∧
        (slashedDisk.applyAll first.mutations).run (slashedSettings 4085) ⟨"nsprefix", none⟩
          ⟨⟨2024, 5, 2, 12, 0, 0, 0⟩, ⟨2024, 5, 2, 12, 0, 1, 0⟩⟩ = .ok second ∧
        first.report.files.map FileOutcome.status = [.failed, .changed] ∧
        second.report.files.map FileOutcome.status = [.unchanged, .unchanged] := by
  obtain ⟨e, htarget⟩ := exists_writeTarget_error_slashedPath (n := 4085) (by decide)
  refine ⟨rfl, List.cons_ne_nil _ _, ?_, ?_, unmingled_slashedDisk (by decide) (by decide), ?_⟩
  · simp [slashedSettings]
  · simp [slashedSettings]
  · exact status_of_unsaved_of_changes rfl rfl (by simp [slashedSettings])
      (lookup_slashedPath (by decide)) htarget (changes_slashedDisk 4085) _ _ _ _

end Disk
end SymbolRename
