import SymbolRename.Proofs.Restore.Effect
import SymbolRename.Proofs.Run.Interruption

/-!
# Interrupted restores

A restore may stop between two mutations or in the middle of a write.  A backup is removed only after
its file has been written, and nothing that is done for another entry comes near either of them.  So
wherever a restore stops, the bytes of a backup still stand under its own path or under the path of
its file.
-/

namespace SymbolRename

namespace Disk

variable {disk left : Disk}

/-- While a saved file is copied back, after which its copy may be removed, its bytes stand in one of
the two places. -/
theorem Interrupted.of_restore {location backup : Location} {raw : Bytes} {remove : Bool}
    (hne : location ≠ backup) (hroot : location ≠ [])
    (h : disk.Interrupted (.write location raw :: if remove then [.remove backup] else []) left) :
    left.tree.node? backup = disk.tree.node? backup ∨
      left.tree.node? location = some (.file raw) := by
  rw [← List.singleton_append] at h
  rcases h.of_append with hwriting | hremoving
  · left
    apply hwriting.node?_eq
    simpa [Mutation.location] using hne.symm
  · right
    have hlocation : location ∉
        (if remove then [Mutation.remove backup] else []).map Mutation.location := by
      cases remove with
      | false => simp
      | true => simpa [Mutation.location] using hne
    rw [hremoving.node?_eq hlocation]
    exact @FileTree.node?_applyAll_of_mem disk.tree [.write location raw] (.write location raw)
      (by simp) (by simp) hroot

section Entry

variable {settings : RestoreSettings} {path : String}
  (hplain : PlainSuffix settings.backupSuffix)
  (hseparate : disk.Separate settings.root settings.backupSuffix settings.files)
  (hpath : path ∈ settings.files)
  (h : disk.Interrupted (settings.files.flatMap fun path ↦ (disk.restoreEntry settings path).2) left)

include hplain hseparate hpath h

theorem node?_of_interrupted_not_restored {backup : Location} {raw : Bytes}
    (hsaved : disk.lookup (settings.savedPath path) = .ok (backup, .file raw))
    (hstatus : (disk.restoreEntry settings path).1.status ≠ .restored) :
    left.tree.node? backup = some (.file raw) := by
  obtain ⟨directory, name, hnames, rfl, hnode⟩ := lookup_eq_file_iff.mp hsaved
  have hnone := (disk.restoreEffect_self settings path).mutations_eq_nil hstatus
  refine (h.node?_eq ?_).trans hnode
  intro hmem
  obtain ⟨owner, hapart, howns⟩ :=
    (ownMutations_restoreEntry hplain).exists_owner hseparate hpath hnone hmem
  exact howns.ne_backup hplain hapart hnames rfl

/-- Wherever the mutations of all entries are interrupted, the bytes of a backup stand in its place
or in the place of its file. -/
theorem node?_of_interrupted_restore {backup : Location} {raw : Bytes}
    (hsaved : disk.lookup (settings.savedPath path) = .ok (backup, .file raw)) :
    left.tree.node? backup = some (.file raw) ∨
      ∃ location, disk.writeTarget (settings.absPath path) = .ok location ∧
        left.tree.node? location = some (.file raw) := by
  by_cases hstatus : (disk.restoreEntry settings path).1.status = .restored
  · obtain ⟨location, there, bytes, hrestores, hmutations⟩ :=
      (disk.restoreEffect_self settings path).restores hstatus
    cases hsaved.symm.trans hrestores.saved
    have hbackup := writeTarget_of_lookup hsaved
    have hne := ne_of_writeTarget hplain hrestores.target hbackup
    have howns : disk.Owns settings.backupSuffix (settings.absPath path) location :=
      owns_of_writeTarget hrestores.target
    have howns' := owns_backup_of_writeTarget hplain hrestores.target hbackup
    obtain ⟨start, reached, hreached, hplaces⟩ :=
      h.at_entry (ownMutations_restoreEntry hplain) hplain hseparate hpath
    rw [hmutations] at hreached
    rcases hreached.of_restore hne howns.ne_nil with hkept | hwritten
    · left
      obtain ⟨hstart, hleft⟩ := hplaces backup howns'
      obtain ⟨_, _, _, _, hnode⟩ := lookup_eq_file_iff.mp hsaved
      rw [hleft, hkept, hstart, hnode]
    · right
      exact ⟨location, hrestores.target, (hplaces location howns).2.trans hwritten⟩
  · left
    exact node?_of_interrupted_not_restored hplain hseparate hpath h hsaved hstatus

end Entry

/-- Wherever a restore over separate entries is interrupted, the bytes that a backup had at the start
can be read under its own path or under the path of its file. -/
theorem interrupted_restore_keeps_backups (disk : Disk) (settings : RestoreSettings)
    (tool : ToolInfo) (hsuffix : settings.backupSuffix ≠ "")
    (hslash : '/' ∉ settings.backupSuffix.toList)
    (hseparate : disk.Separate settings.root settings.backupSuffix settings.files) :
    (settings.files = [] → disk.restore settings tool = .error .emptyFileSet) ∧
    (settings.files ≠ [] → ∃ report made, disk.restore settings tool = .ok (report, made) ∧
      ∀ left, disk.Interrupted made left →
        ∀ path ∈ settings.files, ∀ raw, disk.readBytes (settings.savedPath path) = .ok raw →
          left.readBytes (settings.savedPath path) = .ok raw ∨
            left.readBytes (settings.absPath path) = .ok raw) := by
  have hplain : PlainSuffix settings.backupSuffix := ⟨hsuffix, hslash⟩
  constructor
  · intro hempty
    simp only [restore, checkSetup, if_pos hempty]
  intro hfiles
  obtain ⟨report, made, hrestore, _, rfl⟩ :=
    @restore_of_separate disk settings hplain hseparate tool hfiles
  refine ⟨report, _, hrestore, ?_⟩
  intro left hleft path hpath raw hread
  obtain ⟨backup, hsaved⟩ := readBytes_eq_ok_iff.mp hread
  have hsame := hleft.sameDirectories fun mutation hmutation ↦ by
    obtain ⟨other, _, hmutation⟩ := List.mem_flatMap.mp hmutation
    exact (disk.restoreEffect_self settings other).fileMutation mutation hmutation
  rcases node?_of_interrupted_restore hplain hseparate hpath hleft hsaved with
    hnode | ⟨location, htarget, hnode⟩
  · left
    exact readBytes_of_lookup (lookup_of_same hsame (writeTarget_of_lookup hsaved) hnode)
  · right
    exact readBytes_of_lookup (lookup_of_same hsame htarget hnode)

theorem interrupted_restore_on_savedDisk :
    ∃ report made, savedDisk.restore savedSettings ⟨"nsprefix", none⟩ = .ok (report, made) ∧
      ∀ left, savedDisk.Interrupted made left →
        left.readBytes "./a.h.backup" = .ok [0x6D, 0x61, 0x5F, 0xFF] ∨
          left.readBytes "./a.h" = .ok [0x6D, 0x61, 0x5F, 0xFF] := by
  obtain ⟨_, hkeeps⟩ := interrupted_restore_keeps_backups savedDisk savedSettings
    ⟨"nsprefix", none⟩ (by decide) (by decide) (by decide +kernel)
  obtain ⟨report, made, hrestore, hleft⟩ := hkeeps (by decide)
  refine ⟨report, made, hrestore, fun left hinterrupted ↦ ?_⟩
  exact hleft left hinterrupted "a.h" (by decide) [0x6D, 0x61, 0x5F, 0xFF] (by decide +kernel)

end Disk
end SymbolRename
