import SymbolRename.Proofs.Run.Effect

/-!
# Where a backup stands

The path of a backup is the path of its file with a suffix.  With slashes in the suffix it may lead
through other directories and back to the file.  A commit writes the backup first and the file last,
so the backup keeps the old bytes only where it stands at another place.  A suffix without slashes
sees to that.
-/

namespace SymbolRename

/-- A file for which a text has been put down that is to replace its own. -/
def SourceFile.replacedBy (file : SourceFile) (text : String) : SourceFile :=
  { file with transformed := text, changed := true }

namespace Disk

variable {disk : Disk} {root path saved suffix : String} {policy : DecodePolicy}
  {file : SourceFile} {location backup : Location}

theorem lookup_of_resolve (h : disk.resolve root policy path = .found file) :
    ∃ location, disk.lookup file.absPath = .ok (location, .file file.raw) := by
  rw [resolve] at h
  split at h
  · split at h
    · next hload =>
      cases h
      obtain ⟨location, _, hfound, hfile⟩ := exists_lookup_of_load hload
      rw [hfile]
      exact ⟨location, hfound⟩
    · cases h
  · cases h

/-! ## Two writes, one after the other -/

section Writes

variable {bytes bytes' : Bytes} (hfile : disk.writeTarget path = .ok location)
  (hsaved : disk.writeTarget saved = .ok backup)

include hfile hsaved

theorem readBytes_second :
    (disk.applyAll [.write backup bytes, .write location bytes']).readBytes path = .ok bytes' := by
  have hsame := (fileMutation_of_writeTarget bytes hsaved).sameDirectories
  rw [applyAll_cons]
  exact readBytes_of_lookup (lookup_write (writeTarget_of_same hsame hfile) bytes')

theorem readBytes_first_of_ne (hne : location ≠ backup) :
    (disk.applyAll [.write backup bytes, .write location bytes']).readBytes saved = .ok bytes := by
  have hbackup := fileMutation_of_writeTarget bytes hsaved
  have hmutations : ∀ mutation ∈ [.write backup bytes, .write location bytes'],
      disk.FileMutation mutation := by
    simp [hbackup, fileMutation_of_writeTarget bytes' hfile]
  have hnode := @FileTree.node?_applyAll_write_write disk.tree location backup bytes bytes' hne
    hbackup.location_ne_nil
  exact readBytes_of_lookup (lookup_of_same (sameDirectories_applyAll hmutations) hsaved hnode)

end Writes

/-! ## Commits -/

theorem commit_eq_some {old : Bytes} {committed : Committed} {made : List Mutation}
    (hchanged : file.changed = true)
    (hfile : disk.lookup file.absPath = .ok (location, .file old))
    (h : disk.commit suffix file = (.ok (some committed), made)) :
    ∃ backup, disk.writeTarget (file.absPath ++ suffix) = .ok backup ∧
      committed.backup.path = file.absPath ++ suffix ∧
      made = [.write backup file.raw, .write location (Utf8.encode file.transformed.toList)] := by
  cases htarget : disk.writeTarget (backupPath suffix file.absPath) with
  | error e =>
      rw [commit_of_error hchanged htarget] at h
      cases h
  | ok backup =>
      rw [commit_of_target hchanged hfile htarget] at h
      cases h
      exact ⟨backup, htarget, rfl, rfl⟩

/-- After a commit the file holds its new text, and its backup the bytes that were loaded unless its
path leads to the file itself.  A suffix without slashes does not lead there. -/
theorem commit_keeps_bytes_elsewhere (disk : Disk) (root : String) (policy : DecodePolicy)
    (path : String) (file : SourceFile) (text suffix : String) (committed : Committed)
    (made : List Mutation) (hfound : disk.resolve root policy path = .found file)
    (hsuffix : suffix ≠ "")
    (hcommit : disk.commit suffix (file.replacedBy text) = (.ok (some committed), made)) :
    (disk.applyAll made).readBytes file.absPath = .ok (Utf8.encode text.toList) ∧
    (disk.place? committed.backup.path ≠ disk.place? file.absPath →
      (disk.applyAll made).readBytes committed.backup.path = .ok file.raw) ∧
    (disk.place? committed.backup.path = disk.place? file.absPath →
      (disk.applyAll made).readBytes committed.backup.path = .ok (Utf8.encode text.toList)) ∧
    ('/' ∉ suffix.toList → disk.place? committed.backup.path ≠ disk.place? file.absPath) := by
  obtain ⟨location, hfile⟩ := lookup_of_resolve hfound
  obtain ⟨backup, hbackup, hpath, rfl⟩ :=
    @commit_eq_some disk suffix (file.replacedBy text) location _ _ _ rfl hfile hcommit
  have htarget := writeTarget_of_lookup hfile
  have hplace : disk.place? committed.backup.path = some backup := by
    rw [hpath]
    exact place?_of_writeTarget hbackup
  rw [hplace, place?_of_lookup hfile, hpath]
  refine ⟨readBytes_second htarget hbackup, ?_, ?_, ?_⟩
  · intro hne
    exact readBytes_first_of_ne htarget hbackup fun h ↦ hne (congrArg some h.symm)
  · intro hsame
    obtain rfl := Option.some.inj hsame
    -- both writes go to one place, and the second is what stays
    exact readBytes_second hbackup hbackup
  · intro hslash hsame
    exact ne_of_writeTarget ⟨hsuffix, hslash⟩ htarget hbackup (Option.some.inj hsame).symm

/-- The file `a.h` of a disk as it is loaded. -/
def loadedHeader : SourceFile :=
  .ofDecoded "a.h" "./a.h" (Utf8.encode "ma_x".toList) ⟨"ma_x", false⟩

theorem commit_keeps_bytes_on_mixedDisk :
    ∃ committed made, mixedDisk.resolve "." .strict "a.h" = .found loadedHeader ∧
      mixedDisk.commit ".backup" (loadedHeader.replacedBy "soloud_ma_x") =
        (.ok (some committed), made) ∧
      (mixedDisk.applyAll made).readBytes "./a.h" = .ok (Utf8.encode "soloud_ma_x".toList) ∧
      (mixedDisk.applyAll made).readBytes committed.backup.path =
        .ok (Utf8.encode "ma_x".toList) := by
  have hfound : mixedDisk.resolve "." .strict "a.h" = .found loadedHeader := by decide +kernel
  have hfile : mixedDisk.lookup "./a.h" = .ok (["a.h"], .file (Utf8.encode "ma_x".toList)) := by
    decide +kernel
  have hbackup : mixedDisk.writeTarget (backupPath ".backup" "./a.h") = .ok ["a.h.backup"] := by
    decide +kernel
  have hcommit := @commit_of_target mixedDisk ["a.h"] ".backup"
    (loadedHeader.replacedBy "soloud_ma_x") ["a.h.backup"] _ rfl hfile hbackup
  obtain ⟨hnew, hold, _, helsewhere⟩ := commit_keeps_bytes_elsewhere mixedDisk "." .strict "a.h"
    loadedHeader "soloud_ma_x" ".backup" _ _ hfound (by decide) hcommit
  exact ⟨_, _, hfound, hcommit, hnew, hold (helsewhere (by decide))⟩

/-- A disk with a directory through which the way leads back to a file. -/
def ledBackDisk : Disk :=
  ⟨FileTree.empty.applyAll
    [.write ["a.h"] (Utf8.encode "ma_x".toList), .makeDirectory ["a.h.d"]], []⟩

theorem backup_overwritten_on_ledBackDisk :
    ∃ committed made, ledBackDisk.resolve "." .strict "a.h" = .found loadedHeader ∧
      ledBackDisk.commit ".d/../a.h" (loadedHeader.replacedBy "soloud_ma_x") =
        (.ok (some committed), made) ∧
      committed.backup.path = "./a.h.d/../a.h" ∧
      (ledBackDisk.applyAll made).readBytes committed.backup.path =
        .ok (Utf8.encode "soloud_ma_x".toList) ∧
      (ledBackDisk.applyAll made).readBytes committed.backup.path ≠ .ok loadedHeader.raw := by
  have hfound : ledBackDisk.resolve "." .strict "a.h" = .found loadedHeader := by decide +kernel
  have hfile : ledBackDisk.lookup "./a.h" = .ok (["a.h"], .file (Utf8.encode "ma_x".toList)) := by
    decide +kernel
  have hbackup : ledBackDisk.writeTarget (backupPath ".d/../a.h" "./a.h") = .ok ["a.h"] := by
    decide +kernel
  have hcommit := @commit_of_target ledBackDisk ["a.h"] ".d/../a.h"
    (loadedHeader.replacedBy "soloud_ma_x") ["a.h"] _ rfl hfile hbackup
  have hpath : backupPath ".d/../a.h" "./a.h" = "./a.h.d/../a.h" := by decide
  have hread := @readBytes_second ledBackDisk _ _ _ _ loadedHeader.raw
    (Utf8.encode "soloud_ma_x".toList) hbackup hbackup
  refine ⟨_, _, hfound, hcommit, hpath, hread, ?_⟩
  refine fun h ↦ absurd (hread.symm.trans h) ?_
  decide +kernel

end Disk
end SymbolRename
