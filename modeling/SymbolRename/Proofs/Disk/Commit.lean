import SymbolRename.Proofs.Disk.Suffix

/-!
# Saving a file and copying it back

What is written under a path can be read back under it.  So the checks between the steps of a commit
always pass: a commit of a changed file fails if and only if its backup cannot be written, and then
it has changed nothing.  The checks of a restore pass for the same reason, and it fails only where
the file itself cannot be written.
-/

namespace SymbolRename

namespace Disk

variable {disk : Disk} {path : String} {location : Location} {bytes : Bytes}

theorem lookup_write (h : disk.writeTarget path = .ok location) (bytes : Bytes) :
    (disk.applyAll [.write location bytes]).lookup path = .ok (location, .file bytes) := by
  obtain ⟨directory, name, hnames, hlocation, hnode⟩ := writeTarget_eq_ok_iff.mp h
  have hmutation : disk.FileMutation (.write location bytes) := hnode
  refine lookup_eq_file_iff.mpr
    ⟨directory, name, hnames.same hmutation.sameDirectories, hlocation, ?_⟩
  exact @FileTree.node?_applyAll_of_mem disk.tree [.write location bytes] (.write location bytes)
    (by simp) (by simp) hmutation.location_ne_nil

theorem readBytes_of_lookup (h : disk.lookup path = .ok (location, .file bytes)) :
    disk.readBytes path = .ok bytes := by
  simp [readBytes, h]

theorem readBytes_eq_ok_iff :
    disk.readBytes path = .ok bytes ↔
      ∃ location, disk.lookup path = .ok (location, .file bytes) := by
  constructor
  · intro h
    rw [readBytes] at h
    split at h
    · cases h
    · cases h
    · next there found hfound =>
      cases h
      exact ⟨there, hfound⟩
  · rintro ⟨location, h⟩
    exact readBytes_of_lookup h

theorem writeBytes_of_target (h : disk.writeTarget path = .ok location) (bytes : Bytes) :
    disk.writeBytes path bytes = .ok (.write location bytes) := by
  simp [writeBytes, h]

theorem writeTarget_of_same {other : Disk} (hsame : disk.SameDirectories other)
    (h : disk.writeTarget path = .ok location) : other.writeTarget path = .ok location := by
  obtain ⟨directory, name, hnames, hlocation, hnode⟩ := writeTarget_eq_ok_iff.mp h
  exact writeTarget_eq_ok_iff.mpr ⟨directory, name, hnames.same hsame, hlocation,
    fun hdirectory ↦ hnode ((hsame.directory location).mp hdirectory)⟩

section Commit

variable {suffix : String} {file : SourceFile} {backup : Location}

/-- The backup that was written is the one that is read back. -/
theorem snapshot_of_target
    (h : disk.writeTarget (backupPath suffix file.absPath) = .ok backup) :
    disk.snapshot suffix file =
      (.ok (.ofBytes suffix file.path file.absPath file.raw), [.write backup file.raw]) := by
  have hread := readBytes_of_lookup (lookup_write h file.raw)
  simp [snapshot, writeBytes_of_target h, hread]

theorem snapshot_of_error {e : OsError}
    (h : disk.writeTarget (backupPath suffix file.absPath) = .error e) :
    disk.snapshot suffix file =
      (.error (.io .writeBackup (backupPath suffix file.absPath) ⟨.create, e⟩), []) := by
  simp [snapshot, writeBytes, h]

/-- A commit whose backup can be written goes through. -/
theorem commit_of_target {old : Bytes} (hchanged : file.changed = true)
    (hfile : disk.lookup file.absPath = .ok (location, .file old))
    (h : disk.writeTarget (backupPath suffix file.absPath) = .ok backup) :
    disk.commit suffix file =
      (.ok (some ⟨.ofBytes suffix file.path file.absPath file.raw,
          sha256 (Utf8.encode file.transformed.toList)⟩),
        [.write backup file.raw, .write location (Utf8.encode file.transformed.toList)]) := by
  have hsame := (fileMutation_of_writeTarget file.raw h).sameDirectories
  have hwrite := writeTarget_of_same hsame (writeTarget_of_lookup hfile)
  simp [commit, hchanged, snapshot_of_target h, writeBytes_of_target hwrite]

/-- A commit whose backup cannot be written does nothing. -/
theorem commit_of_error {e : OsError} (hchanged : file.changed = true)
    (h : disk.writeTarget (backupPath suffix file.absPath) = .error e) :
    disk.commit suffix file =
      (.error (.io .writeBackup (backupPath suffix file.absPath) ⟨.create, e⟩), []) := by
  simp [commit, hchanged, snapshot_of_error h]

end Commit

/-! ## Copying a backup back -/

theorem findBackup_of_lookup {backup : Location} {raw : Bytes} {suffix source absPath : String}
    (h : disk.lookup (backupPath suffix absPath) = .ok (backup, .file raw)) :
    disk.findBackup suffix source absPath =
      .ok (some (.ofBytes suffix source absPath raw)) := by
  have hfile : disk.isFile (backupPath suffix absPath) = true :=
    isFile_eq_true_iff.mpr ⟨backup, raw, h⟩
  simp [findBackup, hfile, readBytes_of_lookup h]

/-- The backup is still there once its file has been written. -/
theorem removeFile_after_write {location backup : Location} {raw : Bytes} {saved : String}
    (hsaved : disk.lookup saved = .ok (backup, .file raw))
    (htarget : disk.writeTarget path = .ok location) :
    (disk.applyAll [.write location raw]).removeFile saved = .ok (.remove backup) := by
  have hwrite := fileMutation_of_writeTarget raw htarget
  obtain ⟨directory, name, hnames, hbackup, hnode⟩ := lookup_eq_file_iff.mp hsaved
  have hnode' : (disk.applyAll [.write location raw]).tree.node? backup = some (.file raw) := by
    by_cases hsame : backup = location
    · rw [hsame]
      exact @FileTree.node?_applyAll_of_mem disk.tree [.write location raw] (.write location raw)
        (by simp) (by simp) hwrite.location_ne_nil
    · have hnotMem : backup ∉ [Mutation.write location raw].map Mutation.location := by
        simpa [Mutation.location] using hsame
      rw [applyAll_tree, FileTree.node?_applyAll_of_notMem hnotMem]
      exact hnode
  have hlookup : (disk.applyAll [.write location raw]).lookup saved = .ok (backup, .file raw) :=
    lookup_eq_file_iff.mpr ⟨directory, name, hnames.same hwrite.sameDirectories, hbackup, hnode'⟩
  simp [removeFile, removeTarget, hlookup, bind, Except.bind]

theorem restoreBackup_of_error {record : BackupRecord} {backup : Location} {raw : Bytes}
    {e : OsError} (remove : Bool) (hsaved : disk.lookup record.path = .ok (backup, .file raw))
    (hdigest : sha256 raw = record.sha256)
    (htarget : disk.writeTarget record.absPath = .error e) :
    disk.restoreBackup record remove = (.error (.io .write record.absPath ⟨.create, e⟩), []) := by
  have hfile := isFile_eq_true_iff.mpr ⟨backup, raw, hsaved⟩
  unfold restoreBackup
  rw [if_pos hfile, readBytes_of_lookup hsaved]
  simp only [hdigest, if_true, writeBytes, htarget]

theorem restoreBackup_of_target {record : BackupRecord} {location backup : Location}
    {raw : Bytes} (remove : Bool) (hsaved : disk.lookup record.path = .ok (backup, .file raw))
    (hdigest : sha256 raw = record.sha256)
    (htarget : disk.writeTarget record.absPath = .ok location) :
    ∃ file, disk.restoreBackup record remove =
      (.ok file, .write location raw :: if remove then [.remove backup] else []) := by
  have hfile := isFile_eq_true_iff.mpr ⟨backup, raw, hsaved⟩
  have hremove := removeFile_after_write hsaved htarget
  unfold restoreBackup
  rw [if_pos hfile, readBytes_of_lookup hsaved]
  simp only [hdigest, if_true, writeBytes, htarget, hremove]
  cases remove with
  | false => exact ⟨_, rfl⟩
  | true => exact ⟨_, rfl⟩

end Disk
end SymbolRename
