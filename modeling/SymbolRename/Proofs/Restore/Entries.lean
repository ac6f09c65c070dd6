import SymbolRename.Proofs.Disk.Commit
import SymbolRename.Proofs.Disk.Separate
import SymbolRename.Restore

/-!
# Restoring separate entries

`Disk.RestoreEffect` says all that a restore can make of one entry of its list.  Only the file under
the path of the backup is read, and only directories decide whether the entry itself can be written.
So a restore over separate entries makes of each of them what it would make of it alone.
-/

namespace SymbolRename

def RestoreSettings.absPath (settings : RestoreSettings) (path : String) : String :=
  joinPath settings.root path

def RestoreSettings.savedPath (settings : RestoreSettings) (path : String) : String :=
  backupPath settings.backupSuffix (settings.absPath path)

namespace Disk

/-! ## One entry -/

/-- What a restore may make of one entry: the outcome and the mutations. -/
inductive RestoreEffect (disk : Disk) (settings : RestoreSettings) (path : String) :
    RestoreOutcome → List Mutation → Prop where
  | noBackup (hsaved : disk.isFile (settings.savedPath path) = false) :
      RestoreEffect disk settings path
        ⟨path, settings.savedPath path, .noBackup, none, false⟩ []
  /-- The entry cannot be written, and nothing is done. -/
  | blocked {backup : Location} {raw : Bytes} {e : OsError}
      (hsaved : disk.lookup (settings.savedPath path) = .ok (backup, .file raw))
      (htarget : disk.writeTarget (settings.absPath path) = .error e) :
      RestoreEffect disk settings path
        ⟨path, settings.savedPath path, .failed,
          some (EditError.io .write (settings.absPath path) ⟨.create, e⟩).message, false⟩ []
  | restored {location backup : Location} {raw : Bytes}
      (hsaved : disk.lookup (settings.savedPath path) = .ok (backup, .file raw))
      (htarget : disk.writeTarget (settings.absPath path) = .ok location) :
      RestoreEffect disk settings path
        ⟨path, settings.savedPath path, .restored, none, settings.removeBackups⟩
        (.write location raw :: if settings.removeBackups then [.remove backup] else [])

variable {start disk : Disk} {settings : RestoreSettings} {path : String} {files : List String}

theorem RestoreEffect.restoreEntry_eq {outcome : RestoreOutcome} {mutations : List Mutation}
    (h : disk.RestoreEffect settings path outcome mutations) :
    disk.restoreEntry settings path = (outcome, mutations) := by
  cases h with
  | noBackup hsaved =>
      have hfind : disk.findBackup settings.backupSuffix path (joinPath settings.root path) =
          .ok none := if_neg (Bool.eq_false_iff.mp hsaved)
      unfold restoreEntry
      simp only [entryPath_eq_joinPath, hfind]
      rfl
  | @blocked backup raw e hsaved htarget =>
      have hfind : disk.findBackup settings.backupSuffix path (joinPath settings.root path) =
          .ok (some (.ofBytes settings.backupSuffix path (joinPath settings.root path) raw)) :=
        findBackup_of_lookup hsaved
      have hblocked := @restoreBackup_of_error disk
        (.ofBytes settings.backupSuffix path (joinPath settings.root path) raw) backup raw e
        settings.removeBackups hsaved rfl htarget
      unfold restoreEntry
      simp only [entryPath_eq_joinPath, hfind, hblocked]
      rfl
  | @restored location backup raw hsaved htarget =>
      have hfind : disk.findBackup settings.backupSuffix path (joinPath settings.root path) =
          .ok (some (.ofBytes settings.backupSuffix path (joinPath settings.root path) raw)) :=
        findBackup_of_lookup hsaved
      obtain ⟨file, hrestored⟩ := @restoreBackup_of_target disk
        (.ofBytes settings.backupSuffix path (joinPath settings.root path) raw) location backup raw
        settings.removeBackups hsaved rfl htarget
      unfold restoreEntry
      simp only [entryPath_eq_joinPath, hfind, hrestored]
      rfl

theorem exists_restoreEffect (disk : Disk) (settings : RestoreSettings) (path : String) :
    ∃ outcome mutations, disk.RestoreEffect settings path outcome mutations := by
  cases hfile : disk.isFile (settings.savedPath path) with
  | false => exact ⟨_, _, .noBackup hfile⟩
  | true =>
      obtain ⟨backup, raw, hsaved⟩ := isFile_eq_true_iff.mp hfile
      cases htarget : disk.writeTarget (settings.absPath path) with
      | error e => exact ⟨_, _, .blocked hsaved htarget⟩
      | ok location => exact ⟨_, _, .restored hsaved htarget⟩

namespace RestoreEffect

variable {other : Disk} {outcome : RestoreOutcome} {mutations : List Mutation}

theorem fileMutation (h : disk.RestoreEffect settings path outcome mutations) :
    ∀ mutation ∈ mutations, disk.FileMutation mutation := by
  cases h with
  | noBackup _ => simp
  | blocked _ _ => simp
  | @restored location backup raw hsaved htarget =>
      intro mutation hmutation
      rcases List.mem_cons.mp hmutation with rfl | hmutation
      · exact fileMutation_of_writeTarget raw htarget
      · obtain ⟨_, _, _, _, hnode⟩ := lookup_eq_file_iff.mp hsaved
        split at hmutation
        · obtain rfl := List.mem_singleton.mp hmutation
          simp [FileMutation, hnode]
        · cases hmutation

/-- Mutations are made only at places that the entry owns. -/
theorem owns (hplain : PlainSuffix settings.backupSuffix)
    (h : disk.RestoreEffect settings path outcome mutations) {mutation : Mutation}
    (hmutation : mutation ∈ mutations) :
    disk.Owns settings.backupSuffix (settings.absPath path) mutation.location := by
  cases h with
  | noBackup _ => cases hmutation
  | blocked _ _ => cases hmutation
  | @restored location backup raw hsaved htarget =>
      rcases List.mem_cons.mp hmutation with rfl | hmutation
      · exact owns_of_writeTarget htarget
      · split at hmutation
        · obtain rfl := List.mem_singleton.mp hmutation
          exact owns_backup_of_writeTarget hplain htarget (writeTarget_of_lookup hsaved)
        · cases hmutation

theorem pairwise_location (hplain : PlainSuffix settings.backupSuffix)
    (h : disk.RestoreEffect settings path outcome mutations) :
    mutations.Pairwise fun first second ↦ first.location ≠ second.location := by
  cases h with
  | noBackup _ => simp
  | blocked _ _ => simp
  | @restored location backup raw hsaved htarget =>
      have hne := ne_of_writeTarget hplain htarget (writeTarget_of_lookup hsaved)
      split
      · simpa [Mutation.location] using hne
      · simp

/-- On a disk with the same file under the path of the backup, the same is made of the entry. -/
theorem of_sameFileAt (hplain : PlainSuffix settings.backupSuffix)
    (hsame : disk.SameFileAt other (settings.savedPath path))
    (h : disk.RestoreEffect settings path outcome mutations) :
    other.RestoreEffect settings path outcome mutations := by
  have htarget {backup : Location} {raw : Bytes}
      (hsaved : disk.lookup (settings.savedPath path) = .ok (backup, .file raw)) :
      other.writeTarget (settings.absPath path) = disk.writeTarget (settings.absPath path) := by
    obtain ⟨directory, name, hnames, _, _⟩ := lookup_eq_file_iff.mp hsaved
    exact hnames.writeTarget_stem_same hsame.toSameDirectories hplain
  cases h with
  | noBackup hsaved => exact .noBackup (hsame.isFile_eq.trans hsaved)
  | blocked hsaved he => exact .blocked (hsame.lookup.mpr hsaved) ((htarget hsaved).trans he)
  | restored hsaved hlocation =>
      exact .restored (hsame.lookup.mpr hsaved) ((htarget hsaved).trans hlocation)

end RestoreEffect

/-! ## All entries -/

theorem restoreEffect_self (disk : Disk) (settings : RestoreSettings) (path : String) :
    disk.RestoreEffect settings path (disk.restoreEntry settings path).1
      (disk.restoreEntry settings path).2 := by
  obtain ⟨outcome, mutations, h⟩ := disk.exists_restoreEffect settings path
  rw [h.restoreEntry_eq]
  exact h

/-- The outcomes of a restore over separate entries are those of the entries on their own, and so
are its mutations. -/
theorem restoreEntries_of_separate (hplain : PlainSuffix settings.backupSuffix)
    (hseparate : start.Separate settings.root settings.backupSuffix files)
    (hsame : ∀ path ∈ files, start.SameFileAt disk (settings.savedPath path)) :
    disk.restoreEntries settings files =
      (files.map fun path ↦ (start.restoreEntry settings path).1,
        files.flatMap fun path ↦ (start.restoreEntry settings path).2) := by
  induction files generalizing disk with
  | nil => rfl
  | cons path files ih =>
      obtain ⟨hfirst, hlater⟩ := List.pairwise_cons.mp hseparate
      have hstart := start.restoreEffect_self settings path
      have hdisk := hstart.of_sameFileAt hplain (hsame path (by simp))
      have hsame' : ∀ other ∈ files, start.SameFileAt
          (disk.applyAll (start.restoreEntry settings path).2) (settings.savedPath other) := by
        intro other hother
        refine (hsame other (List.mem_cons_of_mem path hother)).applyAll hdisk.fileMutation ?_
        intro directory name hnames hmem
        obtain ⟨mutation, hmutation, heq⟩ := List.mem_map.mp hmem
        exact (hstart.owns hplain hmutation).ne_backup hplain (hfirst other hother) hnames heq
      rw [restoreEntries, hdisk.restoreEntry_eq]
      simp only [ih hlater hsame', List.map_cons, List.flatMap_cons]

end Disk
end SymbolRename
