import SymbolRename.Proofs.Restore.Entries
import SymbolRename.Proofs.Run.Effect

/-!
# What a restore leaves behind

A restore over separate entries returns, and its report can be read off the disk before it.  An entry
is restored if and only if its backup is a regular file and the entry itself can be written.  Then
it holds the bytes of its backup, which is removed if that was asked for.  Nothing else changes, and
the checks between finding a backup and copying it never fail.
-/

namespace SymbolRename

/-! ## The wording of errors -/

theorem EditError.head?_message_write (path : String) (refusal : Refusal) :
    (EditError.io .write path refusal).message.toList.head? = some 'w' := by
  simp [message, FileTask.name]

namespace Disk

variable {disk : Disk} {settings : RestoreSettings} {path : String}

/-! ## One entry -/

/-- The backup of the entry is a regular file, and the entry can be written. -/
structure Restores (disk : Disk) (settings : RestoreSettings) (path : String)
    (location backup : Location) (raw : Bytes) : Prop where
  saved : disk.lookup (settings.savedPath path) = .ok (backup, .file raw)
  target : disk.writeTarget (settings.absPath path) = .ok location

namespace RestoreEffect

variable {outcome : RestoreOutcome} {mutations : List Mutation}

theorem mutations_eq_nil (h : disk.RestoreEffect settings path outcome mutations)
    (hstatus : outcome.status ≠ .restored) : mutations = [] := by
  cases h with
  | restored => exact absurd rfl hstatus
  | _ => rfl

theorem restores (h : disk.RestoreEffect settings path outcome mutations)
    (hstatus : outcome.status = .restored) :
    ∃ location backup raw, disk.Restores settings path location backup raw ∧
      mutations = .write location raw :: if settings.removeBackups then [.remove backup] else [] := by
  cases h with
  | @restored location backup raw hsaved htarget =>
      exact ⟨location, backup, raw, ⟨hsaved, htarget⟩, rfl⟩
  | _ => cases hstatus

/-- Mutations are made for restored entries only, in their places and, where backups are removed, in
the places of these. -/
theorem place?_of_mem (h : disk.RestoreEffect settings path outcome mutations)
    {mutation : Mutation} (hmutation : mutation ∈ mutations) :
    outcome.status = .restored ∧ (disk.place? (settings.absPath path) = some mutation.location ∨
      settings.removeBackups = true ∧
        disk.place? (settings.savedPath path) = some mutation.location) := by
  by_cases hstatus : outcome.status = .restored
  · obtain ⟨location, backup, raw, hrestores, rfl⟩ := h.restores hstatus
    refine ⟨hstatus, ?_⟩
    rcases List.mem_cons.mp hmutation with rfl | hmutation
    · exact Or.inl (place?_of_writeTarget hrestores.target)
    · split at hmutation
      · next hremove =>
        obtain rfl := List.mem_singleton.mp hmutation
        exact Or.inr ⟨hremove, place?_of_lookup hrestores.saved⟩
      · cases hmutation
  · simp [h.mutations_eq_nil hstatus] at hmutation

/-- The status of an entry tells what stood there, and the other way round. -/
theorem status_iff (h : disk.RestoreEffect settings path outcome mutations) :
    (outcome.status = .noBackup ↔ disk.isFile (settings.savedPath path) = false) ∧
      (outcome.status = .failed ↔ disk.isFile (settings.savedPath path) = true ∧
        ∃ e, disk.writeTarget (settings.absPath path) = .error e) := by
  cases h with
  | noBackup hnone => simp [hnone]
  | blocked hsaved htarget =>
      have hfile := isFile_eq_true_iff.mpr ⟨_, _, hsaved⟩
      simp [hfile, htarget]
  | restored hsaved htarget =>
      have hfile := isFile_eq_true_iff.mpr ⟨_, _, hsaved⟩
      simp [hfile, htarget]

/-- Only the entry itself can be what stops a restore. -/
theorem message?_cases (h : disk.RestoreEffect settings path outcome mutations) :
    outcome.message? = none ∨ ∃ refusal,
      outcome.message? = some (EditError.io .write (settings.absPath path) refusal).message := by
  cases h with
  | noBackup => exact Or.inl rfl
  | blocked => exact Or.inr ⟨_, rfl⟩
  | restored => exact Or.inl rfl

theorem message?_ne (h : disk.RestoreEffect settings path outcome mutations) {error : EditError}
    (hhead : error.message.toList.head? ≠ some 'w') : outcome.message? ≠ some error.message := by
  intro hmessage
  rcases h.message?_cases with hnone | ⟨refusal, hwrite⟩
  · simp [hnone] at hmessage
  · rw [hwrite, Option.some.injEq] at hmessage
    rw [← hmessage, EditError.head?_message_write] at hhead
    exact hhead rfl

theorem path_eq (h : disk.RestoreEffect settings path outcome mutations) : outcome.path = path := by
  cases h <;> rfl

end RestoreEffect

/-! ## All entries -/

/-- The disk once the mutations of every entry on its own have been made. -/
def afterRestoring (disk : Disk) (settings : RestoreSettings) : Disk :=
  disk.applyAll (settings.files.flatMap fun path ↦ (disk.restoreEntry settings path).2)

theorem ownMutations_restoreEntry (hplain : PlainSuffix settings.backupSuffix) :
    disk.OwnMutations settings.root settings.backupSuffix
      fun path ↦ (disk.restoreEntry settings path).2 where
  owns path _ hmutation := (disk.restoreEffect_self settings path).owns hplain hmutation
  pairwise path := (disk.restoreEffect_self settings path).pairwise_location hplain

theorem sameDirectories_afterRestoring (disk : Disk) (settings : RestoreSettings) :
    disk.SameDirectories (disk.afterRestoring settings) := by
  apply sameDirectories_applyAll
  intro mutation hmutation
  obtain ⟨path, _, hmutation⟩ := List.mem_flatMap.mp hmutation
  exact (disk.restoreEffect_self settings path).fileMutation mutation hmutation

/-- Nothing changes but in the places of restored entries and of the backups that are removed. -/
theorem node?_afterRestoring {location : Location}
    (h : ∀ path ∈ settings.files, (disk.restoreEntry settings path).1.status = .restored →
      disk.place? (settings.absPath path) ≠ some location ∧
        (settings.removeBackups = true →
          disk.place? (settings.savedPath path) ≠ some location)) :
    (disk.afterRestoring settings).tree.node? location = disk.tree.node? location := by
  apply FileTree.node?_applyAll_of_notMem
  intro hmem
  obtain ⟨mutation, hmutation, rfl⟩ := List.mem_map.mp hmem
  obtain ⟨path, hpath, hmutation⟩ := List.mem_flatMap.mp hmutation
  obtain ⟨hstatus, hplace⟩ := (disk.restoreEffect_self settings path).place?_of_mem hmutation
  obtain ⟨hfile, hbackup⟩ := h path hpath hstatus
  rcases hplace with hplace | ⟨hremove, hplace⟩
  · exact hfile hplace
  · exact hbackup hremove hplace

section Separate

variable (hplain : PlainSuffix settings.backupSuffix)
  (hseparate : disk.Separate settings.root settings.backupSuffix settings.files)

include hplain hseparate

theorem restore_of_separate {tool : ToolInfo} (hfiles : settings.files ≠ []) :
    ∃ report made, disk.restore settings tool = .ok (report, made) ∧
      report.files = (settings.files.map fun path ↦ (disk.restoreEntry settings path).1) ∧
      made = settings.files.flatMap fun path ↦ (disk.restoreEntry settings path).2 := by
  have hentries := restoreEntries_of_separate hplain hseparate fun _ _ ↦ .refl disk _
  have hsetup : checkSetup settings.files settings.backupSuffix = .ok () := by
    simp [checkSetup, hfiles, hplain.nonempty]
  unfold restore
  rw [hsetup]
  exact ⟨_, _, rfl, congrArg Prod.fst hentries, congrArg Prod.snd hentries⟩

variable (hpath : path ∈ settings.files)

include hpath

/-- What stands in the places of a restored entry. -/
theorem node?_of_restores {location backup : Location} {raw : Bytes}
    (h : disk.Restores settings path location backup raw) :
    (disk.afterRestoring settings).tree.node? location = some (.file raw) ∧
      (disk.afterRestoring settings).tree.node? backup =
        if settings.removeBackups then none else some (.file raw) := by
  have hown := @ownMutations_restoreEntry disk settings hplain
  have heffect : disk.RestoreEffect settings path _ _ := .restored h.saved h.target
  have hmutations := congrArg Prod.snd heffect.restoreEntry_eq
  have hmade : ∀ mutation ∈ (disk.restoreEntry settings path).2,
      (disk.afterRestoring settings).tree.node? mutation.location = mutation.node? :=
    fun mutation hmutation ↦ hown.node?_applyAll hplain hseparate hpath hmutation _
  rw [hmutations] at hmade
  refine ⟨hmade (.write location raw) (by simp), ?_⟩
  cases hremove : settings.removeBackups with
  | true => exact hmade (.remove backup) (by simp [hremove])
  | false =>
      -- the backup is one of the places of this entry, but nothing is done there
      obtain ⟨_, _, _, _, hnode⟩ := lookup_eq_file_iff.mp h.saved
      have howns := owns_backup_of_writeTarget hplain h.target (writeTarget_of_lookup h.saved)
      have hne := ne_of_writeTarget hplain h.target (writeTarget_of_lookup h.saved)
      refine (hown.node?_applyAll_of_owns hplain hseparate hpath howns ?_ disk.tree).trans hnode
      rw [hmutations, hremove]
      simpa [Mutation.location] using hne.symm

theorem agreesAt_afterRestoring (hstatus : (disk.restoreEntry settings path).1.status ≠ .restored) :
    disk.AgreesAt (disk.afterRestoring settings) (settings.absPath path) :=
  (ownMutations_restoreEntry hplain).agreesAt_applyAll
    (fun other ↦ (disk.restoreEffect_self settings other).fileMutation) hseparate hpath
    ((disk.restoreEffect_self settings path).mutations_eq_nil hstatus)

theorem sameFileAt_afterRestoring
    (hstatus : (disk.restoreEntry settings path).1.status ≠ .restored) :
    disk.SameFileAt (disk.afterRestoring settings) (settings.savedPath path) :=
  (ownMutations_restoreEntry hplain).sameFileAt_applyAll
    (fun other ↦ (disk.restoreEffect_self settings other).fileMutation) hseparate hpath
    ((disk.restoreEffect_self settings path).mutations_eq_nil hstatus) hplain

end Separate

/-! ## The report and the disk -/

/-- What a report says of one entry: its status tells what stood there before the restore, a restored
entry holds the bytes of its backup, and one that failed is left alone. -/
structure RestoreAccounts (disk after : Disk) (settings : RestoreSettings) (path : String)
    (outcome : RestoreOutcome) : Prop where
  path_eq : outcome.path = path
  noBackup_iff : outcome.status = .noBackup ↔ disk.isFile (settings.savedPath path) = false
  failed_iff : outcome.status = .failed ↔ disk.isFile (settings.savedPath path) = true ∧
    ∃ e, disk.writeTarget (settings.absPath path) = .error e
  restored_iff : outcome.status = .restored ↔
    ¬(outcome.status = .noBackup ∨ outcome.status = .failed)
  of_restored : outcome.status = .restored → ∃ raw,
    disk.readBytes (settings.savedPath path) = .ok raw ∧
      after.readBytes (settings.absPath path) = .ok raw ∧
      (after.pathExists (settings.savedPath path) = false ↔ settings.removeBackups = true) ∧
      (settings.removeBackups = false → after.readBytes (settings.savedPath path) = .ok raw)
  of_failed : outcome.status = .failed →
    (∀ found, after.lookup (settings.absPath path) = .ok found ↔
      disk.lookup (settings.absPath path) = .ok found) ∧
    ∃ raw, disk.readBytes (settings.savedPath path) = .ok raw ∧
      after.readBytes (settings.savedPath path) = .ok raw
  not_mismatch : ∀ backup, outcome.message? ≠ some (EditError.backupMismatch backup).message
  not_missing : ∀ backup, outcome.message? ≠ some (EditError.backupMissing backup).message

theorem pathExists_of_removed {other : Disk} {location : Location} {raw : Bytes}
    (hsame : disk.SameDirectories other) (hfound : disk.lookup path = .ok (location, .file raw))
    (hnode : other.tree.node? location = none) : other.pathExists path = false := by
  obtain ⟨directory, name, hnames, rfl, _⟩ := lookup_eq_file_iff.mp hfound
  have hlookup := (hnames.same hsame).lookup_eq
  rw [hnode] at hlookup
  simp [pathExists, hlookup, Except.isOk, Except.toBool]

section Accounts

variable (hplain : PlainSuffix settings.backupSuffix)
  (hseparate : disk.Separate settings.root settings.backupSuffix settings.files)
  (hpath : path ∈ settings.files)

include hplain hseparate hpath

theorem readBytes_of_restored (hstatus : (disk.restoreEntry settings path).1.status = .restored) :
    ∃ raw, disk.readBytes (settings.savedPath path) = .ok raw ∧
      (disk.afterRestoring settings).readBytes (settings.absPath path) = .ok raw ∧
      ((disk.afterRestoring settings).pathExists (settings.savedPath path) = false ↔
        settings.removeBackups = true) ∧
      (settings.removeBackups = false →
        (disk.afterRestoring settings).readBytes (settings.savedPath path) = .ok raw) := by
  obtain ⟨location, backup, raw, hrestores, _⟩ :=
    (disk.restoreEffect_self settings path).restores hstatus
  have hsame := disk.sameDirectories_afterRestoring settings
  obtain ⟨hfile, hbackup⟩ := node?_of_restores hplain hseparate hpath hrestores
  refine ⟨raw, readBytes_of_lookup hrestores.saved,
    readBytes_of_lookup (lookup_of_same hsame hrestores.target hfile), ?_⟩
  cases hremove : settings.removeBackups with
  | true =>
      rw [hremove, if_pos rfl] at hbackup
      have hgone := pathExists_of_removed hsame hrestores.saved hbackup
      exact ⟨iff_of_true hgone rfl, by rintro ⟨⟩⟩
  | false =>
      rw [hremove, if_neg (by simp)] at hbackup
      have hkept := lookup_of_same hsame (writeTarget_of_lookup hrestores.saved) hbackup
      refine ⟨iff_of_false ?_ (by simp), fun _ ↦ readBytes_of_lookup hkept⟩
      simp [pathExists_of_lookup hkept]

theorem untouched_of_failed (hstatus : (disk.restoreEntry settings path).1.status = .failed) :
    (∀ found, (disk.afterRestoring settings).lookup (settings.absPath path) = .ok found ↔
      disk.lookup (settings.absPath path) = .ok found) ∧
    ∃ raw, disk.readBytes (settings.savedPath path) = .ok raw ∧
      (disk.afterRestoring settings).readBytes (settings.savedPath path) = .ok raw := by
  have hnot : (disk.restoreEntry settings path).1.status ≠ .restored := by simp [hstatus]
  have hagrees := agreesAt_afterRestoring hplain hseparate hpath hnot
  have hsaved := sameFileAt_afterRestoring hplain hseparate hpath hnot
  refine ⟨fun found ↦ ⟨hagrees.symm.lookup, hagrees.lookup⟩, ?_⟩
  obtain ⟨hfile, _⟩ := (disk.restoreEffect_self settings path).status_iff.2.mp hstatus
  obtain ⟨backup, raw, hfound⟩ := isFile_eq_true_iff.mp hfile
  exact ⟨raw, readBytes_of_lookup hfound, readBytes_of_lookup (hsaved.lookup.mpr hfound)⟩

theorem accounts_afterRestoring :
    disk.RestoreAccounts (disk.afterRestoring settings) settings path
      (disk.restoreEntry settings path).1 := by
  have heffect := disk.restoreEffect_self settings path
  obtain ⟨hnone, hfailed⟩ := heffect.status_iff
  refine ⟨heffect.path_eq, hnone, hfailed, ?_, ?_, ?_, ?_, ?_⟩
  · cases (disk.restoreEntry settings path).1.status <;> simp
  · exact readBytes_of_restored hplain hseparate hpath
  · exact untouched_of_failed hplain hseparate hpath
  · intro backup
    exact heffect.message?_ne (by simp [EditError.message])
  · intro backup
    exact heffect.message?_ne (by simp [EditError.message])

end Accounts

/-- A restore over separate entries returns.  Its report tells of every entry what stood there
before, and the disk changes only where it reports restored entries, and at the backups that were to
be removed. -/
theorem restore_accounts_for_disk (disk : Disk) (settings : RestoreSettings) (tool : ToolInfo)
    (hfiles : settings.files ≠ []) (hsuffix : settings.backupSuffix ≠ "")
    (hslash : '/' ∉ settings.backupSuffix.toList)
    (hseparate : disk.Separate settings.root settings.backupSuffix settings.files) :
    ∃ report made, disk.restore settings tool = .ok (report, made) ∧
      List.Forall₂ (disk.RestoreAccounts (disk.applyAll made) settings) settings.files
        report.files ∧
      ∀ location, (∀ outcome ∈ report.files, outcome.status = .restored →
          disk.place? (settings.absPath outcome.path) ≠ some location ∧
            (settings.removeBackups = true →
              disk.place? (settings.savedPath outcome.path) ≠ some location)) →
        (disk.applyAll made).tree.node? location = disk.tree.node? location := by
  have hplain : PlainSuffix settings.backupSuffix := ⟨hsuffix, hslash⟩
  obtain ⟨report, made, hrestore, hreport, rfl⟩ :=
    @restore_of_separate disk settings hplain hseparate tool hfiles
  refine ⟨report, _, hrestore, ?_, ?_⟩
  · rw [hreport, List.forall₂_map_right_iff, List.forall₂_same]
    intro path hpath
    exact accounts_afterRestoring hplain hseparate hpath
  · intro location helsewhere
    apply node?_afterRestoring
    intro path hpath hstatus
    have hmem : (disk.restoreEntry settings path).1 ∈ report.files :=
      hreport ▸ List.mem_map_of_mem hpath
    have hplaces := helsewhere _ hmem hstatus
    rwa [(disk.restoreEffect_self settings path).path_eq] at hplaces

/-- A disk with the backup of a file that has been deleted, which is no text, a backup beside a
directory, and a file without a backup. -/
def savedDisk : Disk :=
  ⟨FileTree.empty.applyAll
    [.write ["a.h.backup"] [0x6D, 0x61, 0x5F, 0xFF], .makeDirectory ["d"],
      .write ["d.backup"] (Utf8.encode "ma_x".toList), .write ["e.h"] (Utf8.encode "e".toList)],
    []⟩

def savedSettings : RestoreSettings := ⟨".", ["a.h", "d", "e.h"], ".backup", true⟩

theorem restore_accounts_for_savedDisk :
    ∃ report made, savedDisk.restore savedSettings ⟨"nsprefix", none⟩ = .ok (report, made) ∧
      List.Forall₂ (savedDisk.RestoreAccounts (savedDisk.applyAll made) savedSettings)
        savedSettings.files report.files := by
  obtain ⟨report, made, hrestore, haccounts, _⟩ := restore_accounts_for_disk savedDisk
    savedSettings ⟨"nsprefix", none⟩ (by decide) (by decide) (by decide) (by decide +kernel)
  exact ⟨report, made, hrestore, haccounts⟩

end Disk
end SymbolRename
