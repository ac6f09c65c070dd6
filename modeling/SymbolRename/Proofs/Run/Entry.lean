import SymbolRename.Proofs.Disk.Commit
import SymbolRename.Proofs.Disk.Separate
import SymbolRename.Run

/-!
# One entry of a run

`Disk.EntryEffect` says all that a run can make of one entry of its list: the outcome that is
reported and the mutations that are made, for whatever stands at the entry when the run comes to it.
The disk is only read to find out which case it is.
-/

namespace SymbolRename

def RunSettings.absPath (settings : RunSettings) (path : String) : String :=
  joinPath settings.root path

def RunSettings.savedPath (settings : RunSettings) (path : String) : String :=
  backupPath settings.backupSuffix (settings.absPath path)

def Decoded.renamed (decoded : Decoded) : List Char :=
  (namespaceText decoded.text.toList).text

/-- What is reported of every file that could be loaded, whatever becomes of it. -/
def FileOutcome.loaded (path : String) (raw : Bytes) (decoded : Decoded) : FileOutcome :=
  { FileOutcome.bare path .unchanged with
    sha256Before? := some (sha256 raw)
    counts? := some (countNamespaced decoded.renamed)
    lossyDecode := decoded.lossy }

/-- The entry is a regular file that can be decoded. -/
structure Disk.Loads (disk : Disk) (settings : RunSettings) (path : String) (location : Location)
    (raw : Bytes) (decoded : Decoded) : Prop where
  lookup : disk.lookup (settings.absPath path) = .ok (location, .file raw)
  decode : decodeBytes settings.policy raw = .ok decoded

/-- The entry is a file with names to rename, and its backup can be written. -/
structure Disk.Changes (disk : Disk) (settings : RunSettings) (path : String)
    (location backup : Location) (raw : Bytes) (decoded : Decoded) : Prop extends
    disk.Loads settings path location raw decoded where
  differs : decoded.renamed ≠ decoded.text.toList
  target : disk.writeTarget (settings.savedPath path) = .ok backup

/-- What a run may make of one entry: the outcome and the mutations. -/
inductive Disk.EntryEffect (disk : Disk) (settings : RunSettings) (path : String) :
    FileOutcome → List Mutation → Prop where
  | missing (hmissing : disk.pathExists (settings.absPath path) = false) :
      EntryEffect disk settings path (.missing path) []
  | directory {location : Location}
      (hfound : disk.lookup (settings.absPath path) = .ok (location, .directory)) :
      EntryEffect disk settings path
        (.failed path
          (EditError.io .read (settings.absPath path) ⟨.readFrom, .isDirectory⟩).message) []
  | undecodable {location : Location} {raw : Bytes} {validUpTo : Nat}
      (hfound : disk.lookup (settings.absPath path) = .ok (location, .file raw))
      (hdecode : decodeBytes settings.policy raw = .error validUpTo) :
      EntryEffect disk settings path
        (.failed path (EditError.decode (settings.absPath path) validUpTo).message) []
  | unchanged {location : Location} {raw : Bytes} {decoded : Decoded}
      (hloads : disk.Loads settings path location raw decoded)
      (hsame : decoded.renamed = decoded.text.toList) :
      EntryEffect disk settings path
        { FileOutcome.loaded path raw decoded with sha256After? := some (sha256 raw) } []
  | pending {location : Location} {raw : Bytes} {decoded : Decoded}
      (hloads : disk.Loads settings path location raw decoded)
      (hdiffers : decoded.renamed ≠ decoded.text.toList) (hdry : settings.dryRun = true) :
      EntryEffect disk settings path
        { FileOutcome.loaded path raw decoded with
          status := .pending
          sha256After? := some (sha256 (Utf8.encode decoded.renamed))
          patch? := some
            (SourceFile.ofDecoded path (settings.absPath path) raw decoded).namespaced.patch } []
  /-- The backup cannot be written, and the file is left alone. -/
  | unsaved {location : Location} {raw : Bytes} {decoded : Decoded} {e : OsError}
      (hloads : disk.Loads settings path location raw decoded)
      (hdiffers : decoded.renamed ≠ decoded.text.toList) (hwrite : settings.dryRun = false)
      (htarget : disk.writeTarget (settings.savedPath path) = .error e) :
      EntryEffect disk settings path
        { FileOutcome.loaded path raw decoded with
          status := .failed
          message? := some
            (EditError.io .writeBackup (settings.savedPath path) ⟨.create, e⟩).message
          counts? := none } []
  | changed {location backup : Location} {raw : Bytes} {decoded : Decoded}
      (hloads : disk.Loads settings path location raw decoded)
      (hdiffers : decoded.renamed ≠ decoded.text.toList) (hwrite : settings.dryRun = false)
      (htarget : disk.writeTarget (settings.savedPath path) = .ok backup) :
      EntryEffect disk settings path
        { FileOutcome.loaded path raw decoded with
          status := .changed
          backupPath? := some (settings.savedPath path)
          sha256After? := some (sha256 (Utf8.encode decoded.renamed)) }
        [.write backup raw, .write location (Utf8.encode decoded.renamed)]

/-- The events of an entry: nothing is heard of a missing file before its outcome. -/
def entryEvents (path : String) (outcome : FileOutcome) (mutations : List Mutation) :
    List RunEvent :=
  if outcome.status = .missing then [.finished outcome]
  else .started path :: mutations.map .mutation ++ [.finished outcome]

namespace Disk

variable {disk : Disk} {settings : RunSettings} {path : String}

/-! ## Resolving an entry -/

theorem resolve_of_missing (h : disk.pathExists (settings.absPath path) = false) :
    disk.resolve settings.root settings.policy path =
      .missing path (settings.absPath path) := by
  rw [RunSettings.absPath] at h
  simp [resolve, entryPath_eq_joinPath, h, RunSettings.absPath]

theorem resolve_of_lookup {found : Location × Node}
    (h : disk.lookup (settings.absPath path) = .ok found) :
    disk.resolve settings.root settings.policy path =
      match disk.load settings.policy path (settings.absPath path) with
      | .ok file => .found file
      | .error e => .failed path e := by
  have hexists := pathExists_of_lookup h
  rw [RunSettings.absPath] at hexists
  simp only [resolve, entryPath_eq_joinPath, hexists, RunSettings.absPath]
  rfl

theorem exists_lookup_of_load {policy : DecodePolicy} {absPath : String} {file : SourceFile}
    (h : disk.load policy path absPath = .ok file) :
    ∃ location decoded, disk.lookup absPath = .ok (location, .file file.raw) ∧
      file = .ofDecoded path absPath file.raw decoded := by
  rw [load] at h
  split at h
  · cases h
  · next raw hread =>
    split at h
    · cases h
    · next decoded _ =>
      cases h
      obtain ⟨location, hfound⟩ := readBytes_eq_ok_iff.mp hread
      exact ⟨location, decoded, hfound, rfl⟩

theorem Loads.resolve_eq {location : Location} {raw : Bytes} {decoded : Decoded}
    (h : disk.Loads settings path location raw decoded) :
    disk.resolve settings.root settings.policy path =
      .found (.ofDecoded path (settings.absPath path) raw decoded) := by
  simp [resolve_of_lookup h.lookup, load, readBytes_of_lookup h.lookup, decodeFile, h.decode]

end Disk

theorem SourceFile.namespaced_ofDecoded (path absPath : String) (raw : Bytes)
    (decoded : Decoded) :
    (SourceFile.ofDecoded path absPath raw decoded).namespaced =
      ⟨path, absPath, raw, decoded.text, decoded.lossy, String.ofList decoded.renamed,
        decoded.renamed != decoded.text.toList⟩ := rfl

namespace Disk

variable {disk : Disk} {settings : RunSettings} {path : String}

theorem Loads.runEntry_eq {location : Location} {raw : Bytes} {decoded : Decoded}
    {outcome : FileOutcome} {mutations : List Mutation}
    (h : disk.Loads settings path location raw decoded)
    (hfile : disk.namespaceFile settings (.ofDecoded path (settings.absPath path) raw decoded) =
      (outcome, mutations)) (hstatus : outcome.status ≠ .missing) :
    disk.runEntry settings path = (outcome, entryEvents path outcome mutations) := by
  unfold runEntry
  rw [h.resolve_eq, entryEvents, if_neg hstatus]
  simp only [hfile]
  rfl

/-- The relation describes the program: whatever case an entry is in, it is processed so. -/
theorem EntryEffect.runEntry_eq {outcome : FileOutcome} {mutations : List Mutation}
    (h : disk.EntryEffect settings path outcome mutations) :
    disk.runEntry settings path = (outcome, entryEvents path outcome mutations) := by
  cases h with
  | missing hmissing =>
      unfold runEntry
      rw [resolve_of_missing hmissing]
      rfl
  | directory hfound =>
      unfold runEntry
      rw [resolve_of_lookup hfound]
      simp only [load, readBytes, hfound]
      rfl
  | undecodable hfound hdecode =>
      unfold runEntry
      rw [resolve_of_lookup hfound]
      simp only [load, readBytes_of_lookup hfound, decodeFile, hdecode]
      rfl
  | unchanged hloads hsame =>
      refine hloads.runEntry_eq ?_ (by simp [FileOutcome.loaded, FileOutcome.bare])
      unfold namespaceFile
      rw [SourceFile.namespaced_ofDecoded]
      simp [hsame, FileOutcome.loaded]
  | pending hloads hdiffers hdry =>
      refine hloads.runEntry_eq ?_ (by simp)
      unfold namespaceFile
      rw [SourceFile.namespaced_ofDecoded]
      simp [hdiffers, hdry, FileOutcome.loaded]
  | @unsaved location raw decoded e hloads hdiffers hwrite htarget =>
      refine hloads.runEntry_eq ?_ (by simp)
      have hcommit := @commit_of_error disk settings.backupSuffix
        (SourceFile.ofDecoded path (settings.absPath path) raw decoded).namespaced e
        (by simpa [SourceFile.namespaced_ofDecoded] using hdiffers) htarget
      unfold namespaceFile
      rw [SourceFile.namespaced_ofDecoded] at hcommit ⊢
      simp [hcommit, hdiffers, hwrite, FileOutcome.loaded, RunSettings.savedPath]
  | @changed location backup raw decoded hloads hdiffers hwrite htarget =>
      refine hloads.runEntry_eq ?_ (by simp)
      have hcommit := @commit_of_target disk location settings.backupSuffix
        (SourceFile.ofDecoded path (settings.absPath path) raw decoded).namespaced backup raw
        (by simpa [SourceFile.namespaced_ofDecoded] using hdiffers) hloads.lookup htarget
      unfold namespaceFile
      rw [SourceFile.namespaced_ofDecoded] at hcommit ⊢
      simp [hcommit, hdiffers, hwrite, FileOutcome.loaded, RunSettings.savedPath,
        BackupRecord.ofBytes]

theorem exists_entryEffect (disk : Disk) (settings : RunSettings) (path : String) :
    ∃ outcome mutations, disk.EntryEffect settings path outcome mutations := by
  cases hfound : disk.lookup (settings.absPath path) with
  | error e =>
      exact ⟨_, _, .missing (by simp [pathExists, hfound, Except.isOk, Except.toBool])⟩
  | ok found =>
      obtain ⟨location, node⟩ := found
      cases node with
      | directory => exact ⟨_, _, .directory hfound⟩
      | file raw =>
          cases hdecode : decodeBytes settings.policy raw with
          | error validUpTo => exact ⟨_, _, .undecodable hfound hdecode⟩
          | ok decoded =>
              have hloads : disk.Loads settings path location raw decoded := ⟨hfound, hdecode⟩
              by_cases hsame : decoded.renamed = decoded.text.toList
              · exact ⟨_, _, .unchanged hloads hsame⟩
              · cases hdry : settings.dryRun with
                | true => exact ⟨_, _, .pending hloads hsame hdry⟩
                | false =>
                    cases htarget : disk.writeTarget (settings.savedPath path) with
                    | error e => exact ⟨_, _, .unsaved hloads hsame hdry htarget⟩
                    | ok backup => exact ⟨_, _, .changed hloads hsame hdry htarget⟩

/-! ## Entries that are changed -/

namespace Changes

variable {location backup : Location} {raw : Bytes} {decoded : Decoded}

theorem location_ne (hplain : PlainSuffix settings.backupSuffix)
    (h : disk.Changes settings path location backup raw decoded) : location ≠ backup :=
  ne_of_writeTarget hplain (writeTarget_of_lookup h.lookup) h.target

theorem place?_eq {start : Disk} (h : disk.Changes settings path location backup raw decoded)
    (hsame : start.SameDirectories disk) :
    start.place? (settings.absPath path) = some location ∧
      start.place? (settings.savedPath path) = some backup := by
  rw [← hsame.place?_eq, ← hsame.place?_eq]
  exact ⟨place?_of_lookup h.lookup, place?_of_writeTarget h.target⟩

/-- The file is written last, so it holds its renamed text. -/
theorem lookup_after (h : disk.Changes settings path location backup raw decoded) :
    (disk.applyAll [.write backup raw, .write location (Utf8.encode decoded.renamed)]).lookup
      (settings.absPath path) = .ok (location, .file (Utf8.encode decoded.renamed)) := by
  rw [applyAll_cons]
  apply lookup_write
  have hsaved := fileMutation_of_writeTarget raw h.target
  exact writeTarget_of_same hsaved.sameDirectories (writeTarget_of_lookup h.lookup)

theorem node?_backup_after (h : disk.Changes settings path location backup raw decoded)
    (hne : location ≠ backup) :
    (disk.applyAll [.write backup raw, .write location (Utf8.encode decoded.renamed)]).tree.node?
      backup = some (.file raw) := by
  have hroot := (fileMutation_of_writeTarget raw h.target).location_ne_nil
  exact FileTree.node?_applyAll_write_write hne hroot

end Changes

/-! ## What an entry can do to a disk -/

namespace EntryEffect

variable {other : Disk} {outcome : FileOutcome} {mutations : List Mutation}

theorem path_eq (h : disk.EntryEffect settings path outcome mutations) : outcome.path = path := by
  cases h <;> rfl

theorem mutations_eq_nil (h : disk.EntryEffect settings path outcome mutations)
    (hstatus : outcome.status ≠ .changed) : mutations = [] := by
  cases h with
  | changed => exact absurd rfl hstatus
  | _ => rfl

theorem changes (h : disk.EntryEffect settings path outcome mutations)
    (hstatus : outcome.status = .changed) :
    ∃ location backup raw decoded, disk.Changes settings path location backup raw decoded ∧
      mutations = [.write backup raw, .write location (Utf8.encode decoded.renamed)] ∧
      outcome.backupPath? = some (settings.savedPath path) := by
  cases h with
  | @changed location backup raw decoded hloads hdiffers _ htarget =>
      exact ⟨location, backup, raw, decoded, ⟨hloads, hdiffers, htarget⟩, rfl, rfl⟩
  | _ => cases hstatus

theorem mutationsOf_entryEvents (h : disk.EntryEffect settings path outcome mutations) :
    mutationsOf (entryEvents path outcome mutations) = mutations := by
  rw [entryEvents]
  split
  · next hmissing =>
    rw [h.mutations_eq_nil (by simp [hmissing])]
    rfl
  · simp only [mutationsOf, List.cons_append, List.filterMap_cons, List.filterMap_append,
      List.filterMap_map, RunEvent.mutation?, List.filterMap_nil, List.append_nil]
    exact List.filterMap_some

theorem fileMutation (h : disk.EntryEffect settings path outcome mutations) :
    ∀ mutation ∈ mutations, disk.FileMutation mutation := by
  by_cases hstatus : outcome.status = .changed
  · obtain ⟨location, backup, raw, decoded, hchanges, rfl, _⟩ := h.changes hstatus
    intro mutation hmutation
    simp only [List.mem_cons, List.not_mem_nil, or_false] at hmutation
    rcases hmutation with rfl | rfl
    · exact fileMutation_of_writeTarget raw hchanges.target
    · exact fileMutation_of_writeTarget _ (writeTarget_of_lookup hchanges.lookup)
  · simp [h.mutations_eq_nil hstatus]

/-- Mutations are made for changed files only, and only at places that the entry owns. -/
theorem owns (hplain : PlainSuffix settings.backupSuffix)
    (h : disk.EntryEffect settings path outcome mutations) {mutation : Mutation}
    (hmutation : mutation ∈ mutations) :
    outcome.status = .changed ∧
      disk.Owns settings.backupSuffix (settings.absPath path) mutation.location := by
  by_cases hstatus : outcome.status = .changed
  · obtain ⟨location, backup, raw, decoded, hchanges, rfl, _⟩ := h.changes hstatus
    have hfile := writeTarget_of_lookup hchanges.lookup
    refine ⟨hstatus, ?_⟩
    simp only [List.mem_cons, List.not_mem_nil, or_false] at hmutation
    rcases hmutation with rfl | rfl
    · exact owns_backup_of_writeTarget hplain hfile hchanges.target
    · exact owns_of_writeTarget hfile
  · simp [h.mutations_eq_nil hstatus] at hmutation

theorem pairwise_location (hplain : PlainSuffix settings.backupSuffix)
    (h : disk.EntryEffect settings path outcome mutations) :
    mutations.Pairwise fun first second ↦ first.location ≠ second.location := by
  by_cases hstatus : outcome.status = .changed
  · obtain ⟨location, backup, raw, decoded, hchanges, rfl, _⟩ := h.changes hstatus
    have hne := hchanges.location_ne hplain
    simpa [Mutation.location] using hne.symm
  · simp [h.mutations_eq_nil hstatus]

/-- Where the entry leads to the same and the directories are the same, the same is made of it. -/
theorem of_lookup (hplain : PlainSuffix settings.backupSuffix)
    (hsame : disk.SameDirectories other)
    (hlookup : ∀ found, other.lookup (settings.absPath path) = .ok found ↔
      disk.lookup (settings.absPath path) = .ok found)
    (h : disk.EntryEffect settings path outcome mutations) :
    other.EntryEffect settings path outcome mutations := by
  have hloads {location : Location} {raw : Bytes} {decoded : Decoded}
      (h : disk.Loads settings path location raw decoded) :
      other.Loads settings path location raw decoded := ⟨(hlookup _).mpr h.lookup, h.decode⟩
  have htarget {location : Location} {raw : Bytes} {decoded : Decoded}
      (h : disk.Loads settings path location raw decoded) :
      other.writeTarget (settings.savedPath path) =
        disk.writeTarget (settings.savedPath path) := by
    obtain ⟨directory, name, hnames, _, _⟩ := lookup_eq_file_iff.mp h.lookup
    exact hnames.writeTarget_suffix_same hsame hplain
  have hexists : other.pathExists (settings.absPath path) =
      disk.pathExists (settings.absPath path) := by
    rw [Bool.eq_iff_iff, pathExists_eq_true_iff, pathExists_eq_true_iff]
    exact exists_congr hlookup
  cases h with
  | missing hmissing => exact .missing (hexists.trans hmissing)
  | directory hfound => exact .directory ((hlookup _).mpr hfound)
  | undecodable hfound hdecode => exact .undecodable ((hlookup _).mpr hfound) hdecode
  | unchanged h hsame => exact .unchanged (hloads h) hsame
  | pending h hdiffers hdry => exact .pending (hloads h) hdiffers hdry
  | unsaved h hdiffers hwrite he =>
      exact .unsaved (hloads h) hdiffers hwrite ((htarget h).trans he)
  | changed h hdiffers hwrite hbackup =>
      exact .changed (hloads h) hdiffers hwrite ((htarget h).trans hbackup)

/-- On a disk that agrees at the entry, the same is made of it. -/
theorem of_agrees (hplain : PlainSuffix settings.backupSuffix)
    (hagrees : disk.AgreesAt other (settings.absPath path))
    (h : disk.EntryEffect settings path outcome mutations) :
    other.EntryEffect settings path outcome mutations :=
  h.of_lookup hplain hagrees.toSameDirectories fun _ ↦ ⟨hagrees.symm.lookup, hagrees.lookup⟩

end EntryEffect
end Disk
end SymbolRename
