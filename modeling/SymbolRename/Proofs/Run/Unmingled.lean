import SymbolRename.Proofs.Run.Renamed
import SymbolRename.Proofs.Run.Sequence

/-!
# Files that are not backups

Entries are unmingled if none of them leads to the backup of another one.  They may lead to one file.
While a run goes through such entries, every place is as it was at the start, or it holds the renamed
text of the file that stood there, or it is the place of a backup.  So a file that has been renamed
is not touched again, and a file that has not been renamed is as it was.
-/

namespace SymbolRename

namespace Disk

/-- No entry of the list leads to the place of the backup of another one. -/
def Unmingled (disk : Disk) (root suffix : String) (files : List String) : Prop :=
  files.Pairwise fun path path' ↦
    disk.Elsewhere (joinPath root path) (backupPath suffix (joinPath root path')) ∧
      disk.Elsewhere (joinPath root path') (backupPath suffix (joinPath root path))

instance (disk : Disk) (root suffix : String) (files : List String) :
    Decidable (disk.Unmingled root suffix files) :=
  inferInstanceAs (Decidable (files.Pairwise _))

namespace Unmingled

variable {disk other : Disk} {root suffix path path' : String} {files : List String}

theorem same (h : disk.Unmingled root suffix files) (hsame : disk.SameDirectories other) :
    other.Unmingled root suffix files :=
  h.imp fun helsewhere ↦ ⟨helsewhere.1.same hsame, helsewhere.2.same hsame⟩

theorem elsewhere (h : disk.Unmingled root suffix files) (hpath : path ∈ files)
    (hpath' : path' ∈ files) (hne : path ≠ path') :
    disk.Elsewhere (joinPath root path) (backupPath suffix (joinPath root path')) := by
  have hsymm : Std.Symm fun path path' ↦
      disk.Elsewhere (joinPath root path) (backupPath suffix (joinPath root path')) ∧
        disk.Elsewhere (joinPath root path') (backupPath suffix (joinPath root path)) :=
    ⟨fun _ _ helsewhere ↦ ⟨helsewhere.2, helsewhere.1⟩⟩
  exact (h.forall hpath hpath' hne).1

/-- Where an entry leads, there is no backup of a file that is changed. -/
theorem ne_backup {settings : RunSettings} {location there backup : Location} {raw : Bytes}
    {decoded : Decoded} (hplain : PlainSuffix settings.backupSuffix)
    (h : disk.Unmingled settings.root settings.backupSuffix files) (hpath : path ∈ files)
    (hplace : disk.place? (settings.absPath path) = some location) (hpath' : path' ∈ files)
    (hchanges : disk.Changes settings path' there backup raw decoded) : location ≠ backup := by
  by_cases hsame : path = path'
  · subst hsame
    cases hplace.symm.trans (place?_of_lookup hchanges.lookup)
    exact hchanges.location_ne hplain
  · exact (h.elsewhere hpath hpath' hsame).ne hplace (place?_of_writeTarget hchanges.target)

end Unmingled

/-! ## What a run may have done so far -/

/-- What a run that started on one disk may have made of a place when it has reached another disk and
has changed some entries. -/
inductive Touched (start disk : Disk) (settings : RunSettings) (changed : List String)
    (location : Location) : Prop where
  | untouched (hnode : disk.tree.node? location = start.tree.node? location)
  | renamed {path : String} {backup : Location} {raw : Bytes} {decoded : Decoded}
      (hpath : path ∈ changed) (hchanges : start.Changes settings path location backup raw decoded)
      (hnode : disk.tree.node? location = some (.file (Utf8.encode decoded.renamed)))
  | saved {path : String} {there : Location} {raw : Bytes} {decoded : Decoded}
      (hpath : path ∈ changed) (hchanges : start.Changes settings path there location raw decoded)

structure Progress (start disk : Disk) (settings : RunSettings) (changed : List String) : Prop
    extends start.SameDirectories disk where
  touched : ∀ location, start.Touched disk settings changed location

theorem Progress.refl (disk : Disk) (settings : RunSettings) :
    disk.Progress disk settings [] :=
  ⟨.refl disk, fun _ ↦ .untouched rfl⟩

theorem Touched.mono {start disk : Disk} {settings : RunSettings} {changed more : List String}
    {location : Location} (h : start.Touched disk settings changed location)
    (hmore : changed ⊆ more) : start.Touched disk settings more location := by
  cases h with
  | untouched hnode => exact .untouched hnode
  | renamed hpath hchanges hnode => exact .renamed (hmore hpath) hchanges hnode
  | saved hpath hchanges => exact .saved (hmore hpath) hchanges

def changedPaths (outcomes : List FileOutcome) : List String :=
  (outcomes.filter fun outcome ↦ outcome.status = .changed).map FileOutcome.path

theorem mem_changedPaths {outcomes : List FileOutcome} {path : String} :
    path ∈ changedPaths outcomes ↔
      ∃ outcome ∈ outcomes, outcome.status = .changed ∧ outcome.path = path := by
  simp [changedPaths, and_assoc]

theorem changedPaths_runOutcomes_subset (disk : Disk) (settings : RunSettings)
    (files : List String) : changedPaths (disk.runOutcomes settings files) ⊆ files := by
  intro path hpath
  obtain ⟨outcome, houtcome, _, rfl⟩ := mem_changedPaths.mp hpath
  have hmem := List.mem_map_of_mem (f := FileOutcome.path) houtcome
  rwa [map_path_runOutcomes] at hmem

section Progress

variable {start disk : Disk} {settings : RunSettings} {changed files : List String} {path : String}
  (hplain : PlainSuffix settings.backupSuffix)
  (hunmingled : start.Unmingled settings.root settings.backupSuffix files)

include hplain hunmingled

namespace Progress

/-- An entry leads to what it led to at the start, unless the file there has been renamed. -/
theorem lookup_cases (h : start.Progress disk settings changed) (hchanged : changed ⊆ files)
    (hpath : path ∈ files) :
    (∀ found, disk.lookup (settings.absPath path) = .ok found ↔
        start.lookup (settings.absPath path) = .ok found) ∨
      ∃ other ∈ changed, ∃ location backup raw decoded,
        start.Changes settings other location backup raw decoded ∧
          start.lookup (settings.absPath path) = .ok (location, .file raw) ∧
          disk.lookup (settings.absPath path) =
            .ok (location, .file (Utf8.encode decoded.renamed)) := by
  cases hplace : start.place? (settings.absPath path) with
  | none =>
      left
      intro found
      have hplace' := (h.place?_eq (settings.absPath path)).trans hplace
      constructor
      · intro hfound
        cases hplace'.symm.trans (place?_of_lookup hfound)
      · intro hfound
        cases hplace.symm.trans (place?_of_lookup hfound)
  | some location =>
      cases h.touched location with
      | untouched hnode =>
          have hagrees : start.AgreesAt disk (settings.absPath path) := by
            refine ⟨h.toSameDirectories, fun there hthere ↦ ?_⟩
            cases hplace.symm.trans hthere
            exact hnode
          exact Or.inl fun found ↦ ⟨hagrees.symm.lookup, hagrees.lookup⟩
      | @renamed other backup raw decoded hother hchanges hnode =>
          rcases names_or_directory hplace with ⟨directory, name, hnames, rfl⟩ | hdirectory
          · right
            obtain ⟨_, _, _, _, hstart⟩ := lookup_eq_file_iff.mp hchanges.lookup
            refine ⟨other, hother, _, backup, raw, decoded, hchanges, ?_, ?_⟩
            · rw [hnames.lookup_eq, hstart]
            · rw [(hnames.same h.toSameDirectories).lookup_eq, hnode]
          · left
            intro found
            rw [hdirectory disk h.toSameDirectories, hdirectory start (.refl start)]
      | saved hother hchanges =>
          exact absurd rfl (hunmingled.ne_backup hplain hpath hplace (hchanged hother) hchanges)

theorem lookup_renamed (h : start.Progress disk settings changed) (hchanged : changed ⊆ files)
    (hpath : path ∈ files) {location : Location} {decoded : Decoded}
    (hlookup : start.lookup (settings.absPath path) =
      .ok (location, .file (Utf8.encode decoded.renamed))) :
    disk.lookup (settings.absPath path) =
      .ok (location, .file (Utf8.encode decoded.renamed)) := by
  rcases h.lookup_cases hplain hunmingled hchanged hpath with hsame | hrenamed
  · exact (hsame _).mpr hlookup
  · obtain ⟨other, _, there, backup, raw, decoded', hchanges, hstart, _⟩ := hrenamed
    cases hstart.symm.trans hlookup
    exact absurd rfl (Decoded.encode_renamed_ne hchanges.decode hchanges.differs decoded)

/-- An entry that is changed is one that would have been changed at the start. -/
theorem changes_start (h : start.Progress disk settings changed) (hchanged : changed ⊆ files)
    (hpath : path ∈ files) {location backup : Location} {raw : Bytes} {decoded : Decoded}
    (hchanges : disk.Changes settings path location backup raw decoded) :
    start.Changes settings path location backup raw decoded := by
  have htarget := writeTarget_of_same h.toSameDirectories.symm hchanges.target
  rcases h.lookup_cases hplain hunmingled hchanged hpath with hsame | hrenamed
  · exact ⟨⟨(hsame _).mp hchanges.lookup, hchanges.decode⟩, hchanges.differs, htarget⟩
  · obtain ⟨other, _, there, _, _, decoded', _, _, hlookup⟩ := hrenamed
    cases hlookup.symm.trans hchanges.lookup
    exact absurd rfl (Decoded.encode_renamed_ne hchanges.decode hchanges.differs decoded')

theorem step (h : start.Progress disk settings changed) (hchanged : changed ⊆ files)
    (hpath : path ∈ files) :
    start.Progress (disk.applyAll (disk.entryMutations settings path)) settings
      (changed ++ changedPaths [disk.entryOutcome settings path]) := by
  have heffect := disk.entryEffect_self settings path
  refine ⟨h.toSameDirectories.trans (sameDirectories_applyAll heffect.fileMutation), ?_⟩
  by_cases hstatus : (disk.entryOutcome settings path).status = .changed
  · obtain ⟨location, backup, raw, decoded, hchanges, hmutations, _⟩ := heffect.changes hstatus
    have hstart := h.changes_start hplain hunmingled hchanged hpath hchanges
    have hmem : path ∈ changed ++ changedPaths [disk.entryOutcome settings path] := by
      apply List.mem_append_right
      exact mem_changedPaths.mpr ⟨_, by simp, hstatus, heffect.path_eq⟩
    intro place
    by_cases hfile : place = location
    · subst hfile
      obtain ⟨_, _, _, _, hnode⟩ := lookup_eq_file_iff.mp hchanges.lookup_after
      rw [hmutations]
      exact .renamed hmem hstart hnode
    by_cases hbackup : place = backup
    · subst hbackup
      exact .saved hmem hstart
    have hnode : (disk.applyAll (disk.entryMutations settings path)).tree.node? place =
        disk.tree.node? place := by
      apply FileTree.node?_applyAll_of_notMem
      simp [hmutations, Mutation.location, hfile, hbackup]
    cases (h.touched place).mono (List.subset_append_left changed _) with
    | untouched hsame => exact .untouched (hnode.trans hsame)
    | renamed hother hold hrenamed => exact .renamed hother hold (hnode.trans hrenamed)
    | saved hother hold => exact .saved hother hold
  · rw [heffect.mutations_eq_nil hstatus, applyAll_nil]
    exact fun place ↦ (h.touched place).mono (List.subset_append_left changed _)

end Progress

theorem Progress.run {entries : List String} (h : start.Progress disk settings changed)
    (hchanged : changed ⊆ files) (hentries : entries ⊆ files) :
    start.Progress (disk.reached settings entries) settings
      (changed ++ changedPaths (disk.runOutcomes settings entries)) := by
  induction entries generalizing disk changed with
  | nil => simpa [changedPaths] using h
  | cons path entries ih =>
      have hpath : path ∈ files := hentries (by simp)
      have hstep := h.step hplain hunmingled hchanged hpath
      have hchanged' : changed ++ changedPaths [disk.entryOutcome settings path] ⊆ files := by
        intro other hother
        rcases List.mem_append.mp hother with hother | hother
        · exact hchanged hother
        · obtain ⟨outcome, houtcome, _, rfl⟩ := mem_changedPaths.mp hother
          obtain rfl := List.mem_singleton.mp houtcome
          rwa [(disk.entryEffect_self settings path).path_eq]
      have hrun := ih hstep hchanged' fun other hother ↦ hentries (by simp [hother])
      rw [reached_cons, runOutcomes_cons]
      rwa [List.append_assoc, changedPaths, changedPaths, ← List.map_append,
        ← List.filter_append] at hrun

theorem progress_reached {entries : List String} (hentries : entries ⊆ files) :
    start.Progress (start.reached settings entries) settings
      (changedPaths (start.runOutcomes settings entries)) := by
  have hrefl := Progress.refl start settings
  simpa using hrefl.run hplain hunmingled (List.nil_subset files) hentries

theorem progress_of_append {before after : List String} (hfiles : files = before ++ after) :
    (start.reached settings before).Progress (start.reached settings files) settings
      (changedPaths ((start.reached settings before).runOutcomes settings after)) := by
  have hsame := start.sameDirectories_reached settings before
  have hafter : after ⊆ files := by
    intro path hpath
    simp [hfiles, hpath]
  have hprogress := progress_reached hplain (hunmingled.same hsame) hafter
  rwa [← reached_append, ← hfiles] at hprogress

end Progress

end Disk
end SymbolRename
