import SymbolRename.Proofs.Run.Entry

/-!
# Runs over separate entries

A run over separate entries makes of each of them what it would make of it alone, on the disk as it
is before the run: no entry sees what is done for another one.
-/

namespace SymbolRename

namespace Disk

/-- What is reported of an entry that is processed on its own. -/
def entryOutcome (disk : Disk) (settings : RunSettings) (path : String) : FileOutcome :=
  (disk.runEntry settings path).1

/-- The mutations that are made for an entry that is processed on its own. -/
def entryMutations (disk : Disk) (settings : RunSettings) (path : String) : List Mutation :=
  mutationsOf (disk.runEntry settings path).2

/-- The disk once the mutations of every entry on its own have been made. -/
def afterEntries (disk : Disk) (settings : RunSettings) (files : List String) : Disk :=
  disk.applyAll (files.flatMap (disk.entryMutations settings))

variable {start disk : Disk} {settings : RunSettings} {path : String} {files : List String}

theorem entryEffect_self (disk : Disk) (settings : RunSettings) (path : String) :
    disk.EntryEffect settings path (disk.entryOutcome settings path)
      (disk.entryMutations settings path) := by
  obtain ⟨outcome, mutations, h⟩ := disk.exists_entryEffect settings path
  rw [entryOutcome, entryMutations, h.runEntry_eq]
  simp only [h.mutationsOf_entryEvents]
  exact h

theorem EntryEffect.eq_self {outcome : FileOutcome} {mutations : List Mutation}
    (h : disk.EntryEffect settings path outcome mutations) :
    disk.entryOutcome settings path = outcome ∧ disk.entryMutations settings path = mutations := by
  rw [entryOutcome, entryMutations, h.runEntry_eq]
  exact ⟨rfl, h.mutationsOf_entryEvents⟩

theorem map_path_entryOutcome (disk : Disk) (settings : RunSettings) (files : List String) :
    (files.map (disk.entryOutcome settings)).map FileOutcome.path = files := by
  rw [List.map_map]
  refine (List.map_congr_left fun path _ ↦ ?_).trans (List.map_id files)
  exact (disk.entryEffect_self settings path).path_eq

/-! ## Entries do not see each other -/

/-- The outcomes of a run over separate entries are those of the entries on their own, and so are
its events. -/
theorem runEntries_of_separate (hplain : PlainSuffix settings.backupSuffix)
    (hseparate : start.Separate settings.root settings.backupSuffix files)
    (hagrees : ∀ path ∈ files, start.AgreesAt disk (settings.absPath path)) :
    disk.runEntries settings files =
      (files.map fun path ↦ (start.runEntry settings path).1,
        files.flatMap fun path ↦ (start.runEntry settings path).2) := by
  induction files generalizing disk with
  | nil => rfl
  | cons path files ih =>
      obtain ⟨hfirst, hlater⟩ := List.pairwise_cons.mp hseparate
      obtain ⟨outcome, mutations, hstart⟩ := start.exists_entryEffect settings path
      have hdisk := hstart.of_agrees hplain (hagrees path (by simp))
      -- what is done for the first entry leaves all later ones as they were at the start
      have hagrees' : ∀ other ∈ files,
          start.AgreesAt (disk.applyAll mutations) (settings.absPath other) := by
        intro other hother
        refine (hagrees other (List.mem_cons_of_mem path hother)).applyAll hdisk.fileMutation ?_
        intro location hplace hmem
        obtain ⟨mutation, hmutation, heq⟩ := List.mem_map.mp hmem
        exact (hstart.owns hplain hmutation).2.ne_file (hfirst other hother) hplace heq
      rw [runEntries, hdisk.runEntry_eq]
      simp only [hdisk.mutationsOf_entryEvents, ih hlater hagrees', List.map_cons,
        List.flatMap_cons, hstart.runEntry_eq]

theorem runEntries_self (hplain : PlainSuffix settings.backupSuffix)
    (hseparate : disk.Separate settings.root settings.backupSuffix files) :
    disk.runEntries settings files =
      (files.map fun path ↦ (disk.runEntry settings path).1,
        files.flatMap fun path ↦ (disk.runEntry settings path).2) :=
  runEntries_of_separate hplain hseparate fun _ _ ↦ ⟨.refl disk, fun _ _ ↦ rfl⟩

end Disk
end SymbolRename
