import SymbolRename.Proofs.Run.Effect

/-!
# Runs over any entries

A run goes from entry to entry, and each of them finds the disk that the entries before it have left.
Nothing is assumed here of how the entries of a list relate: a file may be listed twice, and it may
be the backup of another one.
-/

namespace SymbolRename

namespace Disk

variable {disk : Disk} {settings : RunSettings} {path : String} {files : List String}

def runOutcomes (disk : Disk) (settings : RunSettings) (files : List String) : List FileOutcome :=
  (disk.runEntries settings files).1

def runMutations (disk : Disk) (settings : RunSettings) (files : List String) : List Mutation :=
  mutationsOf (disk.runEntries settings files).2

/-- The disk that a run has reached once it is through some entries. -/
def reached (disk : Disk) (settings : RunSettings) (files : List String) : Disk :=
  disk.applyAll (disk.runMutations settings files)

@[simp] theorem runOutcomes_nil : disk.runOutcomes settings [] = [] := rfl

@[simp] theorem runMutations_nil : disk.runMutations settings [] = [] := rfl

@[simp] theorem reached_nil : disk.reached settings [] = disk := rfl

theorem runOutcomes_cons (path : String) (files : List String) :
    disk.runOutcomes settings (path :: files) = disk.entryOutcome settings path ::
      (disk.applyAll (disk.entryMutations settings path)).runOutcomes settings files := by
  simp only [runOutcomes, runEntries, entryOutcome, entryMutations]

theorem runMutations_cons (path : String) (files : List String) :
    disk.runMutations settings (path :: files) = disk.entryMutations settings path ++
      (disk.applyAll (disk.entryMutations settings path)).runMutations settings files := by
  simp only [runMutations, runEntries, entryMutations, mutationsOf, List.filterMap_append]

theorem reached_cons (path : String) (files : List String) :
    disk.reached settings (path :: files) =
      (disk.applyAll (disk.entryMutations settings path)).reached settings files := by
  rw [reached, runMutations_cons, applyAll_append, reached]

theorem reached_append (before after : List String) :
    disk.reached settings (before ++ after) =
      (disk.reached settings before).reached settings after := by
  induction before generalizing disk with
  | nil => rfl
  | cons path before ih => rw [List.cons_append, reached_cons, reached_cons, ih]

theorem reached_concat (before : List String) (path : String) :
    disk.reached settings (before ++ [path]) =
      (disk.reached settings before).applyAll
        ((disk.reached settings before).entryMutations settings path) := by
  rw [reached_append, reached_cons, reached_nil]

theorem runOutcomes_append (before after : List String) :
    disk.runOutcomes settings (before ++ after) =
      disk.runOutcomes settings before ++
        (disk.reached settings before).runOutcomes settings after := by
  induction before generalizing disk with
  | nil => rfl
  | cons path before ih =>
      rw [List.cons_append, runOutcomes_cons, runOutcomes_cons, reached_cons, ih,
        List.cons_append]

theorem map_path_runOutcomes (disk : Disk) (settings : RunSettings) (files : List String) :
    (disk.runOutcomes settings files).map FileOutcome.path = files := by
  induction files generalizing disk with
  | nil => rfl
  | cons path files ih =>
      rw [runOutcomes_cons, List.map_cons, ih, (disk.entryEffect_self settings path).path_eq]

/-- Every outcome is that of its entry on the disk that the run had reached there. -/
theorem runOutcomes_eq_append {earlier later : List FileOutcome} {outcome : FileOutcome}
    (h : disk.runOutcomes settings files = earlier ++ outcome :: later) :
    files = earlier.map FileOutcome.path ++ outcome.path :: later.map FileOutcome.path ∧
      outcome = (disk.reached settings (earlier.map FileOutcome.path)).entryOutcome settings
        outcome.path ∧
      later = (disk.reached settings (earlier.map FileOutcome.path ++ [outcome.path])).runOutcomes
        settings (later.map FileOutcome.path) := by
  have hfiles : files = earlier.map FileOutcome.path ++ outcome.path ::
      later.map FileOutcome.path := by
    have hpaths := disk.map_path_runOutcomes settings files
    rw [h, List.map_append, List.map_cons] at hpaths
    exact hpaths.symm
  have hsplit := h
  rw [hfiles, runOutcomes_append, runOutcomes_cons, ← reached_concat] at hsplit
  have hlength : (disk.runOutcomes settings (earlier.map FileOutcome.path)).length =
      earlier.length := by
    have hpaths := disk.map_path_runOutcomes settings (earlier.map FileOutcome.path)
    simpa using congrArg List.length hpaths
  obtain ⟨_, htail⟩ := List.append_inj hsplit hlength
  obtain ⟨houtcome, hlater⟩ := List.cons_eq_cons.mp htail
  exact ⟨hfiles, houtcome.symm, hlater.symm⟩

theorem entryOutcome_mem_runOutcomes {before after : List String}
    (hfiles : files = before ++ path :: after) :
    (disk.reached settings before).entryOutcome settings path ∈
      disk.runOutcomes settings files := by
  rw [hfiles, runOutcomes_append, runOutcomes_cons]
  simp

/-- Every mutation is made for an entry, on the disk that the run had reached there. -/
theorem exists_entry_of_mem_runMutations {mutation : Mutation}
    (h : mutation ∈ disk.runMutations settings files) :
    ∃ before path after, files = before ++ path :: after ∧
      mutation ∈ (disk.reached settings before).entryMutations settings path := by
  induction files generalizing disk with
  | nil => cases h
  | cons path files ih =>
      rw [runMutations_cons] at h
      rcases List.mem_append.mp h with h | h
      · exact ⟨[], path, files, rfl, h⟩
      · obtain ⟨before, other, after, rfl, hmutation⟩ := ih h
        refine ⟨path :: before, other, after, rfl, ?_⟩
        rwa [reached_cons]

theorem sameDirectories_reached (disk : Disk) (settings : RunSettings) (files : List String) :
    disk.SameDirectories (disk.reached settings files) := by
  induction files generalizing disk with
  | nil => exact .refl disk
  | cons path files ih =>
      rw [reached_cons]
      have heffect := disk.entryEffect_self settings path
      exact (sameDirectories_applyAll heffect.fileMutation).trans (ih _)

theorem run_eq_ok {tool : ToolInfo} {clock : Clock} (hfiles : settings.files ≠ [])
    (hsuffix : settings.backupSuffix ≠ "") :
    ∃ result, disk.run settings tool clock = .ok result ∧
      result.report.files = disk.runOutcomes settings settings.files ∧
      result.mutations = disk.runMutations settings settings.files :=
  run_of_checkSetup hfiles hsuffix

theorem forall₂_runOutcomes {R : FileOutcome → FileOutcome → Prop} {g : String → FileOutcome}
    (h : ∀ before path after, files = before ++ path :: after →
      R ((disk.reached settings before).entryOutcome settings path) (g path)) :
    List.Forall₂ R (disk.runOutcomes settings files) (files.map g) := by
  induction files generalizing disk with
  | nil => exact .nil
  | cons path files ih =>
      rw [runOutcomes_cons, List.map_cons]
      refine .cons (h [] path files rfl) (ih ?_)
      rintro before other after rfl
      have hother := h (path :: before) other after rfl
      rwa [reached_cons] at hother

/-- Where no entry has anything to do, a run does nothing. -/
theorem runOutcomes_of_entryMutations_nil
    (h : ∀ path ∈ files, disk.entryMutations settings path = []) :
    disk.runMutations settings files = [] ∧
      disk.runOutcomes settings files = files.map (disk.entryOutcome settings) := by
  induction files with
  | nil => exact ⟨rfl, rfl⟩
  | cons path files ih =>
      obtain ⟨hmutations, houtcomes⟩ := ih fun other hother ↦ h other (List.mem_cons_of_mem _ hother)
      have hpath := h path (by simp)
      rw [runMutations_cons, runOutcomes_cons, hpath, applyAll_nil, hmutations, houtcomes]
      exact ⟨rfl, rfl⟩

end Disk
end SymbolRename
