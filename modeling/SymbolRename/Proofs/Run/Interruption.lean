import SymbolRename.Proofs.Run.Effect

/-!
# Interrupted runs

A run may stop between two mutations or in the middle of one, and a file that is being written may
hold anything then.  The backup of a file is complete before the file itself is touched, and nothing
that is done for another entry comes near either of them.  So wherever a run stops, the bytes that a
file had at the start still stand under its own path or under the path of its backup.
-/

namespace SymbolRename

namespace Disk

/-- What an interruption may leave of a list of mutations: some of them have been made, and the last
write among these may have left anything in its file. -/
inductive Interrupted (disk : Disk) (mutations : List Mutation) : Disk → Prop where
  | between {made later : List Mutation} (h : mutations = made ++ later) :
      Interrupted disk mutations (disk.applyAll made)
  | torn {made later : List Mutation} {location : Location} {written : Bytes} (bytes : Bytes)
      (h : mutations = made ++ .write location written :: later) :
      Interrupted disk mutations (disk.applyAll (made ++ [.write location bytes]))

namespace Interrupted

variable {disk left : Disk} {mutations : List Mutation}

/-- An interruption happens in the first part of a list, or after all of it. -/
theorem of_append {first second : List Mutation} (h : disk.Interrupted (first ++ second) left) :
    disk.Interrupted first left ∨ (disk.applyAll first).Interrupted second left := by
  cases h with
  | @between made later hmade =>
      obtain ⟨rest, rfl, rfl⟩ | ⟨rest, rfl, hsecond⟩ := List.append_eq_append_iff.mp hmade
      · right
        rw [applyAll_append]
        exact .between rfl
      · exact Or.inl (.between rfl)
  | @torn made later location written bytes hmade =>
      obtain ⟨rest, rfl, rfl⟩ | ⟨rest, rfl, hrest⟩ := List.append_eq_append_iff.mp hmade
      · right
        rw [List.append_assoc, applyAll_append]
        exact .torn bytes rfl
      · cases rest with
        | nil =>
            right
            rw [List.append_nil, applyAll_append]
            rw [List.nil_append] at hrest
            exact @torn _ _ [] later location written bytes hrest.symm
        | cons mutation rest =>
            obtain ⟨rfl, rfl⟩ := List.cons_eq_cons.mp hrest
            exact Or.inl (.torn bytes rfl)

theorem node?_eq (h : disk.Interrupted mutations left) {location : Location}
    (hlocation : location ∉ mutations.map Mutation.location) :
    left.tree.node? location = disk.tree.node? location := by
  cases h with
  | between hmade =>
      apply FileTree.node?_applyAll_of_notMem
      intro hmem
      apply hlocation
      rw [hmade, List.map_append]
      exact List.mem_append_left _ hmem
  | torn bytes hmade =>
      apply FileTree.node?_applyAll_of_notMem
      intro hmem
      apply hlocation
      rw [hmade]
      simp only [List.map_append, List.map_cons, List.map_nil, List.mem_append, List.mem_cons,
        List.not_mem_nil, or_false, Mutation.location] at hmem ⊢
      exact hmem.imp_right Or.inl

theorem sameDirectories (h : disk.Interrupted mutations left)
    (hfiles : ∀ mutation ∈ mutations, disk.FileMutation mutation) : disk.SameDirectories left := by
  cases h with
  | between hmade =>
      apply sameDirectories_applyAll
      intro mutation hmutation
      exact hfiles mutation (hmade ▸ List.mem_append_left _ hmutation)
  | @torn made later location written bytes hmade =>
      apply sameDirectories_applyAll
      intro mutation hmutation
      rcases List.mem_append.mp hmutation with hmutation | hmutation
      · exact hfiles mutation (hmade ▸ List.mem_append_left _ hmutation)
      · -- what is written into a file does not matter, only where
        obtain rfl := List.mem_singleton.mp hmutation
        exact hfiles (.write location written) (by simp [hmade])

/-- While a file is saved and then overwritten, its bytes stand in one of the two places. -/
theorem of_commit {location backup : Location} {raw bytes : Bytes} (hne : location ≠ backup)
    (hroot : backup ≠ [])
    (h : disk.Interrupted [.write backup raw, .write location bytes] left) :
    left.tree.node? location = disk.tree.node? location ∨
      left.tree.node? backup = some (.file raw) := by
  have hsplit : [Mutation.write backup raw, .write location bytes] =
      [.write backup raw] ++ [.write location bytes] := rfl
  rw [hsplit] at h
  rcases h.of_append with hsaving | hwriting
  · left
    apply hsaving.node?_eq
    simpa [Mutation.location] using hne
  · right
    have hbackup : backup ∉ [Mutation.write location bytes].map Mutation.location := by
      simpa [Mutation.location] using hne.symm
    rw [hwriting.node?_eq hbackup]
    exact @FileTree.node?_applyAll_of_mem disk.tree [.write backup raw] (.write backup raw)
      (by simp) (by simp) hroot

/-- Seen from the places of one entry, an interruption of all that is done is an interruption of what
is done for this entry. -/
theorem at_entry {root suffix path : String} {files : List String}
    {mutations : String → List Mutation} (hown : disk.OwnMutations root suffix mutations)
    (hplain : PlainSuffix suffix) (hseparate : disk.Separate root suffix files)
    (hpath : path ∈ files) (h : disk.Interrupted (files.flatMap mutations) left) :
    ∃ start reached : Disk, start.Interrupted (mutations path) reached ∧
      ∀ location, disk.Owns suffix (joinPath root path) location →
        start.tree.node? location = disk.tree.node? location ∧
          left.tree.node? location = reached.tree.node? location := by
  obtain ⟨before, after, rfl⟩ := List.append_of_mem hpath
  have hbefore {location : Location} (howns : disk.Owns suffix (joinPath root path) location) :=
    hown.notMem_location hplain hseparate (Or.inl rfl) howns
  have hafter {location : Location} (howns : disk.Owns suffix (joinPath root path) location) :=
    hown.notMem_location hplain hseparate (Or.inr rfl) howns
  rw [List.flatMap_append, List.flatMap_cons] at h
  rcases h.of_append with hearlier | h
  · -- nothing has been done for the entry yet
    refine ⟨disk, disk, @between disk _ [] _ rfl, fun location howns ↦ ⟨rfl, ?_⟩⟩
    exact hearlier.node?_eq (hbefore howns)
  · refine ⟨disk.applyAll (before.flatMap mutations), ?_⟩
    rcases h.of_append with hhere | hlater
    · refine ⟨left, hhere, fun location howns ↦ ⟨?_, rfl⟩⟩
      exact FileTree.node?_applyAll_of_notMem (hbefore howns)
    · refine ⟨_, .between (List.append_nil _).symm, fun location howns ↦ ⟨?_, ?_⟩⟩
      · exact FileTree.node?_applyAll_of_notMem (hbefore howns)
      · exact hlater.node?_eq (hafter howns)

end Interrupted

section Entry

variable {disk left : Disk} {settings : RunSettings} {path : String} {files : List String}
  (hplain : PlainSuffix settings.backupSuffix)
  (hseparate : disk.Separate settings.root settings.backupSuffix files)

include hplain hseparate

/-- Wherever the mutations of all entries are interrupted, the bytes of a file stand in its place or
in the place of its backup. -/
theorem node?_of_interrupted {location : Location} {raw : Bytes} (hpath : path ∈ files)
    (hfile : disk.lookup (settings.absPath path) = .ok (location, .file raw))
    (h : disk.Interrupted (files.flatMap (disk.entryMutations settings)) left) :
    left.tree.node? location = some (.file raw) ∨
      ∃ backup, disk.writeTarget (settings.savedPath path) = .ok backup ∧
        left.tree.node? backup = some (.file raw) := by
  have htarget := writeTarget_of_lookup hfile
  obtain ⟨_, _, _, _, hnode⟩ := lookup_eq_file_iff.mp hfile
  obtain ⟨start, reached, hreached, hplaces⟩ :=
    h.at_entry (ownMutations_entryMutations hplain) hplain hseparate hpath
  obtain ⟨hstart, hleft⟩ := hplaces location (owns_of_writeTarget htarget)
  by_cases hstatus : (disk.entryOutcome settings path).status = .changed
  · obtain ⟨there, backup, bytes, decoded, hchanges, hmutations, _⟩ :=
      (disk.entryEffect_self settings path).changes hstatus
    cases hfile.symm.trans hchanges.lookup
    have howns := owns_backup_of_writeTarget hplain htarget hchanges.target
    rw [hmutations] at hreached
    rcases hreached.of_commit (hchanges.location_ne hplain) howns.ne_nil with hkept | hsaved
    · left
      rw [hleft, hkept, hstart, hnode]
    · right
      exact ⟨backup, hchanges.target, (hplaces backup howns).2.trans hsaved⟩
  · left
    rw [(disk.entryEffect_self settings path).mutations_eq_nil hstatus] at hreached
    rw [hleft, hreached.node?_eq (by simp), hstart, hnode]

end Entry

/-- Wherever a run over separate entries is interrupted, the bytes that a file had at the start can
be read under its own path or under the path of its backup. -/
theorem interrupted_run_keeps_bytes (disk : Disk) (settings : RunSettings) (tool : ToolInfo)
    (clock : Clock) (hsuffix : settings.backupSuffix ≠ "")
    (hslash : '/' ∉ settings.backupSuffix.toList)
    (hseparate : disk.Separate settings.root settings.backupSuffix settings.files) :
    (settings.files = [] → disk.run settings tool clock = .error .emptyFileSet) ∧
    (settings.files ≠ [] → ∃ result, disk.run settings tool clock = .ok result ∧
      ∀ left, disk.Interrupted result.mutations left →
        ∀ path ∈ settings.files, ∀ raw, disk.readBytes (settings.absPath path) = .ok raw →
          left.readBytes (settings.absPath path) = .ok raw ∨
            left.readBytes (settings.savedPath path) = .ok raw) := by
  have hplain : PlainSuffix settings.backupSuffix := ⟨hsuffix, hslash⟩
  constructor
  · intro hempty
    simp only [run, checkSetup, if_pos hempty]
  intro hfiles
  obtain ⟨result, hrun, _, hmutations⟩ :=
    @run_of_separate disk settings tool clock hfiles hplain hseparate
  refine ⟨result, hrun, ?_⟩
  intro left hleft path hpath raw hread
  rw [hmutations] at hleft
  obtain ⟨location, hfile⟩ := readBytes_eq_ok_iff.mp hread
  have hsame := hleft.sameDirectories fun _ hmutation ↦ fileMutation_of_mem_flatMap hmutation
  rcases node?_of_interrupted hplain hseparate hpath hfile hleft with hnode | ⟨backup, htarget, hnode⟩
  · left
    exact readBytes_of_lookup (lookup_of_same hsame (writeTarget_of_lookup hfile) hnode)
  · right
    exact readBytes_of_lookup (lookup_of_same hsame htarget hnode)

/-- A disk with two files to change, the first of which has a backup from an earlier run. -/
def staleDisk : Disk :=
  ⟨FileTree.empty.applyAll
    [.write ["a.h"] (Utf8.encode "ma_x".toList), .write ["a.h.backup"] (Utf8.encode "old".toList),
      .write ["b.h"] [0x6D, 0x61, 0x5F, 0xFF]], []⟩

def staleSettings : RunSettings := ⟨".", ["a.h", "b.h", "c.h"], .lenient, ".backup", false⟩

theorem interrupted_run_on_staleDisk :
    ∃ result, staleDisk.run staleSettings ⟨"nsprefix", none⟩
        ⟨⟨2024, 5, 1, 12, 0, 0, 0⟩, ⟨2024, 5, 1, 12, 0, 1, 0⟩⟩ = .ok result ∧
      ∀ left, staleDisk.Interrupted result.mutations left →
        left.readBytes "./a.h" = .ok (Utf8.encode "ma_x".toList) ∨
          left.readBytes "./a.h.backup" = .ok (Utf8.encode "ma_x".toList) := by
  obtain ⟨_, hkeeps⟩ := interrupted_run_keeps_bytes staleDisk staleSettings ⟨"nsprefix", none⟩
    ⟨⟨2024, 5, 1, 12, 0, 0, 0⟩, ⟨2024, 5, 1, 12, 0, 1, 0⟩⟩ (by decide) (by decide)
    (by decide +kernel)
  obtain ⟨result, hrun, hleft⟩ := hkeeps (by decide)
  refine ⟨result, hrun, fun left hinterrupted ↦ ?_⟩
  exact hleft left hinterrupted "a.h" (by decide) (Utf8.encode "ma_x".toList) (by decide +kernel)

end Disk
end SymbolRename
