import SymbolRename.Proofs.Disk.Place

/-!
# What mutations leave behind

Mutations at different locations do not disturb each other: in whatever order they are made,
afterwards every one of them holds at its own location, and all other locations are as before.
Mutations of files keep the directories.
-/

namespace SymbolRename

namespace FileTree

theorem node?_applyAll_of_notMem {tree : FileTree} {mutations : List Mutation}
    {location : Location} (h : location ∉ mutations.map Mutation.location) :
    (tree.applyAll mutations).node? location = tree.node? location := by
  by_cases hroot : location = []
  · rw [hroot, node?_nil, node?_nil]
  · induction mutations generalizing tree with
    | nil => rfl
    | cons mutation mutations ih =>
        obtain ⟨hne, hlater⟩ : location ≠ mutation.location ∧
            location ∉ mutations.map Mutation.location := by simpa using h
        rw [applyAll_cons, ih hlater, node?_apply _ _ _ hroot, if_neg (Ne.symm hne)]

theorem node?_applyAll_of_mem {tree : FileTree} {mutations : List Mutation} {mutation : Mutation}
    (hnodup : (mutations.map Mutation.location).Nodup) (hmem : mutation ∈ mutations)
    (hroot : mutation.location ≠ []) :
    (tree.applyAll mutations).node? mutation.location = mutation.node? := by
  induction mutations generalizing tree with
  | nil => cases hmem
  | cons first later ih =>
      obtain ⟨hfirst, hlater⟩ := List.nodup_cons.mp hnodup
      rw [applyAll_cons]
      rcases List.mem_cons.mp hmem with rfl | hmem
      · rw [node?_applyAll_of_notMem hfirst, node?_apply _ _ _ hroot, if_pos rfl]
      · exact ih hlater hmem

/-- Two writes at different locations: the first one holds as well. -/
theorem node?_applyAll_write_write {tree : FileTree} {location there : Location}
    {bytes bytes' : Bytes} (hne : location ≠ there) (hroot : there ≠ []) :
    (tree.applyAll [.write there bytes, .write location bytes']).node? there =
      some (.file bytes) := by
  have hnodup : ([.write there bytes, .write location bytes'].map Mutation.location).Nodup := by
    simpa [Mutation.location] using hne.symm
  exact @node?_applyAll_of_mem _ _ (.write there bytes) hnodup (by simp) hroot

theorem apply_comm (tree : FileTree) {first second : Mutation}
    (h : first.location ≠ second.location) :
    (tree.apply first).apply second = (tree.apply second).apply first := by
  have hnodes : ((tree.apply first).apply second).nodes =
      ((tree.apply second).apply first).nodes := by
    apply Std.ExtTreeMap.ext_getElem?
    intro location
    cases first <;> cases second <;>
      simp only [apply, Mutation.location, Std.ExtTreeMap.getElem?_insert,
        Std.ExtTreeMap.getElem?_erase, Std.LawfulEqCmp.compare_eq_iff_eq] at h ⊢ <;>
      grind
  exact congrArg FileTree.mk hnodes

/-- Mutations at different locations may be made in any order. -/
theorem applyAll_eq_of_perm {tree : FileTree} {mutations others : List Mutation}
    (h : mutations.Perm others) (hnodup : (mutations.map Mutation.location).Nodup) :
    tree.applyAll mutations = tree.applyAll others := by
  induction h generalizing tree with
  | nil => rfl
  | cons mutation _ ih =>
      rw [List.map_cons, List.nodup_cons] at hnodup
      rw [applyAll_cons, applyAll_cons, ih hnodup.2]
  | swap first second later =>
      have hne : second.location ≠ first.location := by
        rintro heq
        simp [heq] at hnodup
      rw [applyAll_cons, applyAll_cons, applyAll_cons, applyAll_cons, apply_comm tree hne]
  | trans hfirst _ ih ih' =>
      exact (ih hnodup).trans (ih' ((hfirst.map Mutation.location).nodup_iff.mp hnodup))

theorem nodes_applyAll_nil {tree : FileTree} {mutations : List Mutation}
    (h : ∀ mutation ∈ mutations, mutation.location ≠ []) :
    (tree.applyAll mutations).nodes[([] : Location)]? = tree.nodes[([] : Location)]? := by
  induction mutations generalizing tree with
  | nil => rfl
  | cons mutation mutations ih =>
      have hroot : mutation.location ≠ [] := h mutation (by simp)
      rw [applyAll_cons, ih fun m hm ↦ h m (List.mem_cons_of_mem mutation hm)]
      cases mutation <;>
        simp_all [apply, Mutation.location, Std.ExtTreeMap.getElem?_insert,
          Std.ExtTreeMap.getElem?_erase, Std.LawfulEqCmp.compare_eq_iff_eq]

/-- A tree that shows the same nodes after some mutations is the same tree. -/
theorem applyAll_eq_self {tree : FileTree} {mutations : List Mutation}
    (hroot : ∀ mutation ∈ mutations, mutation.location ≠ [])
    (h : ∀ location, (tree.applyAll mutations).node? location = tree.node? location) :
    tree.applyAll mutations = tree := by
  have hnodes : (tree.applyAll mutations).nodes = tree.nodes := by
    apply Std.ExtTreeMap.ext_getElem?
    intro location
    by_cases hlocation : location = []
    · rw [hlocation]
      exact nodes_applyAll_nil hroot
    · have hnode := h location
      simpa only [node?, if_neg hlocation] using hnode
  cases htree : tree.applyAll mutations
  cases tree
  simp_all

end FileTree

/-- The mutation writes or removes a file: there is no directory in its way, and it makes none. -/
def Disk.FileMutation (disk : Disk) : Mutation → Prop
  | .write location _ => disk.tree.node? location ≠ some .directory
  | .makeDirectory _ => False
  | .remove location => disk.tree.node? location ≠ some .directory

namespace Disk

variable {disk other : Disk} {mutation : Mutation}

@[simp] theorem applyAll_tree (disk : Disk) (mutations : List Mutation) :
    (disk.applyAll mutations).tree = disk.tree.applyAll mutations := rfl

@[simp] theorem applyAll_nil (disk : Disk) : disk.applyAll [] = disk := rfl

theorem applyAll_append (disk : Disk) (first second : List Mutation) :
    disk.applyAll (first ++ second) = (disk.applyAll first).applyAll second := by
  simp only [applyAll, FileTree.applyAll_append]

theorem applyAll_cons (disk : Disk) (mutation : Mutation) (later : List Mutation) :
    disk.applyAll (mutation :: later) = (disk.applyAll [mutation]).applyAll later :=
  applyAll_append disk [mutation] later

theorem FileMutation.location_ne_nil (h : disk.FileMutation mutation) :
    mutation.location ≠ [] := by
  cases mutation with
  | write location bytes => rintro rfl; exact h rfl
  | makeDirectory location => exact h.elim
  | remove location => rintro rfl; exact h rfl

theorem FileMutation.same (h : disk.FileMutation mutation) (hsame : disk.SameDirectories other) :
    other.FileMutation mutation := by
  cases mutation with
  | write location bytes => exact fun hnode ↦ h ((hsame.directory location).mp hnode)
  | makeDirectory location => exact h
  | remove location => exact fun hnode ↦ h ((hsame.directory location).mp hnode)

theorem FileMutation.sameDirectories (h : disk.FileMutation mutation) :
    disk.SameDirectories (disk.applyAll [mutation]) := by
  refine ⟨rfl, fun location ↦ ?_⟩
  by_cases hlocation : location = mutation.location
  · subst hlocation
    have hnode : (disk.tree.applyAll [mutation]).node? mutation.location = mutation.node? :=
      FileTree.node?_applyAll_of_mem (by simp) (by simp) h.location_ne_nil
    rw [applyAll_tree, hnode]
    cases mutation with
    | write there bytes => simpa [Mutation.node?, Mutation.location, FileMutation] using h
    | makeDirectory there => exact h.elim
    | remove there => simpa [Mutation.node?, Mutation.location, FileMutation] using h
  · rw [applyAll_tree, FileTree.node?_applyAll_of_notMem (by simpa using hlocation)]

/-- Writing and removing files keeps the directories. -/
theorem sameDirectories_applyAll {mutations : List Mutation}
    (h : ∀ mutation ∈ mutations, disk.FileMutation mutation) :
    disk.SameDirectories (disk.applyAll mutations) := by
  induction mutations generalizing disk with
  | nil => exact .refl disk
  | cons mutation mutations ih =>
      have hfirst := (h mutation (by simp)).sameDirectories
      rw [applyAll_cons]
      exact hfirst.trans <| ih fun later hlater ↦
        (h later (List.mem_cons_of_mem mutation hlater)).same hfirst

/-- A path that leads elsewhere does not notice mutations of files. -/
theorem AgreesAt.applyAll {path : String} {mutations : List Mutation}
    (h : disk.AgreesAt other path) (hfiles : ∀ mutation ∈ mutations, other.FileMutation mutation)
    (helsewhere : ∀ location, disk.place? path = some location →
      location ∉ mutations.map Mutation.location) :
    disk.AgreesAt (other.applyAll mutations) path where
  toSameDirectories := h.toSameDirectories.trans (sameDirectories_applyAll hfiles)
  node?_eq location hplace :=
    (FileTree.node?_applyAll_of_notMem (helsewhere location hplace)).trans
      (h.node?_eq location hplace)

theorem SameFileAt.applyAll {path : String} {mutations : List Mutation}
    (h : disk.SameFileAt other path) (hfiles : ∀ mutation ∈ mutations, other.FileMutation mutation)
    (helsewhere : ∀ directory name, disk.Names path directory name →
      directory ++ [name] ∉ mutations.map Mutation.location) :
    disk.SameFileAt (other.applyAll mutations) path where
  toSameDirectories := h.toSameDirectories.trans (sameDirectories_applyAll hfiles)
  node?_eq directory name hnames :=
    (FileTree.node?_applyAll_of_notMem (helsewhere directory name hnames)).trans
      (h.node?_eq directory name hnames)

theorem fileMutation_of_writeTarget {path : String} {location : Location} (bytes : Bytes)
    (h : disk.writeTarget path = .ok location) :
    disk.FileMutation (.write location bytes) := by
  obtain ⟨_, _, _, _, hnode⟩ := writeTarget_eq_ok_iff.mp h
  exact hnode

end Disk
end SymbolRename
