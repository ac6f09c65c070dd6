import Mathlib.Data.List.Pairwise
import SymbolRename.Proofs.Disk.Suffix

/-!
# Separate entries

An entry of a file list owns the place of its file and the place of the backup beside it.  Entries
are separate if none of them leads to the place of another one or of its backup; then no place is
owned by two of them, and what is done at the places of one is not seen at the places of another.
-/

namespace SymbolRename

namespace Disk

variable {disk other : Disk} {suffix path path' : String} {location : Location}

theorem Elsewhere.symm (h : disk.Elsewhere path path') : disk.Elsewhere path' path := by
  by_cases hnone : disk.place? path' = none
  · exact Or.inl hnone
  · refine Or.inr fun heq ↦ ?_
    rcases h with h | h
    · exact hnone (heq.trans h)
    · exact h heq.symm

theorem Elsewhere.same (h : disk.Elsewhere path path') (hsame : disk.SameDirectories other) :
    other.Elsewhere path path' := by
  rw [Elsewhere, hsame.place?_eq, hsame.place?_eq]
  exact h

/-- Neither of two files stands in the place of the other one or of its backup. -/
structure Apart (disk : Disk) (suffix path path' : String) : Prop where
  files : disk.Elsewhere path path'
  left : disk.Elsewhere path (backupPath suffix path')
  right : disk.Elsewhere path' (backupPath suffix path)

instance (disk : Disk) (suffix path path' : String) : Decidable (disk.Apart suffix path path') :=
  decidable_of_iff (disk.Elsewhere path path' ∧ disk.Elsewhere path (backupPath suffix path') ∧
      disk.Elsewhere path' (backupPath suffix path))
    ⟨fun h ↦ ⟨h.1, h.2.1, h.2.2⟩, fun h ↦ ⟨h.files, h.left, h.right⟩⟩

theorem Apart.symm (h : disk.Apart suffix path path') : disk.Apart suffix path' path :=
  ⟨h.files.symm, h.right, h.left⟩

/-- No entry of the list leads to the place of another one or of the backup of another one. -/
def Separate (disk : Disk) (root suffix : String) (files : List String) : Prop :=
  files.Pairwise fun path path' ↦ disk.Apart suffix (joinPath root path) (joinPath root path')

instance (disk : Disk) (root suffix : String) (files : List String) :
    Decidable (disk.Separate root suffix files) :=
  inferInstanceAs (Decidable (files.Pairwise _))

namespace Separate

variable {root : String} {files : List String}

theorem same (h : disk.Separate root suffix files) (hsame : disk.SameDirectories other) :
    other.Separate root suffix files :=
  h.imp fun hapart ↦
    ⟨hapart.files.same hsame, hapart.left.same hsame, hapart.right.same hsame⟩

theorem apart (h : disk.Separate root suffix files) (hpath : path ∈ files) (hpath' : path' ∈ files)
    (hne : path ≠ path') : disk.Apart suffix (joinPath root path) (joinPath root path') := by
  have hsymm : Std.Symm fun path path' ↦
      disk.Apart suffix (joinPath root path) (joinPath root path') := ⟨fun _ _ ↦ Apart.symm⟩
  exact h.forall hpath hpath' hne

end Separate

/-! ## Owned places -/

/-- The places of a file and of its backup. -/
inductive Owns (disk : Disk) (suffix path : String) : Location → Prop where
  | file {directory : Location} {name : String} (hfile : disk.Names path directory name) :
      Owns disk suffix path (directory ++ [name])
  | backup {directory : Location} {name : String} (hfile : disk.Names path directory name)
      (hbackup : disk.Names (backupPath suffix path) directory (name ++ suffix)) :
      Owns disk suffix path (directory ++ [name ++ suffix])

theorem owns_of_writeTarget (h : disk.writeTarget path = .ok location) :
    disk.Owns suffix path location := by
  obtain ⟨directory, name, hnames, rfl, _⟩ := writeTarget_eq_ok_iff.mp h
  exact .file hnames

/-- The backup of a file stands beside it. -/
theorem backup_eq_of_writeTarget {backup : Location} (hplain : PlainSuffix suffix)
    (htarget : disk.writeTarget path = .ok location)
    (hbackup : disk.writeTarget (backupPath suffix path) = .ok backup) :
    ∃ directory name, disk.Names path directory name ∧ location = directory ++ [name] ∧
      disk.Names (backupPath suffix path) directory (name ++ suffix) ∧
      backup = directory ++ [name ++ suffix] := by
  obtain ⟨directory, name, hnames, rfl, _⟩ := writeTarget_eq_ok_iff.mp htarget
  obtain ⟨directory', full, hfull, rfl, _⟩ := writeTarget_eq_ok_iff.mp hbackup
  have hplace := hnames.writeTarget_suffix hplain hbackup
  obtain ⟨rfl, hname⟩ := List.append_inj' hplace rfl
  obtain rfl := List.singleton_inj.mp hname
  exact ⟨directory', name, hnames, rfl, hfull, rfl⟩

theorem ne_of_writeTarget {backup : Location} (hplain : PlainSuffix suffix)
    (htarget : disk.writeTarget path = .ok location)
    (hbackup : disk.writeTarget (backupPath suffix path) = .ok backup) : location ≠ backup := by
  obtain ⟨directory, name, _, rfl, _, rfl⟩ := backup_eq_of_writeTarget hplain htarget hbackup
  have hname : name ++ suffix ≠ name := by simpa using hplain.nonempty
  simpa using hname.symm

theorem owns_backup_of_writeTarget {backup : Location} (hplain : PlainSuffix suffix)
    (htarget : disk.writeTarget path = .ok location)
    (hbackup : disk.writeTarget (backupPath suffix path) = .ok backup) :
    disk.Owns suffix path backup := by
  obtain ⟨directory, name, hfile, _, hsaved, rfl⟩ :=
    backup_eq_of_writeTarget hplain htarget hbackup
  exact .backup hfile hsaved

theorem Owns.same (h : disk.Owns suffix path location) (hsame : disk.SameDirectories other) :
    other.Owns suffix path location := by
  cases h with
  | file hfile => exact .file (hfile.same hsame)
  | backup hfile hbackup => exact .backup (hfile.same hsame) (hbackup.same hsame)

theorem Owns.ne_nil (h : disk.Owns suffix path location) : location ≠ [] := by
  cases h <;> simp

theorem Owns.place?_eq (h : disk.Owns suffix path location) :
    disk.place? path = some location ∨
      disk.place? (backupPath suffix path) = some location := by
  cases h with
  | file hfile => exact Or.inl hfile.place?_eq
  | backup _ hbackup => exact Or.inr hbackup.place?_eq

/-- What one file owns is not where another one leads. -/
theorem Owns.ne_file {there : Location} (h : disk.Owns suffix path location)
    (hapart : disk.Apart suffix path path') (hplace : disk.place? path' = some there) :
    location ≠ there := by
  cases h with
  | file hfile => exact hapart.files.ne hfile.place?_eq hplace
  | backup _ hbackup => exact (hapart.right.ne hplace hbackup.place?_eq).symm

/-- What one file owns is not where the backup of another one is looked for. -/
theorem Owns.ne_backup {directory : Location} {name : String} (hplain : PlainSuffix suffix)
    (h : disk.Owns suffix path location) (hapart : disk.Apart suffix path path')
    (hnames : disk.Names (backupPath suffix path') directory name) :
    location ≠ directory ++ [name] := by
  cases h with
  | file hfile => exact hapart.left.ne hfile.place?_eq hnames.place?_eq
  | @backup there stem hfile _ =>
      -- two backups in one place would belong to one file
      intro heq
      obtain ⟨rfl, hname⟩ := List.append_inj' heq rfl
      obtain rfl := List.singleton_inj.mp hname
      obtain ⟨hdot, hup⟩ := hfile.name_ne_dots
      have hstem := Names.of_suffix hplain hnames hfile.name_ne_empty hdot hup
      exact hapart.files.ne hfile.place?_eq hstem.place?_eq rfl

theorem Owns.ne {there : Location} (hplain : PlainSuffix suffix)
    (h : disk.Owns suffix path location) (hapart : disk.Apart suffix path path')
    (h' : disk.Owns suffix path' there) : location ≠ there := by
  cases h' with
  | file hfile => exact h.ne_file hapart hfile.place?_eq
  | backup _ hbackup => exact h.ne_backup hplain hapart hbackup

/-! ## Mutations at owned places -/

/-- The mutations for an entry are made at different places, all of which the entry owns. -/
structure OwnMutations (disk : Disk) (root suffix : String) (mutations : String → List Mutation) :
    Prop where
  owns : ∀ path, ∀ mutation ∈ mutations path,
    disk.Owns suffix (joinPath root path) mutation.location
  pairwise : ∀ path, (mutations path).Pairwise fun first second ↦ first.location ≠ second.location

namespace OwnMutations

variable {root : String} {files : List String} {mutations : String → List Mutation}

theorem nodup_location (h : disk.OwnMutations root suffix mutations) (hplain : PlainSuffix suffix)
    (hseparate : disk.Separate root suffix files) :
    ((files.flatMap mutations).map Mutation.location).Nodup := by
  rw [List.Nodup, List.pairwise_map, List.pairwise_flatMap]
  refine ⟨fun path _ ↦ h.pairwise path, ?_⟩
  refine hseparate.imp fun {path path'} hapart first hfirst second hsecond ↦ ?_
  exact (h.owns path first hfirst).ne hplain hapart (h.owns path' second hsecond)

/-- What is done for one entry is not undone for another one. -/
theorem node?_applyAll (h : disk.OwnMutations root suffix mutations) (hplain : PlainSuffix suffix)
    (hseparate : disk.Separate root suffix files) (hpath : path ∈ files) {mutation : Mutation}
    (hmutation : mutation ∈ mutations path) (tree : FileTree) :
    (tree.applyAll (files.flatMap mutations)).node? mutation.location = mutation.node? :=
  FileTree.node?_applyAll_of_mem (h.nodup_location hplain hseparate)
    (List.mem_flatMap.mpr ⟨path, hpath, hmutation⟩) (h.owns path mutation hmutation).ne_nil

theorem node?_applyAll_of_owns (h : disk.OwnMutations root suffix mutations)
    (hplain : PlainSuffix suffix) (hseparate : disk.Separate root suffix files)
    (hpath : path ∈ files) (howns : disk.Owns suffix (joinPath root path) location)
    (hnone : location ∉ (mutations path).map Mutation.location) (tree : FileTree) :
    (tree.applyAll (files.flatMap mutations)).node? location = tree.node? location := by
  apply FileTree.node?_applyAll_of_notMem
  intro hmem
  obtain ⟨mutation, hmutation, heq⟩ := List.mem_map.mp hmem
  obtain ⟨owner, howner, hmutation⟩ := List.mem_flatMap.mp hmutation
  by_cases hself : owner = path
  · subst hself
    exact hnone (List.mem_map.mpr ⟨mutation, hmutation, heq⟩)
  · exact (h.owns owner mutation hmutation).ne hplain (hseparate.apart howner hpath hself) howns heq

/-- What is done for the entries before and after another one is done elsewhere. -/
theorem notMem_location {before after others : List String}
    (h : disk.OwnMutations root suffix mutations) (hplain : PlainSuffix suffix)
    (hseparate : disk.Separate root suffix (before ++ path :: after))
    (hothers : others = before ∨ others = after)
    (howns : disk.Owns suffix (joinPath root path) location) :
    location ∉ (others.flatMap mutations).map Mutation.location := by
  intro hmem
  obtain ⟨mutation, hmutation, rfl⟩ := List.mem_map.mp hmem
  obtain ⟨other, hother, hmutation⟩ := List.mem_flatMap.mp hmutation
  have hapart : disk.Apart suffix (joinPath root other) (joinPath root path) := by
    obtain ⟨_, hafter, hbefore⟩ := List.pairwise_append.mp hseparate
    rcases hothers with rfl | rfl
    · exact hbefore other hother path (by simp)
    · exact (List.rel_of_pairwise_cons hafter hother).symm
  exact (h.owns other mutation hmutation).ne hplain hapart howns rfl

section Idle

variable (h : disk.OwnMutations root suffix mutations)
  (hfiles : ∀ path, ∀ mutation ∈ mutations path, disk.FileMutation mutation)
  (hseparate : disk.Separate root suffix files) (hpath : path ∈ files) (hnone : mutations path = [])

include h hseparate hpath hnone

/-- Seen from an entry for which nothing is done, all mutations belong to other entries. -/
theorem exists_owner (hmem : location ∈ (files.flatMap mutations).map Mutation.location) :
    ∃ owner, disk.Apart suffix (joinPath root owner) (joinPath root path) ∧
      disk.Owns suffix (joinPath root owner) location := by
  obtain ⟨mutation, hmutation, rfl⟩ := List.mem_map.mp hmem
  obtain ⟨owner, howner, hmutation⟩ := List.mem_flatMap.mp hmutation
  have hne : owner ≠ path := by
    rintro rfl
    simp [hnone] at hmutation
  exact ⟨owner, hseparate.apart howner hpath hne, h.owns owner mutation hmutation⟩

include hfiles

theorem agreesAt_applyAll :
    disk.AgreesAt (disk.applyAll (files.flatMap mutations)) (joinPath root path) where
  toSameDirectories := by
    apply sameDirectories_applyAll
    intro mutation hmutation
    obtain ⟨owner, _, hmutation⟩ := List.mem_flatMap.mp hmutation
    exact hfiles owner mutation hmutation
  node?_eq location hplace := by
    apply FileTree.node?_applyAll_of_notMem
    intro hmem
    obtain ⟨owner, hapart, howns⟩ := h.exists_owner hseparate hpath hnone hmem
    exact howns.ne_file hapart hplace rfl

theorem sameFileAt_applyAll (hplain : PlainSuffix suffix) :
    disk.SameFileAt (disk.applyAll (files.flatMap mutations))
      (backupPath suffix (joinPath root path)) where
  toSameDirectories :=
    (h.agreesAt_applyAll hfiles hseparate hpath hnone).toSameDirectories
  node?_eq directory name hnames := by
    apply FileTree.node?_applyAll_of_notMem
    intro hmem
    obtain ⟨owner, hapart, howns⟩ := h.exists_owner hseparate hpath hnone hmem
    exact howns.ne_backup hplain hapart hnames rfl

end Idle

end OwnMutations

end Disk
end SymbolRename
