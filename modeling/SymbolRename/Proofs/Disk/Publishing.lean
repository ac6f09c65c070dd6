import Mathlib.Data.List.Infix
import SymbolRename.Disk.Publish
import SymbolRename.Proofs.Disk.Commit

/-!
# Writing a file is contained

Creating the directories on the way to a file makes directories where nothing stood, one after the
other, and may stop after any of them.  Only then is the file written, if at all.  So whatever is
stopped or fails, all that was on the disk is still there, and at most the bytes of the file itself
have changed.
-/

namespace SymbolRename
namespace Disk

/-- All that stood on the disk stands there afterwards, up to the bytes of the target.  What is new
is a directory or the target. -/
structure Contained (disk after : Disk) (target : Option Location) : Prop where
  directory_kept : ∀ location, disk.tree.node? location = some .directory →
    after.tree.node? location = some .directory
  file_kept : ∀ location bytes, disk.tree.node? location = some (.file bytes) →
    after.tree.node? location = some (.file bytes) ∨
      target = some location ∧ ∃ new, after.tree.node? location = some (.file new)
  created : ∀ location node, disk.tree.node? location = none →
    after.tree.node? location = some node → node = .directory ∨ target = some location

/-- The mutations make directories, each where nothing stands at its turn. -/
inductive Builds : Disk → List Mutation → Prop where
  | nil {disk : Disk} : Builds disk []
  | cons {disk : Disk} {there : Location} {made : List Mutation}
      (hfree : disk.tree.node? there = none)
      (hmade : Builds (disk.applyAll [.makeDirectory there]) made) :
      Builds disk (.makeDirectory there :: made)

variable {disk : Disk} {path : String} {made more : List Mutation} {location there : Location}

/-! ## Directories -/

theorem node?_makeDirectory (hfree : disk.tree.node? there = none) (location : Location) :
    (disk.applyAll [.makeDirectory there]).tree.node? location =
      if there = location then some .directory else disk.tree.node? location := by
  by_cases hroot : location = []
  · have hne : there ≠ location := by
      rintro rfl
      simp [hroot] at hfree
    rw [if_neg hne, hroot]
    rfl
  · exact FileTree.node?_apply disk.tree (.makeDirectory there) location hroot

namespace Builds

theorem append (h : Builds disk made) (hmore : Builds (disk.applyAll made) more) :
    Builds disk (made ++ more) := by
  induction h with
  | nil => exact hmore
  | cons hfree _ ih =>
      rw [applyAll_cons] at hmore
      exact .cons hfree (ih hmore)

theorem of_prefix (h : Builds disk made) {done : List Mutation} (hdone : done <+: made) :
    Builds disk done := by
  induction h generalizing done with
  | nil =>
      rw [List.prefix_nil.mp hdone]
      exact .nil
  | cons hfree _ ih =>
      rcases List.prefix_cons_iff.mp hdone with rfl | ⟨rest, rfl, hrest⟩
      · exact .nil
      · exact .cons hfree (ih hrest)

theorem node?_kept (h : Builds disk made) {node : Node}
    (hnode : disk.tree.node? location = some node) :
    (disk.applyAll made).tree.node? location = some node := by
  induction h with
  | nil => exact hnode
  | @cons disk there made hfree _ ih =>
      rw [applyAll_cons]
      apply ih
      have hne : there ≠ location := by
        rintro rfl
        simp [hfree] at hnode
      rw [node?_makeDirectory hfree, if_neg hne, hnode]

theorem node?_created (h : Builds disk made) {node : Node}
    (hfree : disk.tree.node? location = none)
    (hnode : (disk.applyAll made).tree.node? location = some node) : node = .directory := by
  induction h with
  | nil => simp [hfree] at hnode
  | @cons disk there made hthere hmade ih =>
      rw [applyAll_cons] at hnode
      by_cases heq : there = location
      · have hmadeHere : (disk.applyAll [.makeDirectory there]).tree.node? location =
            some .directory := by
          rw [node?_makeDirectory hthere, if_pos heq]
        exact (Option.some.inj ((hmade.node?_kept hmadeHere).symm.trans hnode)).symm
      · refine ih ?_ hnode
        rw [node?_makeDirectory hthere, if_neg heq, hfree]

theorem contained (h : Builds disk made) (target : Option Location) :
    disk.Contained (disk.applyAll made) target where
  directory_kept _ hnode := h.node?_kept hnode
  file_kept _ _ hnode := Or.inl (h.node?_kept hnode)
  created _ _ hfree hnode := Or.inl (h.node?_created hfree hnode)

end Builds

theorem node?_of_makeTarget (h : disk.makeTarget path = .ok there) :
    disk.tree.node? there = none := by
  obtain ⟨r, _, hrest⟩ := bind_eq_ok_iff.mp h
  obtain ⟨ending, _, hending⟩ := bind_eq_ok_iff.mp hrest
  cases ending with
  | here place => cases hending
  | named directory name =>
      obtain ⟨place, _, hnode⟩ := bind_eq_ok_iff.mp hending
      split at hnode
      · cases hnode
      · next hfree =>
        cases hnode
        exact hfree

theorem builds_of_makeTarget (h : disk.makeTarget path = .ok there) :
    Builds disk [.makeDirectory there] :=
  .cons (node?_of_makeTarget h) .nil

/-- Whether or not all directories can be created, those that are were not there before. -/
theorem builds_ensureParts (disk : Disk) (start : List Char) (partsUp : List (List Char)) :
    Builds disk (disk.ensureParts start partsUp).2 := by
  induction partsUp with
  | nil => exact .nil
  | cons part above ih =>
      rw [ensureParts]
      split
      · exact ih
      · dsimp only
        split
        · next hmake => exact builds_of_makeTarget hmake
        · -- the parent is missing, and is created first
          split
          · next habove =>
            rw [habove] at ih
            exact ih
          · next habove =>
            rw [habove] at ih
            split
            · next hmake => exact ih.append (builds_of_makeTarget hmake)
            · split <;> exact ih
        · split <;> exact .nil

theorem builds_ensureParents (disk : Disk) (path : String) :
    Builds disk (disk.ensureParents path).2 :=
  builds_ensureParts disk _ _

/-! ## The file -/

theorem Builds.contained_write (h : Builds disk made) (bytes : Bytes)
    (htarget : (disk.applyAll made).writeTarget path = .ok there) :
    disk.Contained (disk.applyAll (made ++ [.write there bytes])) (some there) := by
  obtain ⟨_, _, _, _, hfree⟩ := writeTarget_eq_ok_iff.mp htarget
  have hroot : there ≠ [] := by
    rintro rfl
    exact hfree rfl
  have hnode (location : Location) :
      (disk.applyAll (made ++ [.write there bytes])).tree.node? location =
        if there = location then some (.file bytes)
        else (disk.applyAll made).tree.node? location := by
    rw [applyAll_append]
    by_cases hlocation : location = []
    · rw [if_neg (hlocation ▸ hroot), hlocation]
      rfl
    · exact FileTree.node?_apply _ (.write there bytes) location hlocation
  refine ⟨?_, ?_, ?_⟩
  · intro location hdirectory
    have hkept := h.node?_kept hdirectory
    have hne : there ≠ location := by
      rintro rfl
      exact hfree hkept
    rw [hnode, if_neg hne, hkept]
  · intro location old hold
    have hkept := h.node?_kept hold
    by_cases heq : there = location
    · exact Or.inr ⟨congrArg some heq, bytes, by rw [hnode, if_pos heq]⟩
    · exact Or.inl (by rw [hnode, if_neg heq, hkept])
  · intro location node hnone hsome
    by_cases heq : there = location
    · exact Or.inr (congrArg some heq)
    · rw [hnode, if_neg heq] at hsome
      exact Or.inl (h.node?_created hnone hsome)

/-- Publishing creates directories and then, if all goes well, writes the file. -/
theorem publish_cases (disk : Disk) (path : String) (bytes : Bytes) :
    ∃ made, Builds disk made ∧
      ((∃ error, disk.publish path bytes = (.error error, made)) ∨
        ∃ there, (disk.applyAll made).writeTarget path = .ok there ∧
          disk.publish path bytes = (.ok (), made ++ [.write there bytes])) := by
  have hbuilds := builds_ensureParents disk path
  refine ⟨(disk.ensureParents path).2, hbuilds, ?_⟩
  rw [publish]
  split
  · next e made hparents => exact Or.inl ⟨_, by rw [hparents]⟩
  · next made hparents =>
    rw [hparents]
    split
    · exact Or.inl ⟨_, rfl⟩
    · next there htarget => exact Or.inr ⟨there, htarget, rfl⟩

/-- A file that was published is read back.  At every moment up to the end, whether it is one of
success or of failure, nothing has disappeared, no file but the published one has other bytes, and
what is new is a directory or this file; after a failure, it is a directory. -/
theorem publish_contained (disk : Disk) (path : String) (bytes : Bytes) :
    ∃ result made, disk.publish path bytes = (result, made) ∧
      (result = .ok () → (disk.applyAll made).readBytes path = .ok bytes) ∧
      (∀ done, done <+: made →
        disk.Contained (disk.applyAll done) ((disk.applyAll made).place? path)) ∧
      (result ≠ .ok () → ∀ done, done <+: made → disk.Contained (disk.applyAll done) none) := by
  obtain ⟨made, hbuilds, ⟨error, hpublish⟩ | ⟨there, htarget, hpublish⟩⟩ :=
    disk.publish_cases path bytes
  · refine ⟨.error error, made, hpublish, by simp, ?_, ?_⟩
    · exact fun done hdone ↦ (hbuilds.of_prefix hdone).contained _
    · exact fun _ done hdone ↦ (hbuilds.of_prefix hdone).contained _
  · have hlookup := lookup_write htarget bytes
    rw [← applyAll_append] at hlookup
    refine ⟨.ok (), made ++ [.write there bytes], hpublish, ?_, ?_, ?_⟩
    · exact fun _ ↦ readBytes_of_lookup hlookup
    · intro done hdone
      rw [place?_of_lookup hlookup]
      rcases List.prefix_concat_iff.mp hdone with rfl | hearlier
      · exact hbuilds.contained_write bytes htarget
      · exact (hbuilds.of_prefix hearlier).contained _
    · exact fun hfailed ↦ absurd rfl hfailed

/-- A disk with a file and a directory. -/
def deskDisk : Disk :=
  ⟨FileTree.empty.applyAll [.write ["a.md"] [0x61], .makeDirectory ["d"]], []⟩

/-- On the way to one report a directory is created only to be left again; to another one leads no
way, since a file is no directory. -/
theorem publish_contained_on_deskDisk :
    (∃ made, deskDisk.publish "new/../d/sub//r.md" [0x72] = (.ok (), made) ∧
      made = [.makeDirectory ["new"], .makeDirectory ["d", "sub"],
        .write ["d", "sub", "r.md"] [0x72]] ∧
      (deskDisk.applyAll made).readBytes "new/../d/sub//r.md" = .ok [0x72] ∧
      deskDisk.Contained (deskDisk.applyAll (made.take 1)) (some ["d", "sub", "r.md"])) ∧
    ∃ made, deskDisk.publish "new/../a.md/r.md" [0x72] =
        (.error ⟨.createParents, "new/../a.md/r.md", .exists⟩, made) ∧
      deskDisk.Contained (deskDisk.applyAll made) none := by
  constructor
  · obtain ⟨result, made, hpublish, hread, hcontained, _⟩ :=
      publish_contained deskDisk "new/../d/sub//r.md" [0x72]
    have hmade : deskDisk.publish "new/../d/sub//r.md" [0x72] =
        (.ok (), [.makeDirectory ["new"], .makeDirectory ["d", "sub"],
          .write ["d", "sub", "r.md"] [0x72]]) := by
      decide +kernel
    cases hpublish.symm.trans hmade
    refine ⟨_, hmade, rfl, hread rfl, ?_⟩
    have hplace : (deskDisk.applyAll [.makeDirectory ["new"], .makeDirectory ["d", "sub"],
        .write ["d", "sub", "r.md"] [0x72]]).place? "new/../d/sub//r.md" =
          some ["d", "sub", "r.md"] := by
      decide +kernel
    rw [← hplace]
    exact hcontained _ (List.take_prefix _ _)
  · obtain ⟨result, made, hpublish, _, _, hfailed⟩ :=
      publish_contained deskDisk "new/../a.md/r.md" [0x72]
    have hmade : deskDisk.publish "new/../a.md/r.md" [0x72] =
        (.error ⟨.createParents, "new/../a.md/r.md", .exists⟩, [.makeDirectory ["new"]]) := by
      decide +kernel
    cases hpublish.symm.trans hmade
    exact ⟨_, hmade, hfailed (by simp) _ (List.prefix_refl _)⟩

end Disk
end SymbolRename
