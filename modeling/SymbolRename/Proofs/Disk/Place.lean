import SymbolRename.Backup

/-!
# Where paths lead

The place of a path is the location that it leads to, or would lead to once something is written
there.  It depends on the directories of a disk only, and so do the walks on the way to it: writing
and removing files leaves all of them as they are.
-/

namespace SymbolRename

theorem bind_eq_ok_iff {ε α β : Type} {x : Except ε α} {f : α → Except ε β} {b : β} :
    (x >>= f) = .ok b ↔ ∃ a, x = .ok a ∧ f a = .ok b := by
  cases x with
  | error e => simp [bind, Except.bind]
  | ok a => simp [bind, Except.bind]

namespace Disk

/-! ## Steps -/

theorem child_eq_ok_iff {here there : Location} {name : String} :
    child here name = .ok there ↔ byteLength name ≤ maxNameLength ∧ there = here ++ [name] := by
  rw [child]
  split
  · next h => simp [Nat.not_le.mpr h]
  · next h => simp [Nat.not_lt.mp h, eq_comm]

theorem descend_eq_ok_iff {disk : Disk} {here there : Location} {step : String} :
    disk.descend here step = .ok there ↔
      (step = "." ∧ there = here) ∨ (step = ".." ∧ there = here.dropLast) ∨
        (step ≠ "." ∧ step ≠ ".." ∧ child here step = .ok there ∧
          disk.tree.node? there = some .directory) := by
  rw [descend]
  split
  · next hdot => simp [hdot, eq_comm]
  · next hdot =>
    split
    · next hup => simp [hup, eq_comm]
    · next hup =>
      rw [bind_eq_ok_iff]
      constructor
      · rintro ⟨place, hchild, hnode⟩
        split at hnode
        · cases hnode
        · cases hnode
        · next hdirectory =>
          cases hnode
          exact Or.inr (Or.inr ⟨hdot, hup, hchild, hdirectory⟩)
      · rintro (⟨h, _⟩ | ⟨h, _⟩ | ⟨_, _, hchild, hdirectory⟩)
        · exact absurd h hdot
        · exact absurd h hup
        · exact ⟨there, hchild, by rw [hdirectory]⟩

theorem walk_cons (disk : Disk) (here : Location) (step : String) (steps : List String) :
    disk.walk here (step :: steps) = disk.descend here step >>= fun there ↦ disk.walk there steps :=
  rfl

def origin (disk : Disk) (route : Route) : Location :=
  if route.absolute then [] else disk.cwd

theorem approach_eq_named_iff {disk : Disk} {route : Route} {directory : Location}
    {name : String} :
    disk.approach route = .ok (.named directory name) ↔
      disk.walk (disk.origin route) route.steps.dropLast = .ok directory ∧
        route.steps.getLast? = some name ∧ name ≠ "." ∧ name ≠ ".." := by
  rw [approach, bind_eq_ok_iff]
  constructor
  · rintro ⟨here, hwalk, hlast⟩
    split at hlast
    · cases hlast
    · next step hstep =>
      split at hlast
      · cases hlast
      · next hdot =>
        split at hlast
        · cases hlast
        · next hup =>
          cases hlast
          exact ⟨hwalk, hstep, hdot, hup⟩
  · rintro ⟨hwalk, hlast, hdot, hup⟩
    exact ⟨directory, hwalk, by simp [hlast, hdot, hup]⟩

/-! ## Disks with the same directories -/

/-- The two disks have the same directories, whatever else stands on them. -/
structure SameDirectories (disk other : Disk) : Prop where
  cwd : other.cwd = disk.cwd
  directory : ∀ location,
    other.tree.node? location = some .directory ↔ disk.tree.node? location = some .directory

namespace SameDirectories

variable {disk other third : Disk}

theorem refl (disk : Disk) : disk.SameDirectories disk := ⟨rfl, fun _ ↦ Iff.rfl⟩

theorem symm (h : disk.SameDirectories other) : other.SameDirectories disk :=
  ⟨h.cwd.symm, fun location ↦ (h.directory location).symm⟩

theorem trans (h : disk.SameDirectories other) (h' : other.SameDirectories third) :
    disk.SameDirectories third :=
  ⟨h'.cwd.trans h.cwd, fun location ↦ (h'.directory location).trans (h.directory location)⟩

theorem descend (h : disk.SameDirectories other) {here there : Location} {step : String} :
    other.descend here step = .ok there ↔ disk.descend here step = .ok there := by
  rw [descend_eq_ok_iff, descend_eq_ok_iff, h.directory]

theorem walk (h : disk.SameDirectories other) {here there : Location} {steps : List String} :
    other.walk here steps = .ok there ↔ disk.walk here steps = .ok there := by
  induction steps generalizing here with
  | nil => rfl
  | cons step steps ih =>
      rw [walk_cons, walk_cons, bind_eq_ok_iff, bind_eq_ok_iff]
      simp only [h.descend, ih]

theorem origin (h : disk.SameDirectories other) (route : Route) :
    other.origin route = disk.origin route := by
  rw [Disk.origin, Disk.origin, h.cwd]

theorem approach (h : disk.SameDirectories other) {route : Route} {ending : Ending} :
    other.approach route = .ok ending ↔ disk.approach route = .ok ending := by
  have horigin := h.origin route
  simp only [Disk.origin] at horigin
  rw [Disk.approach, Disk.approach, bind_eq_ok_iff, bind_eq_ok_iff, horigin]
  simp only [h.walk]

end SameDirectories

/-! ## Places -/

/-- The location that a path leads to, or would lead to if something stood there.  A path with a
slash at its end leads to directories only. -/
def place? (disk : Disk) (path : String) : Option Location :=
  match route path with
  | .error _ => none
  | .ok route =>
    match disk.approach route with
    | .error _ => none
    | .ok (.here location) => some location
    | .ok (.named directory name) =>
      match child directory name with
      | .error _ => none
      | .ok there =>
        if route.slash ∧ disk.tree.node? there ≠ some .directory then none else some there

/-- Two paths that do not lead to the same place. -/
def Elsewhere (disk : Disk) (path other : String) : Prop :=
  disk.place? path = none ∨ disk.place? path ≠ disk.place? other

instance (disk : Disk) (path other : String) : Decidable (disk.Elsewhere path other) :=
  inferInstanceAs (Decidable (_ ∨ _))

theorem Elsewhere.ne {disk : Disk} {path other : String} (h : disk.Elsewhere path other)
    {location there : Location} (hpath : disk.place? path = some location)
    (hother : disk.place? other = some there) : location ≠ there := by
  rintro rfl
  rcases h with h | h
  · simp [hpath] at h
  · exact h (hpath.trans hother.symm)

/-- The path ends with a name, which may stand in the directory that the path leads through. -/
structure Names (disk : Disk) (path : String) (directory : Location) (name : String) : Prop where
  intro ::
  exists_route : ∃ r, route path = .ok r ∧ r.slash = false ∧
    disk.approach r = .ok (.named directory name)
  length_le : byteLength name ≤ maxNameLength

namespace Names

variable {disk other : Disk} {path : String} {directory : Location} {name : String}

theorem same (h : disk.Names path directory name) (hsame : disk.SameDirectories other) :
    other.Names path directory name := by
  obtain ⟨⟨r, hroute, hslash, happroach⟩, hlength⟩ := h
  exact ⟨⟨r, hroute, hslash, hsame.approach.mpr happroach⟩, hlength⟩

theorem place?_eq (h : disk.Names path directory name) :
    disk.place? path = some (directory ++ [name]) := by
  obtain ⟨⟨r, hroute, hslash, happroach⟩, hlength⟩ := h
  have hchild : child directory name = .ok (directory ++ [name]) :=
    child_eq_ok_iff.mpr ⟨hlength, rfl⟩
  simp [place?, hroute, happroach, hchild, hslash]

theorem lookup_eq (h : disk.Names path directory name) :
    disk.lookup path =
      match disk.tree.node? (directory ++ [name]) with
      | none => .error .notFound
      | some node => .ok (directory ++ [name], node) := by
  obtain ⟨⟨r, hroute, hslash, happroach⟩, hlength⟩ := h
  have hchild : child directory name = .ok (directory ++ [name]) :=
    child_eq_ok_iff.mpr ⟨hlength, rfl⟩
  simp only [lookup, hroute, follow, happroach, bind, Except.bind, hchild, hslash]
  cases disk.tree.node? (directory ++ [name]) with
  | none => rfl
  | some node => cases node <;> rfl

theorem writeTarget_eq (h : disk.Names path directory name) :
    disk.writeTarget path =
      if disk.tree.node? (directory ++ [name]) = some .directory then .error .isDirectory
      else .ok (directory ++ [name]) := by
  obtain ⟨⟨r, hroute, hslash, happroach⟩, hlength⟩ := h
  have hchild : child directory name = .ok (directory ++ [name]) :=
    child_eq_ok_iff.mpr ⟨hlength, rfl⟩
  simp only [writeTarget, hroute, happroach, bind, Except.bind, hchild, hslash]
  cases disk.tree.node? (directory ++ [name]) with
  | none => rfl
  | some node => cases node <;> rfl

end Names

/-- A file is always found under a name. -/
theorem lookup_eq_file_iff {disk : Disk} {path : String} {location : Location} {bytes : Bytes} :
    disk.lookup path = .ok (location, .file bytes) ↔
      ∃ directory name, disk.Names path directory name ∧ location = directory ++ [name] ∧
        disk.tree.node? location = some (.file bytes) := by
  constructor
  · intro h
    obtain ⟨r, hroute, hfollow⟩ := bind_eq_ok_iff.mp h
    obtain ⟨ending, happroach, hending⟩ := bind_eq_ok_iff.mp hfollow
    cases ending with
    | here place => cases hending
    | named directory name =>
        obtain ⟨there, hchild, hnode⟩ := bind_eq_ok_iff.mp hending
        obtain ⟨hlength, rfl⟩ := child_eq_ok_iff.mp hchild
        split at hnode
        · cases hnode
        · cases hnode
        · next found hfound =>
          split at hnode
          · cases hnode
          · next hslash =>
            cases hnode
            exact ⟨directory, name, ⟨⟨r, hroute, by simpa using hslash, happroach⟩, hlength⟩,
              rfl, hfound⟩
  · rintro ⟨directory, name, hnames, rfl, hnode⟩
    rw [hnames.lookup_eq, hnode]

theorem writeTarget_eq_ok_iff {disk : Disk} {path : String} {location : Location} :
    disk.writeTarget path = .ok location ↔
      ∃ directory name, disk.Names path directory name ∧ location = directory ++ [name] ∧
        disk.tree.node? location ≠ some .directory := by
  constructor
  · intro h
    obtain ⟨r, hroute, hrest⟩ := bind_eq_ok_iff.mp h
    obtain ⟨ending, happroach, hending⟩ := bind_eq_ok_iff.mp hrest
    cases ending with
    | here place => cases hending
    | named directory name =>
        simp only at hending
        split at hending
        · cases hending
        · next hslash =>
          obtain ⟨there, hchild, hnode⟩ := bind_eq_ok_iff.mp hending
          obtain ⟨hlength, rfl⟩ := child_eq_ok_iff.mp hchild
          split at hnode
          · cases hnode
          · next hfree =>
            cases hnode
            exact ⟨directory, name, ⟨⟨r, hroute, by simpa using hslash, happroach⟩, hlength⟩,
              rfl, hfree⟩
  · rintro ⟨directory, name, hnames, rfl, hnode⟩
    rw [hnames.writeTarget_eq, if_neg hnode]

theorem writeTarget_of_lookup {disk : Disk} {path : String} {location : Location} {bytes : Bytes}
    (h : disk.lookup path = .ok (location, .file bytes)) :
    disk.writeTarget path = .ok location := by
  obtain ⟨directory, name, hnames, hlocation, hnode⟩ := lookup_eq_file_iff.mp h
  exact writeTarget_eq_ok_iff.mpr ⟨directory, name, hnames, hlocation, by simp [hnode]⟩

theorem place?_of_writeTarget {disk : Disk} {path : String} {location : Location}
    (h : disk.writeTarget path = .ok location) : disk.place? path = some location := by
  obtain ⟨directory, name, hnames, rfl, _⟩ := writeTarget_eq_ok_iff.mp h
  exact hnames.place?_eq

/-! ## Places on disks with the same directories -/

theorem place?_eq_some_iff {disk : Disk} {path : String} {location : Location} :
    disk.place? path = some location ↔
      ∃ r, route path = .ok r ∧ (disk.approach r = .ok (.here location) ∨
        ∃ directory name, disk.approach r = .ok (.named directory name) ∧
          child directory name = .ok location ∧
          (r.slash = true → disk.tree.node? location = some .directory)) := by
  rw [place?]
  cases hroute : route path with
  | error e => simp
  | ok r =>
      cases happroach : disk.approach r with
      | error e => simp [happroach]
      | ok ending =>
          cases ending with
          | here there => simp [happroach]
          | named directory name =>
              cases hchild : child directory name with
              | error e => simp [happroach, hchild]
              | ok there =>
                  simp only [happroach, hchild, Except.ok.injEq, exists_eq_left', reduceCtorEq,
                    false_or, Ending.named.injEq]
                  constructor
                  · intro h
                    split at h
                    · cases h
                    · next hdirectory =>
                      cases h
                      refine ⟨directory, name, ⟨rfl, rfl⟩, hchild, fun hslash ↦ ?_⟩
                      exact Decidable.byContradiction fun hnode ↦ hdirectory ⟨hslash, hnode⟩
                  · rintro ⟨_, _, ⟨rfl, rfl⟩, hthere, hdirectory⟩
                    cases hchild.symm.trans hthere
                    rw [if_neg]
                    rintro ⟨hslash, hnode⟩
                    exact hnode (hdirectory hslash)

theorem SameDirectories.place?_eq {disk other : Disk} (h : disk.SameDirectories other)
    (path : String) : other.place? path = disk.place? path := by
  apply Option.ext
  intro location
  simp only [place?_eq_some_iff, h.approach, h.directory]

theorem lookup_eq_ok_iff {disk : Disk} {path : String} {location : Location} {node : Node} :
    disk.lookup path = .ok (location, node) ↔
      ∃ r, route path = .ok r ∧
        ((disk.approach r = .ok (.here location) ∧ node = .directory) ∨
          ∃ directory name, disk.approach r = .ok (.named directory name) ∧
            child directory name = .ok location ∧ disk.tree.node? location = some node ∧
            (r.slash = true → node = .directory)) := by
  rw [lookup, bind_eq_ok_iff]
  apply exists_congr
  intro r
  apply and_congr_right
  intro _
  rw [follow, bind_eq_ok_iff]
  constructor
  · rintro ⟨ending, happroach, hending⟩
    cases ending with
    | here there =>
        cases hending
        exact Or.inl ⟨happroach, rfl⟩
    | named directory name =>
        obtain ⟨there, hchild, hnode⟩ := bind_eq_ok_iff.mp hending
        refine Or.inr ⟨directory, name, happroach, ?_⟩
        split at hnode
        · cases hnode
        · next hfound =>
          cases hnode
          exact ⟨hchild, hfound, fun _ ↦ rfl⟩
        · next bytes hfound =>
          split at hnode
          · cases hnode
          · next hslash =>
            cases hnode
            exact ⟨hchild, hfound, fun h ↦ absurd h hslash⟩
  · rintro (⟨happroach, rfl⟩ | ⟨directory, name, happroach, hchild, hnode, hslash⟩)
    · exact ⟨_, happroach, rfl⟩
    · refine ⟨_, happroach, bind_eq_ok_iff.mpr ⟨location, hchild, ?_⟩⟩
      rw [hnode]
      cases node with
      | directory => rfl
      | file bytes =>
          have : r.slash ≠ true := fun h ↦ by cases hslash h
          simp [this]

theorem place?_of_lookup {disk : Disk} {path : String} {location : Location} {node : Node}
    (h : disk.lookup path = .ok (location, node)) : disk.place? path = some location := by
  obtain ⟨r, hroute, ⟨happroach, _⟩ | ⟨directory, name, happroach, hchild, hnode, hslash⟩⟩ :=
    lookup_eq_ok_iff.mp h
  · exact place?_eq_some_iff.mpr ⟨r, hroute, Or.inl happroach⟩
  · refine place?_eq_some_iff.mpr ⟨r, hroute, Or.inr ⟨directory, name, happroach, hchild, ?_⟩⟩
    intro h
    rw [hnode, hslash h]

/-- A path that leads to a place names it, or leads to a directory wherever the directories are the
same. -/
theorem names_or_directory {disk : Disk} {path : String} {location : Location}
    (h : disk.place? path = some location) :
    (∃ directory name, disk.Names path directory name ∧ location = directory ++ [name]) ∨
      ∀ other, disk.SameDirectories other → other.lookup path = .ok (location, .directory) := by
  obtain ⟨r, hroute, happroach | ⟨directory, name, happroach, hchild, hslash⟩⟩ :=
    place?_eq_some_iff.mp h
  · right
    intro other hsame
    exact lookup_eq_ok_iff.mpr ⟨r, hroute, Or.inl ⟨hsame.approach.mpr happroach, rfl⟩⟩
  · cases hr : r.slash with
    | false =>
        obtain ⟨hlength, hlocation⟩ := child_eq_ok_iff.mp hchild
        exact Or.inl ⟨directory, name, ⟨⟨r, hroute, hr, happroach⟩, hlength⟩, hlocation⟩
    | true =>
        right
        intro other hsame
        have hnode := (hsame.directory location).mpr (hslash hr)
        exact lookup_eq_ok_iff.mpr ⟨r, hroute, Or.inr ⟨directory, name,
          hsame.approach.mpr happroach, hchild, hnode, fun _ ↦ rfl⟩⟩

theorem pathExists_of_lookup {disk : Disk} {path : String} {found : Location × Node}
    (h : disk.lookup path = .ok found) : disk.pathExists path = true := by
  simp [pathExists, h, Except.isOk, Except.toBool]

theorem pathExists_eq_true_iff {disk : Disk} {path : String} :
    disk.pathExists path = true ↔ ∃ found, disk.lookup path = .ok found := by
  constructor
  · intro h
    rw [pathExists] at h
    cases hfound : disk.lookup path with
    | error e => simp [hfound, Except.isOk, Except.toBool] at h
    | ok found => exact ⟨found, rfl⟩
  · rintro ⟨found, hfound⟩
    exact pathExists_of_lookup hfound

theorem isFile_eq_true_iff {disk : Disk} {path : String} :
    disk.isFile path = true ↔
      ∃ location bytes, disk.lookup path = .ok (location, .file bytes) := by
  rw [isFile]
  constructor
  · intro h
    split at h
    · next location bytes hfound => exact ⟨location, bytes, hfound⟩
    · cases h
  · rintro ⟨location, bytes, hfound⟩
    rw [hfound]

/-! ## Disks that agree on a path -/

/-- The two disks agree on a path: they have the same directories, and the same stands at the place
of the path. -/
structure AgreesAt (disk other : Disk) (path : String) : Prop extends
    disk.SameDirectories other where
  node?_eq : ∀ location, disk.place? path = some location →
    other.tree.node? location = disk.tree.node? location

theorem AgreesAt.symm {disk other : Disk} {path : String} (h : disk.AgreesAt other path) :
    other.AgreesAt disk path where
  toSameDirectories := h.toSameDirectories.symm
  node?_eq location hplace :=
    (h.node?_eq location ((h.place?_eq path).symm.trans hplace)).symm

theorem AgreesAt.lookup {disk other : Disk} {path : String} (h : disk.AgreesAt other path)
    {found : Location × Node} (hfound : disk.lookup path = .ok found) :
    other.lookup path = .ok found := by
  obtain ⟨location, node⟩ := found
  have hplace := place?_of_lookup hfound
  obtain ⟨r, hroute, ⟨happroach, hnode⟩ | ⟨directory, name, happroach, hchild, hnode, hslash⟩⟩ :=
    lookup_eq_ok_iff.mp hfound
  · exact lookup_eq_ok_iff.mpr ⟨r, hroute, Or.inl ⟨h.approach.mpr happroach, hnode⟩⟩
  · exact lookup_eq_ok_iff.mpr ⟨r, hroute, Or.inr ⟨directory, name, h.approach.mpr happroach,
      hchild, (h.node?_eq location hplace).trans hnode, hslash⟩⟩

/-- The two disks have the same directories, and the same stands under the name that the path ends
with. -/
structure SameFileAt (disk other : Disk) (path : String) : Prop extends
    disk.SameDirectories other where
  node?_eq : ∀ directory name, disk.Names path directory name →
    other.tree.node? (directory ++ [name]) = disk.tree.node? (directory ++ [name])

namespace SameFileAt

variable {disk other : Disk} {path : String}

theorem refl (disk : Disk) (path : String) : disk.SameFileAt disk path :=
  ⟨.refl disk, fun _ _ _ ↦ rfl⟩

theorem lookup (h : disk.SameFileAt other path) {location : Location} {bytes : Bytes} :
    other.lookup path = .ok (location, .file bytes) ↔
      disk.lookup path = .ok (location, .file bytes) := by
  rw [lookup_eq_file_iff, lookup_eq_file_iff]
  constructor
  · rintro ⟨directory, name, hnames, rfl, hnode⟩
    have hnames' := hnames.same h.toSameDirectories.symm
    exact ⟨directory, name, hnames', rfl, (h.node?_eq directory name hnames').symm.trans hnode⟩
  · rintro ⟨directory, name, hnames, rfl, hnode⟩
    exact ⟨directory, name, hnames.same h.toSameDirectories, rfl,
      (h.node?_eq directory name hnames).trans hnode⟩

theorem isFile_eq (h : disk.SameFileAt other path) : other.isFile path = disk.isFile path := by
  rw [Bool.eq_iff_iff, isFile_eq_true_iff, isFile_eq_true_iff]
  simp only [h.lookup]

end SameFileAt

end Disk
end SymbolRename
